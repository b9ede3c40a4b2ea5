import Mathlib.Data.List.DropRight
import QueryCraft.Templates

/-! # Base64

The URL-safe alphabet.  The decoder takes the characters of the standard alphabet, too, and
expects padding at the end; it does not look at bits that are left over.

What a text may be decoded to is read off a template for it: `decodesInto` checks a template for
the bytes against one for the characters (`decode_fits`).
-/
namespace QueryCraft.Base64

/-- The character of six bits. -/
def symbol (n : Nat) : Char :=
  if n < 26 then Char.ofNat ('A'.toNat + n)
  else if n < 52 then Char.ofNat ('a'.toNat + (n - 26))
  else if n < 62 then Char.ofNat ('0'.toNat + (n - 52))
  else if n = 62 then '-' else '_'

/-- The six bits of a character. -/
def sextet? (c : Char) : Option Nat :=
  if 'A' ≤ c ∧ c ≤ 'Z' then some (c.toNat - 'A'.toNat)
  else if 'a' ≤ c ∧ c ≤ 'z' then some (c.toNat - 'a'.toNat + 26)
  else if '0' ≤ c ∧ c ≤ '9' then some (c.toNat - '0'.toNat + 52)
  else if c = '-' ∨ c = '+' then some 62
  else if c = '_' ∨ c = '/' then some 63
  else none

/-- `urlsafe_b64encode`, of bytes given as numbers. -/
def encode : List Nat → List Char
  | [] => []
  | [a] => [symbol (a / 4), symbol (a % 4 * 16), '=', '=']
  | [a, b] => [symbol (a / 4), symbol (a % 4 * 16 + b / 16), symbol (b % 16 * 4), '=']
  | a :: b :: c :: rest =>
    symbol (a / 4) :: symbol (a % 4 * 16 + b / 16) :: symbol (b % 16 * 4 + c / 64) ::
      symbol (c % 64) :: encode rest

/-- The bytes of four characters. -/
def decodeGroup (w x y z : Char) : Option (List Nat) := do
  let w ← sextet? w
  let x ← sextet? x
  if y = '=' then
    if z = '=' then some [w * 4 + x / 16] else none
  else
    let y ← sextet? y
    if z = '=' then some [w * 4 + x / 16, x % 16 * 16 + y / 4]
    else
      let z ← sextet? z
      some [w * 4 + x / 16, x % 16 * 16 + y / 4, y % 4 * 64 + z]

/-- `b64decode` of a padded text. -/
def decode : List Char → Option (List Nat)
  | [] => some []
  | w :: x :: y :: z :: rest =>
    match decodeGroup w x y z, rest with
    | some bytes, [] => some bytes
    | some [a, b, c], _ => (decode rest).map fun bytes => a :: b :: c :: bytes
    | _, _ => none
  | _ => none

/-- `b64decode` with `validate`: no padding before the last data, and none that exceeds the last
group; only after complete groups is any amount of it taken. -/
def decodeStrict (cs : List Char) : Option (List Nat) :=
  let data := cs.takeWhile (· ≠ '=')
  if data.length % 4 = 0 ∧ data ≠ [] ∧ (cs.drop data.length).all (· = '=') then decode data
  else decode cs

/-- `rstrip(b"=")`. -/
def stripPadding (cs : List Char) : List Char := cs.rdropWhile (· = '=')

/-- The padding that completes the last group: `b"=" * (-len(cursor) % 4)`. -/
def pad (cs : List Char) : List Char := cs ++ List.replicate ((4 - cs.length % 4) % 4) '='

/-! ## Groups -/

/-- Four characters of the alphabet are three bytes. -/
theorem decode_group {w x y z : Char} {a b c d : Nat} (hw : sextet? w = some a)
    (hx : sextet? x = some b) (hy : sextet? y = some c) (hz : sextet? z = some d)
    (rest : List Char) : decode (w :: x :: y :: z :: rest) = (decode rest).map fun bytes =>
      (a * 4 + b / 16) :: (b % 16 * 16 + c / 4) :: (c % 4 * 64 + d) :: bytes := by
  have hpadding : sextet? '=' = none := by decide
  have hy' : y ≠ '=' := by
    rintro rfl
    rw [hpadding] at hy
    cases hy
  have hz' : z ≠ '=' := by
    rintro rfl
    rw [hpadding] at hz
    cases hz
  have hgroup : decodeGroup w x y z =
      some [a * 4 + b / 16, b % 16 * 16 + c / 4, c % 4 * 64 + d] := by
    simp only [decodeGroup, hw, hx, hy, hz, if_neg hy', if_neg hz', Option.bind_eq_bind,
      Option.bind_some]
  cases rest with
  | nil => simp [decode, hgroup]
  | cons _ rest => simp [decode, hgroup]

/-! ## Round trip -/

theorem sextet?_symbol : ∀ n < 64, sextet? (symbol n) = some n := by decide

theorem symbol_ne_padding : ∀ n < 64, symbol n ≠ '=' := by decide

theorem decode_cons {a b c : Nat} (ha : a < 256) (hb : b < 256) (hc : c < 256)
    (rest : List Char) :
    decode (symbol (a / 4) :: symbol (a % 4 * 16 + b / 16) :: symbol (b % 16 * 4 + c / 64) ::
      symbol (c % 64) :: rest) = (decode rest).map fun bytes => a :: b :: c :: bytes := by
  have h1 : a / 4 * 4 + (a % 4 * 16 + b / 16) / 16 = a := by omega
  have h2 : (a % 4 * 16 + b / 16) % 16 * 16 + (b % 16 * 4 + c / 64) / 4 = b := by omega
  have h3 : (b % 16 * 4 + c / 64) % 4 * 64 + c % 64 = c := by omega
  rw [decode_group (sextet?_symbol (a / 4) (by omega))
    (sextet?_symbol (a % 4 * 16 + b / 16) (by omega))
    (sextet?_symbol (b % 16 * 4 + c / 64) (by omega)) (sextet?_symbol (c % 64) (by omega)),
    h1, h2, h3]

/-- What is encoded can be decoded. -/
theorem decode_encode : ∀ bytes : List Nat, (∀ b ∈ bytes, b < 256) →
    decode (encode bytes) = some bytes
  | [], _ => rfl
  | [a], h => by
    have ha : a < 256 := h a (by simp)
    simp only [encode, decode, decodeGroup, sextet?_symbol (a / 4) (by omega),
      sextet?_symbol (a % 4 * 16) (by omega), Option.bind_eq_bind, Option.bind_some, if_true]
    have h1 : a / 4 * 4 + a % 4 * 16 / 16 = a := by omega
    rw [h1]
  | [a, b], h => by
    have ha : a < 256 := h a (by simp)
    have hb : b < 256 := h b (by simp)
    simp only [encode, decode, decodeGroup, sextet?_symbol (a / 4) (by omega),
      sextet?_symbol (a % 4 * 16 + b / 16) (by omega), sextet?_symbol (b % 16 * 4) (by omega),
      if_neg (symbol_ne_padding (b % 16 * 4) (by omega)), Option.bind_eq_bind, Option.bind_some,
      if_true]
    have h1 : a / 4 * 4 + (a % 4 * 16 + b / 16) / 16 = a := by omega
    have h2 : (a % 4 * 16 + b / 16) % 16 * 16 + b % 16 * 4 / 4 = b := by omega
    rw [h1, h2]
  | a :: b :: c :: rest, h => by
    have hrest : ∀ x ∈ rest, x < 256 := fun x hx => h x (by simp [hx])
    rw [encode, decode_cons (h a (by simp)) (h b (by simp)) (h c (by simp)),
      decode_encode rest hrest]
    rfl

theorem length_encode : ∀ bytes : List Nat,
    (encode bytes).length = (bytes.length + 2) / 3 * 4
  | [] => rfl
  | [_] => by simp [encode]
  | [_, _] => by simp [encode]
  | a :: b :: c :: rest => by
    have := length_encode rest
    simp only [encode, List.length_cons]
    omega

/-- A text that ends with at most two paddings is completed by `pad`. -/
theorem pad_of_append {body : List Char} {k : Nat} (hk : k ≤ 2)
    (hlen : (body.length + k) % 4 = 0) : pad body = body ++ List.replicate k '=' := by
  have : (4 - body.length % 4) % 4 = k := by omega
  rw [pad, this]

/-- The encoded text is a body without padding, and at most two paddings.  In the body three
bytes take four characters, one byte two and two bytes three. -/
theorem encode_eq_body : ∀ bytes : List Nat, (∀ b ∈ bytes, b < 256) →
    ∃ body k, encode bytes = body ++ List.replicate k '=' ∧ k ≤ 2 ∧
      body.length = (4 * bytes.length + 2) / 3 ∧ ∀ c ∈ body, c ≠ '='
  | [], _ => ⟨[], 0, rfl, by omega, rfl, by simp⟩
  | [a], h => by
    have ha : a < 256 := h a (by simp)
    refine ⟨[symbol (a / 4), symbol (a % 4 * 16)], 2, rfl, by omega, by simp, ?_⟩
    simp [symbol_ne_padding (a / 4) (by omega), symbol_ne_padding (a % 4 * 16) (by omega)]
  | [a, b], h => by
    have ha : a < 256 := h a (by simp)
    have hb : b < 256 := h b (by simp)
    refine ⟨[symbol (a / 4), symbol (a % 4 * 16 + b / 16), symbol (b % 16 * 4)], 1, rfl,
      by omega, by simp, ?_⟩
    simp [symbol_ne_padding (a / 4) (by omega),
      symbol_ne_padding (a % 4 * 16 + b / 16) (by omega),
      symbol_ne_padding (b % 16 * 4) (by omega)]
  | a :: b :: c :: rest, h => by
    have ha : a < 256 := h a (by simp)
    have hb : b < 256 := h b (by simp)
    have hc : c < 256 := h c (by simp)
    obtain ⟨body, k, henc, hk, hlen, hbody⟩ :=
      encode_eq_body rest fun x hx => h x (by simp [hx])
    refine ⟨symbol (a / 4) :: symbol (a % 4 * 16 + b / 16) :: symbol (b % 16 * 4 + c / 64) ::
      symbol (c % 64) :: body, k, by simp [encode, henc], hk, ?_, ?_⟩
    · simp only [List.length_cons]
      omega
    · simp only [List.forall_mem_cons]
      exact ⟨symbol_ne_padding _ (by omega), symbol_ne_padding _ (by omega),
        symbol_ne_padding _ (by omega), symbol_ne_padding _ (by omega), hbody⟩

theorem stripPadding_append {body : List Char} {k : Nat} (h : ∀ c ∈ body, c ≠ '=') :
    stripPadding (body ++ List.replicate k '=') = body := by
  have hstrip : stripPadding (body ++ List.replicate k '=') = stripPadding body := by
    induction k with
    | zero => simp
    | succ k ih =>
      rw [List.replicate_succ', ← List.append_assoc, stripPadding,
        List.rdropWhile_concat_pos _ _ _ (by simp)]
      exact ih
  rw [hstrip, stripPadding, List.rdropWhile_eq_self_iff]
  intro hne
  have := h _ (List.getLast_mem hne)
  simpa using this

/-- The padding that was stripped is put back. -/
theorem pad_stripPadding_encode {bytes : List Nat} (h : ∀ b ∈ bytes, b < 256) :
    pad (stripPadding (encode bytes)) = encode bytes := by
  obtain ⟨body, k, henc, hk, -, hbody⟩ := encode_eq_body bytes h
  have hlen := length_encode bytes
  rw [henc, List.length_append, List.length_replicate] at hlen
  rw [henc, stripPadding_append hbody]
  exact pad_of_append hk (by omega)

theorem length_stripPadding {bytes : List Nat} (h : ∀ b ∈ bytes, b < 256) :
    (stripPadding (encode bytes)).length = (4 * bytes.length + 2) / 3 := by
  obtain ⟨body, k, henc, -, hlen, hbody⟩ := encode_eq_body bytes h
  rw [henc, stripPadding_append hbody, hlen]

/-- Encoding something leaves something. -/
theorem stripPadding_encode_ne_nil {bytes : List Nat} (h : ∀ b ∈ bytes, b < 256)
    (hne : bytes ≠ []) : stripPadding (encode bytes) ≠ [] := by
  intro hnil
  have hpad := pad_stripPadding_encode h
  rw [hnil] at hpad
  have hdec := decode_encode bytes h
  rw [← hpad] at hdec
  exact hne (Option.some.inj hdec).symm

/-! ## Decoding what fits a template -/

/-- What two characters are put together to. -/
def joins (f : Nat → Nat → Nat) (kw kx : List Char) (k : List Nat) : Bool :=
  (kw.filterMap sextet?).all fun a => (kx.filterMap sextet?).all fun b => k.contains (f a b)

/-- The bytes that a text of one template is decoded to fit the other. -/
def decodesInto : List (List Char) → List (List Nat) → Bool
  | [], [] => true
  | kw :: kx :: ky :: kz :: ks, k :: k' :: k'' :: ls =>
    joins (fun a b => a * 4 + b / 16) kw kx k && joins (fun a b => a % 16 * 16 + b / 4) kx ky k' &&
      joins (fun a b => a % 4 * 64 + b) ky kz k'' && decodesInto ks ls
  | _, _ => false

theorem mem_of_joins {f : Nat → Nat → Nat} {kw kx : List Char} {k : List Nat}
    (h : joins f kw kx k = true) {w x : Char} (hw : w ∈ kw) (hx : x ∈ kx) {a b : Nat}
    (ha : sextet? w = some a) (hb : sextet? x = some b) : f a b ∈ k := by
  simp only [joins, List.all_eq_true, List.contains_iff_mem] at h
  exact h a (List.mem_filterMap.mpr ⟨w, hw, ha⟩) b (List.mem_filterMap.mpr ⟨x, hx, hb⟩)

theorem decodesInto_append {ks ks' : List (List Char)} {ls ls' : List (List Nat)}
    (h : decodesInto ks ls = true) (h' : decodesInto ks' ls' = true) :
    decodesInto (ks ++ ks') (ls ++ ls') = true := by
  fun_induction decodesInto ks ls with
  | case1 => exact h'
  | case2 kw kx ky kz ks k k1 k2 ls ih =>
    simp only [List.cons_append, decodesInto, Bool.and_eq_true] at h ⊢
    exact ⟨h.1, ih h.2⟩
  | case3 => cases h

theorem decodesInto_cycle {ks : List (List Char)} {ls : List (List Nat)}
    (h : decodesInto ks ls = true) (n : Nat) : decodesInto (cycle n ks) (cycle n ls) = true := by
  induction n with
  | zero => rfl
  | succ n ih => exact decodesInto_append h ih

/-- The bytes of a group, up to the first padding. -/
theorem decodeGroup_eq_some {w x y z : Char} {bytes : List Nat}
    (h : decodeGroup w x y z = some bytes) : ∃ a b, sextet? w = some a ∧ sextet? x = some b ∧
      (bytes = [a * 4 + b / 16] ∨ ∃ c, sextet? y = some c ∧
        (bytes = [a * 4 + b / 16, b % 16 * 16 + c / 4] ∨ ∃ d, sextet? z = some d ∧
          bytes = [a * 4 + b / 16, b % 16 * 16 + c / 4, c % 4 * 64 + d])) := by
  obtain ⟨a, hw, h⟩ := Option.bind_eq_some_iff.mp h
  obtain ⟨b, hx, h⟩ := Option.bind_eq_some_iff.mp h
  refine ⟨a, b, hw, hx, ?_⟩
  split_ifs at h with hy hz hz
  · exact .inl (Option.some.inj h).symm
  · obtain ⟨c, hc, h⟩ := Option.bind_eq_some_iff.mp h
    exact .inr ⟨c, hc, .inl (Option.some.inj h).symm⟩
  · obtain ⟨c, hc, h⟩ := Option.bind_eq_some_iff.mp h
    obtain ⟨d, hd, h⟩ := Option.bind_eq_some_iff.mp h
    exact .inr ⟨c, hc, .inr ⟨d, hd, (Option.some.inj h).symm⟩⟩

/-- What a text that fits the one template is decoded to fits the other. -/
theorem decode_fits {ks : List (List Char)} {ls : List (List Nat)}
    (h : decodesInto ks ls = true) {cs : List Char} (hcs : Fits ks cs) {bytes : List Nat}
    (hbytes : decode cs = some bytes) : Fits ls bytes := by
  fun_induction decodesInto ks ls generalizing cs bytes with
  | case1 =>
    cases cs with
    | nil =>
      obtain rfl := Option.some.inj hbytes
      exact hcs
    | cons c cs => exact hcs.elim
  | case2 kw kx ky kz ks k k1 k2 ls ih =>
    simp only [Bool.and_eq_true] at h
    obtain ⟨⟨⟨hwx, hxy⟩, hyz⟩, hrest⟩ := h
    rcases cs with _ | ⟨w, _ | ⟨x, _ | ⟨y, _ | ⟨z, cs⟩⟩⟩⟩
    · obtain rfl := Option.some.inj hbytes
      exact (fits_nil _).mpr trivial
    · cases hbytes
    · cases hbytes
    · cases hbytes
    · obtain ⟨hw, hx, hy, hz, hcs⟩ := hcs
      have hgroup : ∀ group, decodeGroup w x y z = some group → Fits [k, k1, k2] group := by
        intro group hsome
        obtain ⟨a, b, ha, hb, rfl | ⟨c, hc, rfl | ⟨d, hd, rfl⟩⟩⟩ := decodeGroup_eq_some hsome
        · exact ⟨mem_of_joins hwx hw hx ha hb, trivial⟩
        · exact ⟨mem_of_joins hwx hw hx ha hb, mem_of_joins hxy hx hy hb hc, trivial⟩
        · exact ⟨mem_of_joins hwx hw hx ha hb, mem_of_joins hxy hx hy hb hc,
            mem_of_joins hyz hy hz hc hd, trivial⟩
      unfold decode at hbytes
      split at hbytes
      next group hsome =>
        obtain rfl := Option.some.inj hbytes
        exact (hgroup _ hsome).append_right ls
      next a b c hsome _ =>
        obtain ⟨bytes, hdecode, rfl⟩ := Option.map_eq_some_iff.mp hbytes
        obtain ⟨ha, hb, hc, -⟩ := hgroup _ hsome
        exact ⟨ha, hb, hc, ih hrest hcs hdecode⟩
      next => cases hbytes
  | case3 => cases h

/-- The strict decoder decodes the text, or what comes before its padding. -/
theorem decodeStrict_eq_decode (cs : List Char) :
    ∃ data, data <+: cs ∧ decodeStrict cs = decode data := by
  rw [decodeStrict]
  split
  · exact ⟨_, List.takeWhile_prefix _, rfl⟩
  · exact ⟨cs, List.prefix_refl cs, rfl⟩

theorem decodeStrict_fits {ks : List (List Char)} {ls : List (List Nat)}
    (h : decodesInto ks ls = true) {cs : List Char} (hcs : Fits ks cs) {bytes : List Nat}
    (hbytes : decodeStrict cs = some bytes) : Fits ls bytes := by
  obtain ⟨data, ⟨rest, rfl⟩, hdecode⟩ := decodeStrict_eq_decode cs
  exact decode_fits h hcs.left (hdecode.symm.trans hbytes)

/-! ## Texts without padding -/

/-- The characters of the alphabet are ASCII. -/
theorem sextet?_ascii {c : Char} (h : (sextet? c).isSome = true) : c.toNat < 128 := by
  unfold sextet? at h
  split_ifs at h with h1 h2 h3 h4 h5
  · exact Nat.lt_of_le_of_lt (show c.toNat ≤ 'Z'.toNat from h1.2) (by decide)
  · exact Nat.lt_of_le_of_lt (show c.toNat ≤ 'z'.toNat from h2.2) (by decide)
  · exact Nat.lt_of_le_of_lt (show c.toNat ≤ '9'.toNat from h3.2) (by decide)
  · rcases h4 with rfl | rfl <;> decide
  · rcases h5 with rfl | rfl <;> decide
  · cases h

theorem sextet?_lt {c : Char} {n : Nat} (h : sextet? c = some n) : n < 64 := by
  have hascii : ∀ n < 128, (sextet? (Char.ofNat n)).all (· < 64) = true := by decide
  have hc := hascii c.toNat (sextet?_ascii (by rw [h]; rfl))
  rw [Char.ofNat_toNat, h] at hc
  simpa using hc

section Unpadded
variable {cs : List Char} (h : ∀ c ∈ cs, (sextet? c).isSome = true)
include h

/-- Groups of characters of the alphabet can be decoded. -/
theorem exists_decode {n : Nat} (hn : cs.length = 4 * n) : ∃ bytes, decode cs = some bytes := by
  induction n generalizing cs with
  | zero =>
    obtain rfl := List.eq_nil_of_length_eq_zero hn
    exact ⟨[], rfl⟩
  | succ n ih =>
    rcases cs with _ | ⟨w, _ | ⟨x, _ | ⟨y, _ | ⟨z, cs⟩⟩⟩⟩ <;>
      simp only [List.length_cons, List.length_nil] at hn <;> try omega
    simp only [List.forall_mem_cons] at h
    obtain ⟨hw, hx, hy, hz, hcs⟩ := h
    obtain ⟨a, ha⟩ := Option.isSome_iff_exists.mp hw
    obtain ⟨b, hb⟩ := Option.isSome_iff_exists.mp hx
    obtain ⟨c, hc⟩ := Option.isSome_iff_exists.mp hy
    obtain ⟨d, hd⟩ := Option.isSome_iff_exists.mp hz
    obtain ⟨bytes, hbytes⟩ := ih hcs (by omega)
    exact ⟨_, by rw [decode_group ha hb hc hd, hbytes, Option.map_some]⟩

/-- What is kept by each group of characters holds of the whole text and its bytes. -/
theorem decode_induction {p : Nat → List Char → List Nat → Prop} (hnil : p 0 [] [])
    (hgroup : ∀ n w x y z rest a b c d bytes, w ∈ cs → x ∈ cs → y ∈ cs → z ∈ cs →
      sextet? w = some a → sextet? x = some b → sextet? y = some c → sextet? z = some d →
      p n rest bytes → p (n + 1) (w :: x :: y :: z :: rest)
        ((a * 4 + b / 16) :: (b % 16 * 16 + c / 4) :: (c % 4 * 64 + d) :: bytes))
    {n : Nat} (hn : cs.length = 4 * n) {bytes : List Nat} (hbytes : decode cs = some bytes) :
    p n cs bytes := by
  -- over the texts that end the given one
  have hsuffix : ∀ n rest, rest.length = 4 * n → rest <:+ cs → ∀ bytes,
      decode rest = some bytes → p n rest bytes := by
    intro n
    induction n with
    | zero =>
      intro rest hrest _ bytes hdecode
      obtain rfl := List.eq_nil_of_length_eq_zero hrest
      obtain rfl := Option.some.inj hdecode
      exact hnil
    | succ n ih =>
      intro rest hrest hcs bytes hdecode
      rcases rest with _ | ⟨w, _ | ⟨x, _ | ⟨y, _ | ⟨z, rest⟩⟩⟩⟩ <;>
        simp only [List.length_cons, List.length_nil] at hrest <;> try omega
      have hmem := hcs.subset
      simp only [List.cons_subset] at hmem
      obtain ⟨hw, hx, hy, hz, -⟩ := hmem
      obtain ⟨a, ha⟩ := Option.isSome_iff_exists.mp (h w hw)
      obtain ⟨b, hb⟩ := Option.isSome_iff_exists.mp (h x hx)
      obtain ⟨c, hc⟩ := Option.isSome_iff_exists.mp (h y hy)
      obtain ⟨d, hd⟩ := Option.isSome_iff_exists.mp (h z hz)
      rw [decode_group ha hb hc hd] at hdecode
      obtain ⟨tailBytes, htailBytes, rfl⟩ := Option.map_eq_some_iff.mp hdecode
      have htail : rest <:+ cs := (List.suffix_append [w, x, y, z] rest).trans hcs
      exact hgroup n w x y z rest a b c d tailBytes hw hx hy hz ha hb hc hd
        (ih rest (by omega) htail tailBytes htailBytes)
  exact hsuffix n cs hn (List.suffix_refl cs) bytes hbytes

/-- Four characters are three bytes. -/
theorem decode_spec {n : Nat} (hn : cs.length = 4 * n) {bytes : List Nat}
    (hbytes : decode cs = some bytes) : bytes.length = 3 * n ∧ ∀ b ∈ bytes, b < 256 := by
  refine decode_induction h (p := fun n _ bytes => bytes.length = 3 * n ∧ ∀ b ∈ bytes, b < 256)
    ⟨rfl, by simp⟩ ?_ hn hbytes
  intro n w x y z rest a b c d bytes _ _ _ _ ha hb hc hd ih
  have := sextet?_lt ha
  have := sextet?_lt hb
  have := sextet?_lt hc
  have := sextet?_lt hd
  simp only [List.length_cons, List.forall_mem_cons]
  exact ⟨by omega, by omega, by omega, by omega, ih.2⟩

/-- There is nothing to pad, and nothing to be strict about. -/
theorem decodeStrict_pad (hlength : cs.length % 4 = 0) : decodeStrict (pad cs) = decode cs := by
  have hpad : pad cs = cs := by
    rw [pad, hlength]
    exact List.append_nil cs
  have htake : cs.takeWhile (· ≠ '=') = cs := by
    refine List.takeWhile_eq_self_iff.mpr fun c hc => decide_eq_true ?_
    rintro rfl
    exact absurd (h _ hc) (by decide)
  rw [hpad, decodeStrict, htake]
  split <;> rfl

end Unpadded

end QueryCraft.Base64
