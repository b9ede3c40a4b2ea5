import Mathlib.Data.Bool.AllAny
import Mathlib.Data.List.GetD
import QueryCraft.AuditPatterns
import QueryCraft.Utf8

/-! # Digests as base64

The 64 hexadecimal digits of a digest are a base64 text, too, so the inspection of a string decodes
a digest as it decodes any other text: sixteen groups of four digits become 48 bytes.  Where these
are UTF-8 they are a second text, and where that one is again base64, but for a space at its end,
its decoded form is a third.

Templates say what may stand at each place of the three texts.
-/
namespace QueryCraft

/-! ## Digests -/

/-- `0-9a-f`. -/
def hexDigits : List Char := "0123456789abcdef".toList

/-- What `hexdigest` of SHA-256 may return. -/
structure IsDigest (h : List Char) : Prop where
  length : h.length = 64
  digits : ∀ c ∈ h, c ∈ hexDigits

instance (h : List Char) : Decidable (IsDigest h) :=
  decidable_of_iff (h.length = 64 ∧ h.all (· ∈ hexDigits) = true)
    ⟨fun hd => ⟨hd.1, List.all_iff_forall_prop.mp hd.2⟩,
      fun hd => ⟨hd.length, List.all_iff_forall_prop.mpr hd.digits⟩⟩

/-- A group of four digits. -/
def digitGroup : List (List Char) := List.replicate 4 hexDigits

/-- The bytes of a group of digits. -/
def byteGroup : List (List Nat) :=
  [List.range' 0x69 12 2 ++ List.range' 0xd1 20 2,
    (List.range' 4 12).flatMap fun n => [6, 7, 13, 14, 15].map (16 * n + ·),
    (List.range 4).flatMap fun n => (List.range' 26 6 ++ List.range' 52 10).map (64 * n + ·)]

theorem decodesInto_byteGroup : Base64.decodesInto digitGroup byteGroup = true := by decide +kernel

theorem isSome_sextet?_hexDigits : ∀ c ∈ hexDigits, (Base64.sextet? c).isSome = true :=
  List.all_eq_true.mp (by decide)

namespace IsDigest
variable {h : List Char} (hd : IsDigest h)
include hd

theorem isSome_sextet? : ∀ c ∈ h, (Base64.sextet? c).isSome = true :=
  fun c hc => isSome_sextet?_hexDigits c (hd.digits c hc)

theorem fits : Fits (cycle 16 digitGroup) h := by
  have hcycle : cycle 16 digitGroup = List.replicate 64 hexDigits := rfl
  rw [hcycle, fits_replicate]
  exact ⟨hd.length.le, hd.digits⟩

/-- A digest stands for 48 bytes. -/
theorem exists_bytes : ∃ bs, Base64.decode h = some bs ∧ bs.length = 48 ∧ (∀ b ∈ bs, b < 256) ∧
    Fits (cycle 16 byteGroup) bs := by
  obtain ⟨bs, hbs⟩ := Base64.exists_decode hd.isSome_sextet? (n := 16) hd.length
  obtain ⟨hlength, hlt⟩ := Base64.decode_spec hd.isSome_sextet? (n := 16) hd.length hbs
  exact ⟨bs, hbs, hlength, hlt,
    Base64.decode_fits (Base64.decodesInto_cycle decodesInto_byteGroup 16) hd.fits hbs⟩

/-- The digits have no space around them. -/
theorem strip_eq : strip h = h := by
  have hspace : ∀ c ∈ hexDigits, isSpace c = false := List.all_iff_forall_prop.mp (by decide)
  exact strip_eq_self fun c hc => hspace c (hd.digits c hc)

end IsDigest

/-! ## The decoder of the inspection -/

theorem isBase64Char_ascii {c : Char} (h : isBase64Char c = true) : c.toNat < 128 := by
  rw [isBase64Char, Bool.or_eq_true] at h
  rcases h with h | h
  · exact Base64.sextet?_ascii h
  · obtain rfl := beq_iff_eq.mp h
    decide

/-- What the bytes are that a text is decoded from. -/
theorem decodeBase64_eq_some {value text : List Char} (h : decodeBase64 value = some text) :
    (strip value).all isBase64Char = true ∧
      ∃ bs, Base64.decodeStrict (Base64.pad (strip value)) = some bs ∧
        ((∀ b ∈ bs, b < 256) → bs = Utf8.bytes text) := by
  rw [decodeBase64] at h
  split at h
  next hcandidate =>
    obtain ⟨bs, hbs, htext⟩ := Option.bind_eq_some_iff.mp h
    obtain ⟨s, hs, rfl⟩ := Option.map_eq_some_iff.mp htext
    exact ⟨hcandidate.2.2, bs, hbs, fun hlt => (Utf8.fromUTF8?_eq_some_iff hlt s).mp hs⟩
  next => cases h

/-- A digest is decoded where its bytes are UTF-8. -/
theorem IsDigest.decodeBase64_eq_some_iff {h : List Char} (hd : IsDigest h) {bs : List Nat}
    (hbs : Base64.decode h = some bs) (hlt : ∀ b ∈ bs, b < 256) {text : List Char} :
    decodeBase64 h = some text ↔ bs = Utf8.bytes text := by
  have hchars : h.all isBase64Char = true :=
    List.all_eq_true.mpr fun c hc => by rw [isBase64Char, hd.isSome_sextet? c hc, Bool.true_or]
  have hdecode : Base64.decodeStrict (Base64.pad h) = some bs := by
    rw [Base64.decodeStrict_pad hd.isSome_sextet? (by rw [hd.length]), hbs]
  have hlength : 16 ≤ h.length ∧ h.length ≤ maxDecodeLength := by
    rw [hd.length]
    decide
  rw [decodeBase64, hd.strip_eq, if_pos ⟨hlength.1, hlength.2, hchars⟩, hdecode,
    Option.bind_some, Option.map_eq_some_iff]
  constructor
  · rintro ⟨s, hs, rfl⟩
    exact (Utf8.fromUTF8?_eq_some_iff hlt s).mp hs
  · intro hbytes
    refine ⟨String.ofList text, (Utf8.fromUTF8?_eq_some_iff hlt _).mpr ?_, String.toList_ofList⟩
    rw [String.toList_ofList]
    exact hbytes

/-! ## The first decoded text -/

/-- The code points of `isSpace`. -/
def spaceCodes : List Nat :=
  [9, 10, 11, 12, 13, 28, 29, 30, 31, 32, 133, 160, 5760, 8192, 8193, 8194, 8195, 8196, 8197,
    8198, 8199, 8200, 8201, 8202, 8232, 8233, 8239, 8287, 12288]

/-- The code points of `[\s\ufeff\x00-\x1f\x7f]`. -/
def skippedCodes : List Nat := spaceCodes ++ 0xfeff :: 0x7f :: List.range 32

theorem mem_spaceCodes {c : Char} (h : isSpace c = true) : c.toNat ∈ spaceCodes :=
  List.contains_iff_mem.mp h

/-- What is skipped before a formula is ASCII in the text of a digest, and a space is the last
character of a group. -/
theorem skipped_fits : ∀ n < 48, ∀ code ∈ skippedCodes,
    Fits ((cycle 16 byteGroup).drop n) (Utf8.charBytes (Char.ofNat code)) →
      code < 128 ∧ (code ∈ spaceCodes → n % 3 = 2) := by
  decide +kernel

/-- A text whose bytes are those of a digest. -/
structure IsDigestText (text : List Char) : Prop where
  fits : Fits (cycle 16 byteGroup) (Utf8.bytes text)

namespace IsDigestText
variable {text u v : List Char} {c : Char}

/-- The bytes of a character, by what comes before it. -/
theorem fits_charBytes (ht : IsDigestText (u ++ c :: v)) :
    (Utf8.bytes u).length < 48 ∧
      Fits ((cycle 16 byteGroup).drop (Utf8.bytes u).length) (Utf8.charBytes c) := by
  have hbytes := ht.fits
  rw [Utf8.bytes_append, Utf8.bytes_cons] at hbytes
  have hfits := hbytes.drop.left
  refine ⟨?_, hfits⟩
  by_contra hlength
  have hlen : (cycle 16 byteGroup).length ≤ (Utf8.bytes u).length := by
    rw [length_cycle]
    exact Nat.le_of_not_lt hlength
  rw [List.drop_eq_nil_of_le hlen] at hfits
  obtain ⟨b, rest, hbytes⟩ := List.exists_cons_of_ne_nil (Utf8.charBytes_ne_nil c)
  rw [hbytes] at hfits
  exact hfits

theorem of_skipped (ht : IsDigestText (u ++ c :: v)) (hc : c.toNat ∈ skippedCodes) :
    c.toNat < 128 ∧ (c.toNat ∈ spaceCodes → (Utf8.bytes u).length % 3 = 2) := by
  obtain ⟨hlength, hfits⟩ := ht.fits_charBytes
  refine skipped_fits _ hlength _ hc ?_
  rw [Char.ofNat_toNat]
  exact hfits

end IsDigestText

/-! ## Formulas -/

/-- The code points of `[=+\-@|]`. -/
def formulaCodes : List Nat := [0x3d, 0x2b, 0x2d, 0x40, 0x7c]

/-- Bytes of ASCII that are skipped, and then one that starts a formula. -/
def formulaBytes : List Nat → Bool
  | [] => false
  | b :: bs => formulaCodes.contains b ||
    ((skippedCodes.contains b && decide (b < 128)) && formulaBytes bs)

/-- Any number of groups `f38a` to `f38f`, and then `f389` or `f398`.  A group `f38a` to `f38f`
stands for two delete characters and another control character, and the third byte of the others
is `=` or `|`. -/
def spellsFormula : List Char → Bool
  | w :: x :: y :: z :: rest => (w == 'f' && x == '3') &&
    ((y == '8' && (z == '9' || ("abcdef".toList.contains z && spellsFormula rest))) ||
      (y == '9' && z == '8'))
  | _ => false

theorem formulaBytes_iff {bs : List Nat} : formulaBytes bs = true ↔
    ∃ u c v, bs = u ++ c :: v ∧ (∀ b ∈ u, b ∈ skippedCodes ∧ b < 128) ∧ c ∈ formulaCodes := by
  induction bs with
  | nil => simp [formulaBytes]
  | cons b bs ih =>
    rw [formulaBytes, Bool.or_eq_true, Bool.and_eq_true, Bool.and_eq_true, decide_eq_true_eq,
      List.contains_iff_mem, List.contains_iff_mem, ih]
    constructor
    · rintro (hb | ⟨hb, u, c, v, rfl, hu, hc⟩)
      · exact ⟨[], b, bs, rfl, by simp, hb⟩
      · exact ⟨b :: u, c, v, rfl, List.forall_mem_cons.mpr ⟨hb, hu⟩, hc⟩
    · rintro ⟨u, c, v, hsplit, hu, hc⟩
      cases u with
      | nil =>
        obtain ⟨rfl, -⟩ := List.cons.inj hsplit
        exact .inl hc
      | cons b' u =>
        obtain ⟨rfl, rfl⟩ := List.cons.inj hsplit
        obtain ⟨hb, hu⟩ := List.forall_mem_cons.mp hu
        exact .inr ⟨hb, u, c, v, rfl, hu, hc⟩

/-- Which digits stand for a formula. -/
theorem IsDigest.formulaBytes_decode {h : List Char} (hd : IsDigest h) {bs : List Nat}
    (hbs : Base64.decode h = some bs) : formulaBytes bs = spellsFormula h := by
  have hfirst : ∀ p ∈ hexDigits.product hexDigits, ∀ a ∈ Base64.sextet? p.1,
      ∀ b ∈ Base64.sextet? p.2, (formulaCodes.contains (a * 4 + b / 16) = false) ∧
        ((skippedCodes.contains (a * 4 + b / 16) && decide (a * 4 + b / 16 < 128)) =
          (p.1 == 'f' && isDigit p.2)) :=
    List.all_iff_forall_prop.mp (by decide +kernel)
  have hsecond : ∀ p ∈ hexDigits.product hexDigits, ∀ b ∈ Base64.sextet? p.1,
      ∀ c ∈ Base64.sextet? p.2, (formulaCodes.contains (b % 16 * 16 + c / 4) = false) ∧
        ((skippedCodes.contains (b % 16 * 16 + c / 4) && decide (b % 16 * 16 + c / 4 < 128)) =
          (p.1 == '3' && (p.2 == '8' || p.2 == '9'))) :=
    List.all_iff_forall_prop.mp (by decide +kernel)
  have hthird : ∀ p ∈ ['8', '9'].product hexDigits, ∀ c ∈ Base64.sextet? p.1,
      ∀ d ∈ Base64.sextet? p.2, (formulaCodes.contains (c % 4 * 64 + d) =
          ((p.1 == '8' && p.2 == '9') || (p.1 == '9' && p.2 == '8'))) ∧
        ((skippedCodes.contains (c % 4 * 64 + d) && decide (c % 4 * 64 + d < 128)) =
          (p.1 == '8' && "abcdef".toList.contains p.2)) :=
    List.all_iff_forall_prop.mp (by decide +kernel)
  refine Base64.decode_induction hd.isSome_sextet?
    (p := fun _ h bs => formulaBytes bs = spellsFormula h) rfl ?_ (n := 16) hd.length hbs
  intro _ w x y z rest a b c d bs hw hx hy hz ha hb hc hd' ih
  obtain ⟨hfirst, hfirst'⟩ := hfirst (w, x)
    (List.pair_mem_product.mpr ⟨hd.digits w hw, hd.digits x hx⟩) a ha b hb
  obtain ⟨hsecond, hsecond'⟩ := hsecond (x, y)
    (List.pair_mem_product.mpr ⟨hd.digits x hx, hd.digits y hy⟩) b hb c hc
  rw [formulaBytes, formulaBytes, formulaBytes, hfirst, hfirst', hsecond, hsecond', ih,
    spellsFormula]
  have hthree : isDigit '3' = true := by decide
  by_cases hx3 : x = '3'
  · subst hx3
    by_cases hy89 : y ∈ ['8', '9']
    · obtain ⟨hthird, hthird'⟩ := hthird (y, z)
        (List.pair_mem_product.mpr ⟨hy89, hd.digits z hz⟩) c hc d hd'
      rw [hthird, hthird', hthree]
      simp only [List.mem_cons, List.not_mem_nil, or_false] at hy89
      rcases hy89 with rfl | rfl <;> simp
    · -- the second byte neither starts a formula nor is skipped
      simp only [List.mem_cons, List.not_mem_nil, or_false, not_or] at hy89
      rw [beq_false_of_ne hy89.1, beq_false_of_ne hy89.2]
      simp only [Bool.or_false, Bool.and_false, Bool.false_and]
  · rw [beq_false_of_ne hx3]
    simp only [Bool.or_false, Bool.and_false, Bool.false_and]

/-! ## The second decoded text -/

/-- The groups of digits whose bytes are ASCII. -/
def asciiDigitGroup : List (List Char) :=
  ["abcdef".toList, "0123".toList, "cd014589".toList, hexDigits]

/-- Their bytes. -/
def asciiByteGroup : List (List Nat) :=
  [[0x6b, 0x6f, 0x73, 0x77, 0x7b, 0x7f],
    (List.range' 4 4).flatMap fun n => [7, 13, 14, 15].map (16 * n + ·),
    (List.range 2).flatMap fun n => (List.range' 26 6 ++ List.range' 52 10).map (64 * n + ·)]

/-- The characters among them that base64 uses. -/
def base64Group : List (List Char) :=
  asciiByteGroup.map fun k => (k.map Char.ofNat).filter isBase64Char

/-- The bytes of four of these groups. -/
def twiceGroup : List (List Nat) :=
  [(List.range' 9 4).flatMap fun n => (List.range 4).map (16 * n + ·),
    [0, 6, 7, 8, 12, 13, 14, 15].flatMap fun n => [6, 11, 12, 14, 15].map (16 * n + ·),
    (List.range 4).flatMap fun n => [36, 40, 44, 48].map (64 * n + ·),
    [6, 12, 13, 14, 22, 32, 38, 39, 40, 48, 63].flatMap fun n => [1, 2, 3].map (4 * n + ·),
    (List.range 4 ++ List.range' 8 8).flatMap fun n => [9, 10, 11, 12].map (16 * n + ·),
    [6, 12, 13, 14, 22, 32, 38, 39, 40, 48, 63],
    (25 :: List.range' 45 7 ++ List.range' 56 6 ++ [63]).flatMap fun n => [2, 3].map (4 * n + ·),
    [0, 4, 8, 12].flatMap fun n => [1, 3, 5, 8, 9, 10, 12, 15].map (16 * n + ·),
    (List.range 4).flatMap fun n =>
      (25 :: List.range' 45 7 ++ List.range' 56 6 ++ [63]).map (64 * n + ·)]

theorem decodesInto_asciiByteGroup :
    Base64.decodesInto asciiDigitGroup asciiByteGroup = true := by decide +kernel

theorem decodesInto_twiceGroup :
    Base64.decodesInto (cycle 4 base64Group) twiceGroup = true := by decide +kernel

/-- A digest with ASCII bytes consists of these groups. -/
theorem IsDigest.fits_asciiDigitGroup {h : List Char} (hd : IsDigest h) {bs : List Nat}
    (hbs : Base64.decode h = some bs) (hascii : ∀ b ∈ bs, b < 128) :
    Fits (cycle 16 asciiDigitGroup) h := by
  have hw : ∀ w ∈ hexDigits, ∀ a ∈ Base64.sextet? w, a < 32 → w ∈ "abcdef".toList :=
    List.all_iff_forall_prop.mp (by decide)
  have hx : ∀ x ∈ hexDigits, ∀ b ∈ Base64.sextet? x, b % 16 < 8 → x ∈ "0123".toList :=
    List.all_iff_forall_prop.mp (by decide)
  have hy : ∀ y ∈ hexDigits, ∀ c ∈ Base64.sextet? y, c % 4 < 2 → y ∈ "cd014589".toList :=
    List.all_iff_forall_prop.mp (by decide)
  refine Base64.decode_induction hd.isSome_sextet?
    (p := fun n h bs => (∀ b ∈ bs, b < 128) → Fits (cycle n asciiDigitGroup) h)
    (fun _ => (fits_nil _).mpr trivial) ?_ (n := 16) hd.length hbs hascii
  intro n w x y z rest a b c d bs hw' hx' hy' hz' ha hb hc _ ih hascii
  simp only [List.forall_mem_cons] at hascii
  obtain ⟨hfirst, hsecond, hthird, hascii⟩ := hascii
  exact ⟨hw w (hd.digits w hw') a ha (by omega), hx x (hd.digits x hx') b hb (by omega),
    hy y (hd.digits y hy') c hc (by omega), hd.digits z hz', ih hascii⟩

/-- A text of a digest that is base64, up to spaces around it, has a space at most at its end. -/
theorem IsDigestText.ascii_of_base64 {text : List Char} (ht : IsDigestText text)
    (hbase64 : (strip text).all isBase64Char = true) :
    (∃ after, text = strip text ++ after ∧ after.length ≤ 1) ∧ ∀ c ∈ text, c.toNat < 128 := by
  obtain ⟨before, after, hsplit, hbefore, hafter⟩ := strip_split text
  have hcandidate : ∀ c ∈ strip text, c.toNat < 128 :=
    fun c hc => isBase64Char_ascii (List.all_eq_true.mp hbase64 c hc)
  have hspace : ∀ {u v : List Char} {c : Char}, text = u ++ c :: v → isSpace c = true →
      c.toNat < 128 ∧ (Utf8.bytes u).length % 3 = 2 := by
    intro u v c huv hc
    obtain ⟨hascii, hplace⟩ := (huv ▸ ht).of_skipped
      (List.mem_append_left _ (mem_spaceCodes hc))
    exact ⟨hascii, hplace (mem_spaceCodes hc)⟩
  -- a group does not begin with a space
  obtain rfl : before = [] := by
    cases before with
    | nil => rfl
    | cons c before =>
      have hplace := (hspace (u := []) hsplit (hbefore c List.mem_cons_self)).2
      cases hplace
  rw [List.nil_append] at hsplit
  cases after with
  | nil =>
    rw [List.append_nil] at hsplit
    refine ⟨⟨[], by rw [List.append_nil]; exact hsplit, Nat.zero_le _⟩, ?_⟩
    rw [hsplit]
    exact hcandidate
  | cons c after =>
    obtain ⟨hc, hplace⟩ := hspace hsplit (hafter c List.mem_cons_self)
    -- nor does the next one
    obtain rfl : after = [] := by
      cases after with
      | nil => rfl
      | cons d after =>
        have hnext := (hspace (u := strip text ++ [c]) (c := d) (v := after)
          (by rw [List.append_assoc]; exact hsplit) (hafter d (by simp))).2
        rw [Utf8.bytes_append, Utf8.bytes_cons, Utf8.charBytes_of_ascii hc, List.length_append]
          at hnext
        simp only [Utf8.bytes_nil, List.append_nil, List.length_singleton] at hnext
        omega
    refine ⟨⟨[c], hsplit, Nat.le_refl _⟩, ?_⟩
    rw [hsplit, List.forall_mem_append, List.forall_mem_singleton]
    exact ⟨hcandidate, hc⟩

/-- A text whose bytes a digest is decoded to after two rounds. -/
structure IsTwiceDecoded (text : List Char) : Prop where
  fits : Fits (cycle 4 twiceGroup) (Utf8.bytes text)

/-- The second decoded text. -/
theorem IsDigest.isTwiceDecoded {h text text' : List Char} (hd : IsDigest h)
    (htext : decodeBase64 h = some text) (htext' : decodeBase64 text = some text') :
    IsTwiceDecoded text' := by
  obtain ⟨bs, hbs, hlength, hlt, hfits⟩ := hd.exists_bytes
  obtain rfl := (hd.decodeBase64_eq_some_iff hbs hlt).mp htext
  obtain ⟨hbase64, bs', hbs', hbytes⟩ := decodeBase64_eq_some htext'
  obtain ⟨⟨after, hsplit, hshort⟩, hascii⟩ := IsDigestText.ascii_of_base64 ⟨hfits⟩ hbase64
  rw [Utf8.bytes_of_ascii hascii] at hbs hlength
  rw [List.length_map] at hlength
  have hdigits := hd.fits_asciiDigitGroup hbs (by simpa using hascii)
  have htextFits := Base64.decode_fits
    (Base64.decodesInto_cycle decodesInto_asciiByteGroup 16) hdigits hbs
  -- the characters of the candidate, with the padding
  have hcandidate : Fits (cycle 16 base64Group) (strip text) := by
    rw [hsplit, List.map_append] at htextFits
    have hchars := htextFits.left.map Char.ofNat
    have hback : ((strip text).map Char.toNat).map Char.ofNat = strip text := by
      rw [List.map_map]
      exact (List.map_congr_left fun c _ => Char.ofNat_toNat c).trans (List.map_id _)
    rw [hback] at hchars
    have hfiltered := hchars.filter fun c hc => List.all_eq_true.mp hbase64 c hc
    rw [map_cycle, map_cycle, List.map_map] at hfiltered
    exact hfiltered
  have hpadded : Fits (cycle 16 base64Group) (Base64.pad (strip text)) := by
    have hlengths := congrArg List.length hsplit
    rw [List.length_append, hlength] at hlengths
    rw [Base64.pad, fits_append]
    refine ⟨hcandidate, ?_⟩
    obtain hfull | hspace : (strip text).length = 48 ∨ (strip text).length = 47 := by omega
    · rw [hfull]
      exact (fits_nil _).mpr trivial
    · rw [hspace]
      decide +kernel
  have hcycle : cycle 16 base64Group = cycle 4 (cycle 4 base64Group) := rfl
  have htwice := Base64.decodeStrict_fits
    (Base64.decodesInto_cycle decodesInto_twiceGroup 4) (hcycle ▸ hpadded) hbs'
  have hsmall : ∀ k ∈ cycle 4 twiceGroup, ∀ b ∈ k, b < 256 := by decide +kernel
  rw [hbytes (htwice.forall hsmall)] at htwice
  exact ⟨htwice⟩

/-! ## Characters up to case -/

/-- Letters that no character outside ASCII is compared as. -/
def isOwnCase (c : Char) : Bool := c.toNat < 128 && !List.contains ['i', 's', 'k'] c

theorem ascii_of_foldCase {c : Char} (h : isOwnCase (foldCase c) = true) : c.toNat < 128 := by
  by_contra hc
  have hlower : c.toLower = c := toLower_of_not_ascii hc
  unfold foldCase at h
  split_ifs at h
  · cases h
  · cases h
  · cases h
  · rw [hlower, isOwnCase, Bool.and_eq_true, decide_eq_true_eq] at h
    exact hc h.1

section Places
variable {ks : List (List Nat)} {text u v : List Char} {c d : Char}

/-- A character that only ASCII is compared as is a byte of its own. -/
theorem mem_getD_of_foldCase (h : Fits ks (Utf8.bytes (u ++ c :: v)))
    (hc : isOwnCase (foldCase c) = true) :
    (Utf8.bytes u).length < ks.length ∧ c.toNat ∈ ks.getD (Utf8.bytes u).length [] := by
  rw [Utf8.bytes_append, Utf8.bytes_cons, Utf8.charBytes_of_ascii (ascii_of_foldCase hc)] at h
  exact h.mem_getD

/-- A text has none of the letters that the template for its bytes does not allow. -/
theorem foldCase_not_mem {letters : List Char} (hletters : letters.all isOwnCase = true)
    (hks : ∀ k ∈ ks, ∀ b ∈ k, foldCase (Char.ofNat b) ∉ letters)
    (h : Fits ks (Utf8.bytes text)) : ∀ c ∈ text, foldCase c ∉ letters := by
  intro c hc hmem
  obtain ⟨u, v, rfl⟩ := List.append_of_mem hc
  obtain ⟨hlength, hbyte⟩ := mem_getD_of_foldCase h (List.all_eq_true.mp hletters _ hmem)
  rw [List.getD_eq_getElem _ _ hlength] at hbyte
  have hfold := hks _ (List.getElem_mem hlength) _ hbyte
  rw [Char.ofNat_toNat] at hfold
  exact hfold hmem

end Places

/-- The letters that the text of a digest lacks, and what percent escapes and references start
with. -/
def lackingOnce : List Char := "abcdehlpr.%&".toList

theorem IsDigestText.foldCase_not_mem {text : List Char} (ht : IsDigestText text) :
    ∀ c ∈ text, foldCase c ∉ lackingOnce := by
  have hgroup : ∀ k ∈ byteGroup, ∀ b ∈ k, foldCase (Char.ofNat b) ∉ lackingOnce := by
    decide +kernel
  exact QueryCraft.foldCase_not_mem (by decide) (fun k hk => hgroup k (mem_cycle hk)) ht.fits

/-- The letters that the second text lacks. -/
def lackingTwice : List Char := "btw".toList

/-- Characters of the last place of a group, before which only `f` or `g` can stand. -/
def lastLetters : List Char := "mqr.".toList

/-- Letters after `f` or `g`. -/
def innerLetters : List Char := "acej".toList

/-- What the template for the second text says about these letters and their neighbours: a letter
of the last place is followed by the first byte of a character of Latin-1, and an inner letter has
`f` or `g` or the end of a character that is not ASCII before it. -/
theorem twiceGroup_letters :
    (∀ k ∈ twiceGroup, ∀ b ∈ k, foldCase (Char.ofNat b) ∉ lackingTwice) ∧
    (∀ i < 36, ∀ b ∈ (cycle 4 twiceGroup).getD i [], foldCase (Char.ofNat b) ∈ lastLetters →
      ∀ b' ∈ (cycle 4 twiceGroup).getD (i + 1) [], 0x80 ≤ b' ∧ b' ≤ 0xc3) ∧
    (∀ i < 36, ∀ b ∈ (cycle 4 twiceGroup).getD i [], foldCase (Char.ofNat b) ∈ innerLetters →
      ∀ b' ∈ (cycle 4 twiceGroup).getD (i - 1) [],
        b' < 0x80 → foldCase (Char.ofNat b') ∈ ['f', 'g']) ∧
    ∀ i < 36, ∀ b ∈ (cycle 4 twiceGroup).getD i [], foldCase (Char.ofNat b) ∈ innerLetters →
      ∀ b' ∈ (cycle 4 twiceGroup).getD (i - 2) [], b' < 0x80 := by
  refine ⟨?_, ?_, ?_, ?_⟩ <;> decide +kernel

namespace IsTwiceDecoded
variable {text : List Char} {c d : Char}

theorem foldCase_not_mem (ht : IsTwiceDecoded text) : ∀ c ∈ text, foldCase c ∉ lackingTwice :=
  QueryCraft.foldCase_not_mem (by decide) (fun k hk => twiceGroup_letters.1 k (mem_cycle hk))
    ht.fits

/-- After a character of the last place comes one of Latin-1, and not of ASCII. -/
theorem latin_of_lastLetters (ht : IsTwiceDecoded text) (hcd : [c, d] <:+: text)
    (hc : foldCase c ∈ lastLetters) : 0x80 ≤ d.toNat ∧ d.toNat < 0x100 := by
  obtain ⟨u, v, rfl⟩ := hcd
  have hown : isOwnCase (foldCase c) = true := by
    have hall : ∀ c ∈ lastLetters, isOwnCase c = true := List.all_eq_true.mp (by decide)
    exact hall _ hc
  have hfits := ht.fits
  rw [List.append_assoc] at hfits
  obtain ⟨hlength, hbyte⟩ := mem_getD_of_foldCase (v := d :: v) hfits hown
  have hascii := Utf8.charBytes_of_ascii (ascii_of_foldCase hown)
  obtain ⟨b, rest, hb⟩ := List.exists_cons_of_ne_nil (Utf8.charBytes_ne_nil d)
  have hnext : b ∈ (cycle 4 twiceGroup).getD ((Utf8.bytes u).length + 1) [] := by
    have hsplit : Fits (cycle 4 twiceGroup)
        ((Utf8.bytes u ++ [c.toNat]) ++ b :: (rest ++ Utf8.bytes v)) := by
      simpa [hascii, hb] using hfits
    simpa using hsplit.mem_getD.2
  rw [length_cycle] at hlength
  rw [← Char.ofNat_toNat c] at hc
  have hrange := twiceGroup_letters.2.1 _ hlength _ hbyte hc b hnext
  by_cases hd : d.toNat < 0x80
  · rw [Utf8.charBytes_of_ascii hd] at hb
    obtain ⟨rfl, -⟩ := List.cons.inj hb
    omega
  · obtain ⟨b', rest', hb', -, hlatin⟩ := Utf8.charBytes_of_not_ascii hd
    rw [hb'] at hb
    obtain ⟨rfl, -⟩ := List.cons.inj hb
    exact ⟨Nat.le_of_not_lt hd, hlatin hrange.2⟩

/-- Before an inner letter stands `f` or `g`. -/
theorem of_innerLetters (ht : IsTwiceDecoded text) (hcd : [c, d] <:+: text)
    (hd : foldCase d ∈ innerLetters) : foldCase c ∈ ['f', 'g'] := by
  obtain ⟨u, v, rfl⟩ := hcd
  have hown : isOwnCase (foldCase d) = true := by
    have hall : ∀ c ∈ innerLetters, isOwnCase c = true := List.all_eq_true.mp (by decide)
    exact hall _ hd
  have hsplit : u ++ [c, d] ++ v = (u ++ [c]) ++ d :: v := by simp
  have hfits := ht.fits
  rw [hsplit] at hfits
  obtain ⟨hlength, hbyte⟩ := mem_getD_of_foldCase hfits hown
  rw [length_cycle] at hlength
  rw [← Char.ofNat_toNat d] at hd
  have hbefore := twiceGroup_letters.2.2.1 _ hlength _ hbyte hd
  have hascii := twiceGroup_letters.2.2.2 _ hlength _ hbyte hd
  by_cases hc : c.toNat < 0x80
  · have hbytes : Fits (cycle 4 twiceGroup)
        (Utf8.bytes u ++ c.toNat :: (Utf8.charBytes d ++ Utf8.bytes v)) := by
      simpa [Utf8.charBytes_of_ascii hc] using hfits
    have hfold := hbefore c.toNat
    simp only [Utf8.bytes_append, Utf8.bytes_cons, Utf8.charBytes_of_ascii hc, Utf8.bytes_nil,
      List.append_nil, List.length_append, List.length_singleton, Nat.add_sub_cancel,
      Char.ofNat_toNat] at hfold
    exact hfold hbytes.mem_getD.2 hc
  · -- the last byte but one would have to be ASCII
    obtain ⟨front, x, y, hends, hx, -⟩ := Utf8.charBytes_ends hc
    have hbytes : Fits (cycle 4 twiceGroup)
        ((Utf8.bytes u ++ front) ++ x :: y :: (Utf8.charBytes d ++ Utf8.bytes v)) := by
      simpa [hends] using hfits
    have hsmall := hascii x
    have hplace : (Utf8.bytes (u ++ [c])).length - 2 = (Utf8.bytes u ++ front).length := by
      simp only [Utf8.bytes_append, Utf8.bytes_cons, hends, Utf8.bytes_nil, List.append_nil,
        List.length_append, List.length_cons, List.length_nil]
      omega
    rw [hplace] at hsmall
    have := hsmall hbytes.mem_getD.2
    omega

end IsTwiceDecoded

end QueryCraft
