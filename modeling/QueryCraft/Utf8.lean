import Mathlib.Data.List.Basic

/-! # UTF-8

The bytes of a text, as numbers.  Bytes that Lean's own `String.fromUTF8?` decodes are those of the
text it returns (`fromUTF8?_eq_some_iff`).

An ASCII character is one byte, and the others consist of at least two bytes from `0x80` on; the
first one tells how large the character is.
-/
namespace QueryCraft.Utf8

/-- The bytes of a character. -/
def charBytes (c : Char) : List Nat :=
  let n := c.toNat
  if n ≤ 0x7f then [n]
  else if n ≤ 0x7ff then [n / 64 + 0xc0, n % 64 + 0x80]
  else if n ≤ 0xffff then [n / 4096 + 0xe0, n / 64 % 64 + 0x80, n % 64 + 0x80]
  else [n / 262144 + 0xf0, n / 4096 % 64 + 0x80, n / 64 % 64 + 0x80, n % 64 + 0x80]

/-- The bytes of a text. -/
def bytes (cs : List Char) : List Nat := cs.flatMap charBytes

@[simp] theorem bytes_nil : bytes [] = [] := rfl

@[simp] theorem bytes_cons (c : Char) (cs : List Char) :
    bytes (c :: cs) = charBytes c ++ bytes cs := rfl

@[simp] theorem bytes_append (cs ds : List Char) : bytes (cs ++ ds) = bytes cs ++ bytes ds :=
  List.flatMap_append

/-! ## The decoder -/

theorem charBytes_eq_encode (c : Char) :
    charBytes c = (String.utf8EncodeChar c).map UInt8.toNat := by
  have hmax : c.toNat < 0x110000 := by
    have := c.valid
    simp only [UInt32.isValidChar, Nat.isValidChar] at this
    show c.val.toNat < 0x110000
    omega
  have hval : c.val.toNat = c.toNat := rfl
  unfold charBytes String.utf8EncodeChar
  simp only [hval]
  split_ifs <;> simp only [List.map_cons, List.map_nil, UInt8.toNat_ofNat', List.cons.injEq,
    and_true] <;> omega

/-- The bytes of a text decode to the text, and nothing else does. -/
theorem fromUTF8?_eq_some_iff {bs : List Nat} (hbs : ∀ b ∈ bs, b < 256) (s : String) :
    String.fromUTF8? (bs.map UInt8.ofNat).toByteArray = some s ↔ bs = bytes s.toList := by
  have hbytes : (bs.map UInt8.ofNat).map UInt8.toNat = bs := by
    rw [List.map_map]
    refine (List.map_congr_left fun b hb => ?_).trans (List.map_id bs)
    exact UInt8.toNat_ofNat_of_lt' (hbs b hb)
  have hencode : bytes s.toList = (s.toList.flatMap String.utf8EncodeChar).map UInt8.toNat := by
    rw [bytes, List.map_flatMap]
    exact List.flatMap_congr fun c _ => charBytes_eq_encode c
  have hinj : Function.Injective (List.map UInt8.toNat) :=
    List.map_injective_iff.mpr fun _ _ h => UInt8.toNat_inj.mp h
  have hvalid : s.toByteArray = (s.toList.flatMap String.utf8EncodeChar).toByteArray :=
    String.utf8Encode_toList.symm
  have hsame : bs = bytes s.toList ↔ (bs.map UInt8.ofNat).toByteArray = s.toByteArray := by
    rw [hvalid, List.toByteArray_inj, hencode, ← hinj.eq_iff, hbytes]
  rw [hsame, String.fromUTF8?]
  constructor
  · intro h
    split at h
    · obtain rfl := Option.some.inj h
      rfl
    · cases h
  · intro h
    rw [dif_pos (h ▸ s.isValidUTF8)]
    exact congrArg some (String.toByteArray_inj.mp h)

/-- Bytes are valid exactly when they are those of a text. -/
theorem isValidUTF8_iff {bs : List Nat} (hbs : ∀ b ∈ bs, b < 256) :
    (bs.map UInt8.ofNat).toByteArray.IsValidUTF8 ↔ ∃ cs, bs = bytes cs := by
  constructor
  · intro h
    exact ⟨_, (fromUTF8?_eq_some_iff hbs _).mp (dif_pos h)⟩
  · rintro ⟨cs, hcs⟩
    have hsome := (fromUTF8?_eq_some_iff hbs (String.ofList cs)).mpr
      (by rw [String.toList_ofList]; exact hcs)
    by_contra hinvalid
    rw [String.fromUTF8?, dif_neg hinvalid] at hsome
    cases hsome

/-! ## Characters by their bytes -/

theorem charBytes_of_ascii {c : Char} (h : c.toNat < 0x80) : charBytes c = [c.toNat] :=
  if_pos (Nat.le_of_lt_succ h)

theorem bytes_of_ascii {cs : List Char} (h : ∀ c ∈ cs, c.toNat < 0x80) :
    bytes cs = cs.map Char.toNat := by
  induction cs with
  | nil => rfl
  | cons c cs ih =>
    obtain ⟨hc, hcs⟩ := List.forall_mem_cons.mp h
    rw [bytes_cons, charBytes_of_ascii hc, ih hcs]
    rfl

/-- The first byte of a character outside ASCII. -/
theorem charBytes_of_not_ascii {c : Char} (h : ¬ c.toNat < 0x80) :
    ∃ b rest, charBytes c = b :: rest ∧ 0xc2 ≤ b ∧ (b ≤ 0xc3 → c.toNat < 0x100) := by
  unfold charBytes
  dsimp only
  split_ifs with h1 h2 h3
  · omega
  · exact ⟨_, _, rfl, by omega, by omega⟩
  · exact ⟨_, _, rfl, by omega, by omega⟩
  · exact ⟨_, _, rfl, by omega, by omega⟩

theorem charBytes_ne_nil (c : Char) : charBytes c ≠ [] := by
  unfold charBytes
  dsimp only
  split_ifs <;> exact List.cons_ne_nil _ _

theorem length_le_bytes (cs : List Char) : cs.length ≤ (bytes cs).length := by
  induction cs with
  | nil => exact Nat.le_refl 0
  | cons c cs ih =>
    have hc := List.length_pos_iff.mpr (charBytes_ne_nil c)
    rw [bytes_cons, List.length_append, List.length_cons]
    omega

/-- It ends with two bytes that are not ASCII characters. -/
theorem charBytes_ends {c : Char} (h : ¬ c.toNat < 0x80) :
    ∃ front x y, charBytes c = front ++ [x, y] ∧ 0x80 ≤ x ∧ 0x80 ≤ y := by
  unfold charBytes
  dsimp only
  split_ifs with h1 h2 h3
  · omega
  · exact ⟨[], _, _, rfl, by omega, by omega⟩
  · exact ⟨[_], _, _, rfl, by omega, by omega⟩
  · exact ⟨[_, _], _, _, rfl, by omega, by omega⟩

/-- A byte of ASCII at the start is the first character. -/
theorem exists_cons_of_bytes {cs : List Char} {a : Nat} {rest : List Nat}
    (h : bytes cs = a :: rest) (ha : a < 0x80) :
    ∃ cs', cs = Char.ofNat a :: cs' ∧ bytes cs' = rest := by
  cases cs with
  | nil => cases h
  | cons c cs =>
    rw [bytes_cons] at h
    by_cases hc : c.toNat < 0x80
    · rw [charBytes_of_ascii hc] at h
      obtain ⟨rfl, hrest⟩ := List.cons.inj h
      exact ⟨cs, by rw [Char.ofNat_toNat], hrest⟩
    · obtain ⟨b, front, hb, hlead, -⟩ := charBytes_of_not_ascii hc
      rw [hb] at h
      obtain ⟨rfl, -⟩ := List.cons.inj h
      omega

/-- Bytes of ASCII are characters. -/
theorem eq_map_of_bytes {cs : List Char} {u v : List Nat} (h : bytes cs = u ++ v)
    (hu : ∀ b ∈ u, b < 0x80) : ∃ cs', cs = u.map Char.ofNat ++ cs' ∧ bytes cs' = v := by
  induction u generalizing cs with
  | nil => exact ⟨cs, rfl, h⟩
  | cons a u ih =>
    obtain ⟨ha, hu⟩ := List.forall_mem_cons.mp hu
    obtain ⟨cs', rfl, hcs'⟩ := exists_cons_of_bytes h ha
    obtain ⟨ds, rfl, hds⟩ := ih hcs' hu
    exact ⟨ds, rfl, hds⟩

end QueryCraft.Utf8
