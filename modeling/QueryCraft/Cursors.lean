import QueryCraft.Base64
import QueryCraft.JsonText
import QueryCraft.SessionRecord
import QueryCraft.Timestamps

/-! # Cursors

`encode_cursor` writes the position of a row, its timestamp and its id, as a JSON object in
base64, together with the name of the collection.  `decode_datetime_cursor` reads it back
for the same collection (`decodeDatetimeCursor_encodeCursor`).  A sort value other than a
timestamp is read back if its JSON text is short enough (`cursor_round_trip_iff`).

Timestamps come from the database as UTC datetimes.  How `datetime.fromisoformat` reads a
text is left open; it reads what `isoformat` writes.
-/
namespace QueryCraft

open JsonText

/-! ## Timestamps and ids as text -/

/-- What `datetime.fromisoformat` returns: a datetime without a time zone, or an instant. -/
inductive ParsedDateTime where
  | naive
  | aware (t : DateTime)

/-- `str.replace(needle, "")`. -/
def removeText (needle : List Char) : List Char → List Char
  | [] => []
  | c :: cs =>
    if needle ≠ [] ∧ needle.isPrefixOf (c :: cs) then
      removeText needle (cs.drop (needle.length - 1))
    else c :: removeText needle cs
termination_by cs => cs.length
decreasing_by
  · simp only [List.length_drop, List.length_cons]
    omega
  · simp

/-- `str.strip("{}")`. -/
def stripBraces (cs : List Char) : List Char :=
  (cs.dropWhile fun c => c = '{' || c = '}').rdropWhile fun c => c = '{' || c = '}'

/-- 32 digits in the groups of a UUID. -/
def groupDigits (ds : List Char) : List Char :=
  ds.take 8 ++ '-' :: (ds.drop 8).take 4 ++ '-' :: (ds.drop 12).take 4 ++
    '-' :: (ds.drop 16).take 4 ++ '-' :: ds.drop 20

/-- `uuid.UUID(text)`. -/
def readUuid (cs : List Char) : Option Uuid :=
  let digits := (stripBraces (removeText "uuid:".toList (removeText "urn:".toList cs))).filter
    (· ≠ '-')
  if digits.length ≠ 32 then none
  else
    let text := String.ofList (groupDigits (digits.map Char.toLower))
    if canonical : isCanonicalUuid text = true then some ⟨text, canonical⟩ else none

/-! ## The cursor -/

/-- `CursorPosition`. -/
structure CursorPosition where
  sortValue : List Char
  itemId : Uuid

/-- `_MAX_CURSOR_LENGTH`. -/
def maxCursorLength : Nat := 512

/-- `json.dumps` of the version, the collection, the sort value and the id. -/
def cursorPayload (collection sortValue : List Char) (itemId : Uuid) : List Char :=
  ['{', '"', 'v', '"', ':', '1', ',', '"', 'n', '"', ':'] ++ dumpsString collection ++
    [',', '"', 's', '"', ':'] ++ dumpsString sortValue ++
    [',', '"', 'i', '"', ':'] ++ dumpsString itemId.text.toList ++ ['}']

/-- The bytes of a text. -/
def utf8Bytes (cs : List Char) : List Nat :=
  (cs.flatMap String.utf8EncodeChar).map UInt8.toNat

/-- `encode_cursor`. -/
def encodeCursor (collection sortValue : List Char) (itemId : Uuid) : List Char :=
  Base64.stripPadding (Base64.encode (utf8Bytes (cursorPayload collection sortValue itemId)))

/-- The value equals `_CURSOR_VERSION`, as Python compares. -/
def isCursorVersion : Json → Bool
  | .int n => n = 1
  | .bool b => b
  | .float mantissa scale => mantissa = 10 ^ scale
  | _ => false

/-- The position in a payload. -/
def payloadPosition (collection : List Char) : Json → Option CursorPosition
  | .obj fields =>
    if ¬ (["v", "n", "s", "i"].all fun k => (fields.map (·.1)).contains k) ∨
        ¬ ((fields.map (·.1)).all fun k => ["v", "n", "s", "i"].contains k) then none
    else
      match fields.lookup "v", fields.lookup "n", fields.lookup "s", fields.lookup "i" with
      | some v, some (.str n), some (.str s), some (.str i) =>
        if isCursorVersion v ∧ n.toList = collection then
          (readUuid i.toList).map fun itemId => ⟨s.toList, itemId⟩
        else none
      | _, _, _, _ => none
  | _ => none

/-- `decode_cursor`; `none` stands for `InvalidCursorError`. -/
def decodeCursor (cursor collection : List Char) : Option CursorPosition :=
  if cursor = [] ∨ maxCursorLength < cursor.length then none
  else do
    let raw ← Base64.decode (Base64.pad cursor)
    let text ← String.fromUTF8? (raw.map UInt8.ofNat).toByteArray
    let payload ← loads text.toList
    payloadPosition collection payload

/-- `decode_datetime_cursor`. -/
def decodeDatetimeCursor (fromisoformat : List Char → Option ParsedDateTime)
    (cursor collection : List Char) : Option (DateTime × Uuid) := do
  let position ← decodeCursor cursor collection
  match fromisoformat position.sortValue with
  | some (.aware t) => some (t, position.itemId)
  | _ => none

/-! ## Plain texts -/

theorem isPlain_digit : ∀ d < 10, isPlain (Char.ofNat ('0'.toNat + d)) = true := by decide

theorem isPlain_padded (width n : Nat) : ∀ c ∈ padded width n, isPlain c = true := by
  induction width generalizing n with
  | zero => simp [padded]
  | succ width ih =>
    intro c hc
    rcases List.mem_append.mp hc with hc | hc
    · exact ih (n / 10) c hc
    · rw [List.mem_singleton.mp hc]
      exact isPlain_digit _ (Nat.mod_lt _ (by decide))

theorem isPlain_isoformat (t : DateTime) : ∀ c ∈ t.isoformat, isPlain c = true := by
  have hfraction : ∀ c ∈ (if t.microsecond % 1000000 = 0 then []
      else '.' :: padded 6 (t.microsecond % 1000000)), isPlain c = true := by
    split
    · simp
    · exact List.forall_mem_cons.mpr ⟨by decide, isPlain_padded 6 _⟩
  simp only [DateTime.isoformat, List.forall_mem_append, List.forall_mem_cons]
  refine ⟨⟨⟨⟨⟨⟨⟨isPlain_padded _ _, ?_, isPlain_padded _ _⟩, ?_, isPlain_padded _ _⟩, ?_,
    isPlain_padded _ _⟩, ?_, isPlain_padded _ _⟩, ?_, isPlain_padded _ _⟩, hfraction⟩, ?_⟩
  · decide
  · decide
  · decide
  · decide
  · decide
  · have hutc : (['+', '0', '0', ':', '0', '0'].all isPlain) = true := by decide
    simpa using hutc

theorem length_isoformat_le (t : DateTime) : t.isoformat.length ≤ 32 := by
  have hfraction : (if t.microsecond % 1000000 = 0 then []
      else '.' :: padded 6 (t.microsecond % 1000000)).length ≤ 7 := by
    split
    · simp
    · simp [length_padded]
  simp only [DateTime.isoformat, List.length_append, List.length_cons, length_padded,
    List.length_nil]
  omega

/-! ## UUIDs -/

theorem isLowerHex_spec {c : Char} (h : isLowerHex c = true) :
    isPlain c = true ∧ c ≠ '-' ∧ c ≠ 'u' ∧ (c = '{' || c = '}') = false ∧ c.toLower = c := by
  have hlt : c.toNat < 103 := by
    simp only [isLowerHex, Char.isDigit, Bool.or_eq_true, Bool.and_eq_true, decide_eq_true_eq]
      at h
    rcases h with ⟨-, h⟩ | ⟨-, h⟩
    · have : c.toNat ≤ '9'.toNat := h
      exact Nat.lt_of_le_of_lt this (by decide)
    · have : c.toNat ≤ 'f'.toNat := h
      exact Nat.lt_of_le_of_lt this (by decide)
  have hall : ∀ n < 103, isLowerHex (Char.ofNat n) = true → isPlain (Char.ofNat n) = true ∧
      Char.ofNat n ≠ '-' ∧ Char.ofNat n ≠ 'u' ∧
      (Char.ofNat n = '{' || Char.ofNat n = '}') = false ∧
      (Char.ofNat n).toLower = Char.ofNat n := by decide
  have := hall c.toNat hlt
  rw [Char.ofNat_toNat] at this
  exact this h

/-- A text is a part of it, the character after that and the rest. -/
theorem drop_eq_take_append (cs : List Char) (a b : Nat) (h : a + b < cs.length) :
    cs.drop a = (cs.drop a).take b ++ cs[a + b] :: cs.drop (a + b + 1) := by
  rw [← List.drop_eq_getElem_cons h, ← List.drop_drop, List.take_append_drop]

/-- The text of a UUID: digits in five groups. -/
theorem Uuid.text_groups (u : Uuid) : ∃ a b c d e : List Char,
    u.text.toList = a ++ '-' :: (b ++ '-' :: (c ++ '-' :: (d ++ '-' :: e))) ∧
    a.length = 8 ∧ b.length = 4 ∧ c.length = 4 ∧ d.length = 4 ∧ e.length = 12 ∧
    ∀ x ∈ a ++ b ++ c ++ d ++ e, isLowerHex x = true := by
  have h := u.canonical
  simp only [isCanonicalUuid, Bool.and_eq_true, decide_eq_true_eq] at h
  obtain ⟨hlen, hall⟩ := h
  generalize u.text.toList = cs at hlen hall ⊢
  have hat : ∀ i, (hi : i < cs.length) →
      (if i = 8 ∨ i = 13 ∨ i = 18 ∨ i = 23 then decide (cs[i] = '-') else isLowerHex cs[i]) =
        true := by
    intro i hi
    have hmem : (cs[i], i) ∈ cs.zipIdx := by
      rw [List.mem_zipIdx_iff_getElem?, List.getElem?_eq_getElem hi]
    exact List.all_eq_true.mp hall _ hmem
  -- the digits between two dashes
  have hpart : ∀ p q, (∀ i, p ≤ i → i < p + q → i ≠ 8 ∧ i ≠ 13 ∧ i ≠ 18 ∧ i ≠ 23) →
      ∀ x ∈ (cs.drop p).take q, isLowerHex x = true := by
    intro p q hpq x hx
    obtain ⟨i, hi, rfl⟩ := List.getElem_of_mem hx
    simp only [List.length_take, List.length_drop] at hi
    obtain ⟨h1, h2, h3, h4⟩ := hpq (p + i) (by omega) (by omega)
    have := hat (p + i) (by omega)
    rw [if_neg (by omega)] at this
    rw [List.getElem_take, List.getElem_drop]
    exact this
  have hdash : ∀ i, (hi : i < cs.length) → (i = 8 ∨ i = 13 ∨ i = 18 ∨ i = 23) →
      cs[i] = '-' := by
    intro i hi hdash
    have := hat i hi
    rw [if_pos hdash] at this
    exact of_decide_eq_true this
  refine ⟨(cs.drop 0).take 8, (cs.drop 9).take 4, (cs.drop 14).take 4, (cs.drop 19).take 4,
    (cs.drop 24).take 12, ?_, ?_, ?_, ?_, ?_, ?_, ?_⟩
  · have h1 := drop_eq_take_append cs 0 8 (by omega)
    have h2 := drop_eq_take_append cs 9 4 (by omega)
    have h3 := drop_eq_take_append cs 14 4 (by omega)
    have h4 := drop_eq_take_append cs 19 4 (by omega)
    rw [hdash _ (by omega) (by omega)] at h1 h2 h3 h4
    have h5 : (cs.drop 24).take 12 = cs.drop 24 :=
      List.take_of_length_le (by simp only [List.length_drop]; omega)
    rw [h5, ← h4, ← h3, ← h2, ← h1, List.drop_zero]
  · simp only [List.length_take, List.length_drop]; omega
  · simp only [List.length_take, List.length_drop]; omega
  · simp only [List.length_take, List.length_drop]; omega
  · simp only [List.length_take, List.length_drop]; omega
  · simp only [List.length_take, List.length_drop]; omega
  · simp only [List.forall_mem_append]
    exact ⟨⟨⟨⟨hpart 0 8 (by omega), hpart 9 4 (by omega)⟩, hpart 14 4 (by omega)⟩,
      hpart 19 4 (by omega)⟩, hpart 24 12 (by omega)⟩

/-- A text without the first character of the needle does not change. -/
theorem removeText_of_not_mem {x : Char} (needle : List Char) {cs : List Char} (h : x ∉ cs) :
    removeText (x :: needle) cs = cs := by
  induction cs with
  | nil => simp [removeText]
  | cons c cs ih =>
    rw [List.mem_cons, not_or] at h
    rw [removeText, if_neg, ih h.2]
    rintro ⟨-, hprefix⟩
    rw [List.isPrefixOf_cons_cons, Bool.and_eq_true, beq_iff_eq] at hprefix
    exact h.1 hprefix.1

theorem stripBraces_of_forall {cs : List Char}
    (h : ∀ c ∈ cs, (c = '{' || c = '}') = false) : stripBraces cs = cs := by
  have hdrop : cs.dropWhile (fun c => c = '{' || c = '}') = cs := by
    rw [List.dropWhile_eq_self_iff]
    intro hpos
    rw [h _ (List.getElem_mem hpos)]
    decide
  rw [stripBraces, hdrop, List.rdropWhile_eq_self_iff]
  intro hne
  rw [h _ (List.getLast_mem hne)]
  decide

/-- `uuid.UUID` reads what `str` writes. -/
theorem readUuid_text (u : Uuid) : readUuid u.text.toList = some u := by
  obtain ⟨a, b, c, d, e, htext, ha, hb, hc, hd, he, hhex⟩ := u.text_groups
  have hchars : ∀ x ∈ u.text.toList, x = '-' ∨ isLowerHex x = true := by
    intro x hx
    rw [htext] at hx
    by_cases hdash : x = '-'
    · exact .inl hdash
    · refine .inr (hhex x ?_)
      simp only [List.mem_append, List.mem_cons, hdash, false_or] at hx ⊢
      tauto
  have hu : 'u' ∉ u.text.toList := by
    intro hmem
    rcases hchars _ hmem with h | h
    · cases h
    · exact (isLowerHex_spec h).2.2.1 rfl
  have hbraces : ∀ x ∈ u.text.toList, (x = '{' || x = '}') = false := by
    intro x hx
    rcases hchars x hx with rfl | h
    · decide
    · exact (isLowerHex_spec h).2.2.2.1
  have hne : ∀ x ∈ a ++ b ++ c ++ d ++ e, x ≠ '-' := fun x hx => (isLowerHex_spec (hhex x hx)).2.1
  have hfilter : u.text.toList.filter (· ≠ '-') = a ++ b ++ c ++ d ++ e := by
    rw [htext]
    have hself : ∀ xs : List Char, (∀ x ∈ xs, x ≠ '-') → xs.filter (· ≠ '-') = xs := by
      intro xs hxs
      exact List.filter_eq_self.mpr fun x hx => by simpa using hxs x hx
    simp only [List.forall_mem_append] at hne
    obtain ⟨⟨⟨⟨h1, h2⟩, h3⟩, h4⟩, h5⟩ := hne
    simp only [List.filter_append, List.filter_cons, ne_eq, not_true_eq_false, decide_false,
      Bool.false_eq_true, if_false]
    simp only [ne_eq] at hself
    rw [hself a h1, hself b h2, hself c h3, hself d h4, hself e h5]
    simp only [List.append_assoc]
  have hlower : (a ++ b ++ c ++ d ++ e).map Char.toLower = a ++ b ++ c ++ d ++ e := by
    conv_rhs => rw [← List.map_id (a ++ b ++ c ++ d ++ e)]
    exact List.map_congr_left fun x hx => (isLowerHex_spec (hhex x hx)).2.2.2.2
  have hgroup : groupDigits (a ++ b ++ c ++ d ++ e) = u.text.toList := by
    rw [htext, groupDigits]
    simp (disch := omega) [List.drop_append, List.drop_of_length_le, ha, hb, hc]
  have hurn : removeText "urn:".toList u.text.toList = u.text.toList :=
    removeText_of_not_mem ['r', 'n', ':'] hu
  have huuid : removeText "uuid:".toList u.text.toList = u.text.toList :=
    removeText_of_not_mem ['u', 'i', 'd', ':'] hu
  have hlength : (a ++ b ++ c ++ d ++ e).length = 32 := by simp [ha, hb, hc, hd, he]
  simp only [readUuid, hurn, huuid, stripBraces_of_forall hbraces, hfilter, hlower, hgroup,
    hlength, String.ofList_toList, ne_eq, not_true_eq_false, if_false, u.canonical, dite_true]

theorem isPlain_uuid (u : Uuid) : ∀ c ∈ u.text.toList, isPlain c = true := by
  obtain ⟨a, b, c, d, e, htext, -, -, -, -, -, hhex⟩ := u.text_groups
  intro x hx
  by_cases hdash : x = '-'
  · rw [hdash]
    decide
  · refine (isLowerHex_spec (hhex x ?_)).1
    rw [htext] at hx
    simp only [List.mem_append, List.mem_cons, hdash, false_or] at hx ⊢
    tauto

theorem Uuid.length_text (u : Uuid) : u.text.toList.length = 36 := by
  have h := u.canonical
  simp only [isCanonicalUuid, Bool.and_eq_true, decide_eq_true_eq] at h
  exact h.1

/-! ## Reading a cursor -/

@[simp] theorem skipSpace_cons {c : Char} {cs : List Char}
    (h : (c = ' ' || c = '\t' || c = '\n' || c = '\r') = false) :
    skipSpace (c :: cs) = c :: cs := by
  simp [skipSpace, h]

/-- A string is read back. -/
theorem readValue_string {n : Nat} {value : List Char} (hn : value.length ≤ n)
    (rest : List Char) :
    readValue (n + 1) (dumpsString value ++ rest) = some (.str (String.ofList value), rest) := by
  have hread := readString_escaped value rest (n := n + 1) (by omega)
  simp [dumpsString, readValue, hread]

section Fields
variable {n : Nat} {fields : List (String × Json)} {name : Char} {value rest : List Char}

/-- A field with a string as its value, before another field. -/
theorem readFields_more (hname : isPlain name = true) (hn : value.length < n) :
    readFields (n + 1) fields ('"' :: name :: '"' :: ':' :: (dumpsString value ++ ',' :: rest)) =
      readFields n (setField (String.ofList [name]) (.str (String.ofList value)) fields)
        (skipSpace rest) := by
  obtain ⟨n, rfl⟩ : ∃ m, n = m + 1 := ⟨n - 1, by omega⟩
  have hread := readString_plain [name] (by simpa using hname)
    (':' :: (dumpsString value ++ ',' :: rest)) (n := n + 2) (by simp)
  have hstart : skipSpace (dumpsString value ++ ',' :: rest) =
      dumpsString value ++ ',' :: rest := by
    simp [dumpsString]
  have hval : readValue (n + 1) (dumpsString value ++ ',' :: rest) =
      some (.str (String.ofList value), ',' :: rest) := readValue_string (by omega) _
  simp only [List.cons_append, List.nil_append] at hread
  simp [readFields, hread, hstart, hval]

/-- A field with a string as its value, at the end of the object. -/
theorem readFields_last (hname : isPlain name = true) (hn : value.length < n) :
    readFields (n + 1) fields ('"' :: name :: '"' :: ':' :: (dumpsString value ++ '}' :: rest)) =
      some (setField (String.ofList [name]) (.str (String.ofList value)) fields, rest) := by
  obtain ⟨n, rfl⟩ : ∃ m, n = m + 1 := ⟨n - 1, by omega⟩
  have hread := readString_plain [name] (by simpa using hname)
    (':' :: (dumpsString value ++ '}' :: rest)) (n := n + 2) (by simp)
  have hstart : skipSpace (dumpsString value ++ '}' :: rest) =
      dumpsString value ++ '}' :: rest := by
    simp [dumpsString]
  have hval : readValue (n + 1) (dumpsString value ++ '}' :: rest) =
      some (.str (String.ofList value), '}' :: rest) := readValue_string (by omega) _
  simp only [List.cons_append, List.nil_append] at hread
  simp [readFields, hread, hstart, hval]

/-- The version field, before another field. -/
theorem readFields_version :
    readFields (n + 2) [] ('"' :: 'v' :: '"' :: ':' :: '1' :: ',' :: rest) =
      readFields (n + 1) [("v", .int 1)] (skipSpace rest) := by
  have hread := readString_plain ['v'] (List.forall_mem_singleton.mpr (by decide))
    (':' :: '1' :: ',' :: rest) (n := n + 2) (by simp)
  have hval : readValue (n + 1) ('1' :: ',' :: rest) = some (.int 1, ',' :: rest) := by
    simp [readValue, readNumber, integerPart, fraction, exponent, decimal]
  simp only [List.cons_append, List.nil_append] at hread
  simp [readFields, hread, hval, setField]

end Fields

section Payload
variable (collection sortValue : List Char) (itemId : Uuid)

theorem length_cursorPayload :
    (cursorPayload collection sortValue itemId).length =
      escapedLength collection + escapedLength sortValue + 64 := by
  have hid := itemId.length_text
  have hlength : ∀ cs, (dumpsString cs).length = escapedLength cs + 2 := by
    simp [dumpsString, escapedLength]
  simp only [cursorPayload, List.length_append, List.length_cons, List.length_nil, hlength,
    escapedLength_plain (isPlain_uuid itemId)]
  omega

/-- `json.loads` reads the payload. -/
theorem loads_cursorPayload :
    loads (cursorPayload collection sortValue itemId) =
      some (.obj [("v", .int 1), ("n", .str (String.ofList collection)),
        ("s", .str (String.ofList sortValue)), ("i", .str itemId.text)]) := by
  have hlength := length_cursorPayload collection sortValue itemId
  have hcollection := length_le_escapedLength collection
  have hsort := length_le_escapedLength sortValue
  have hid := itemId.length_text
  unfold loads
  generalize hfuel : 2 * (cursorPayload collection sortValue itemId).length + 2 = fuel
  obtain ⟨n, rfl⟩ : ∃ n, fuel = n + 5 := ⟨fuel - 5, by omega⟩
  have hfields : readFields (n + 4) [] (['"', 'v', '"', ':', '1', ',', '"', 'n', '"', ':'] ++
      dumpsString collection ++ [',', '"', 's', '"', ':'] ++ dumpsString sortValue ++
      [',', '"', 'i', '"', ':'] ++ dumpsString itemId.text.toList ++ ['}']) =
      some ([("v", .int 1), ("n", .str (String.ofList collection)),
        ("s", .str (String.ofList sortValue)), ("i", .str itemId.text)], []) := by
    simp only [List.append_assoc, List.cons_append, List.nil_append]
    rw [readFields_version, skipSpace_cons (by decide), readFields_more (by decide) (by omega),
      skipSpace_cons (by decide), readFields_more (by decide) (by omega),
      skipSpace_cons (by decide), readFields_last (by decide) (by omega)]
    simp [setField]
  simp only [List.append_assoc, List.cons_append, List.nil_append] at hfields
  simp only [cursorPayload, List.append_assoc, List.cons_append, List.nil_append]
  rw [skipSpace_cons (by decide), readValue, skipSpace_cons (by decide)]
  simp [hfields, skipSpace]

end Payload

/-- An ASCII text has one byte for each character. -/
theorem length_utf8Bytes {cs : List Char} (h : ∀ c ∈ cs, c.toNat < 128) :
    (utf8Bytes cs).length = cs.length := by
  induction cs with
  | nil => rfl
  | cons c cs ih =>
    rw [List.forall_mem_cons] at h
    have hsize : c.utf8Size = 1 := by
      rw [Char.utf8Size_eq_one_iff]
      exact Nat.le_of_lt_succ h.1
    have hrest := ih h.2
    simp only [utf8Bytes, List.length_map, List.flatMap_cons, List.length_append,
      String.length_utf8EncodeChar, hsize, List.length_cons] at hrest ⊢
    omega

theorem utf8Bytes_lt (cs : List Char) : ∀ b ∈ utf8Bytes cs, b < 256 := by
  intro b hb
  obtain ⟨x, -, rfl⟩ := List.mem_map.mp hb
  exact x.toNat_lt

theorem fromUTF8?_utf8Bytes (cs : List Char) :
    String.fromUTF8? ((utf8Bytes cs).map UInt8.ofNat).toByteArray = some (String.ofList cs) := by
  have hmap : ((utf8Bytes cs).map UInt8.ofNat).toByteArray = (String.ofList cs).toByteArray := by
    simp [utf8Bytes, Function.comp_def, List.utf8Encode]
  rw [hmap, String.fromUTF8?, dif_pos (String.ofList cs).isValidUTF8]
  rfl

section Issued
variable (collection sortValue : List Char) (itemId : Uuid)

/-- The payload is ASCII. -/
theorem length_payloadBytes :
    (utf8Bytes (cursorPayload collection sortValue itemId)).length =
      escapedLength collection + escapedLength sortValue + 64 := by
  rw [length_utf8Bytes, length_cursorPayload]
  simp only [cursorPayload, List.forall_mem_append]
  refine ⟨⟨⟨⟨⟨⟨?_, dumpsString_lt _⟩, ?_⟩, dumpsString_lt _⟩, ?_⟩, dumpsString_lt _⟩, ?_⟩
  all_goals simp

/-- 384 bytes fill a cursor of the maximal length. -/
theorem length_encodeCursor_le :
    (encodeCursor collection sortValue itemId).length ≤ maxCursorLength ↔
      escapedLength collection + escapedLength sortValue ≤ 320 := by
  have hbytes := utf8Bytes_lt (cursorPayload collection sortValue itemId)
  rw [encodeCursor, Base64.length_stripPadding hbytes, length_payloadBytes, maxCursorLength]
  omega

/-- What `decode_cursor` makes of a cursor that was issued. -/
theorem decodeCursor_eq (other : List Char) :
    decodeCursor (encodeCursor collection sortValue itemId) other =
      if escapedLength collection + escapedLength sortValue ≤ 320 ∧ other = collection then
        some ⟨sortValue, itemId⟩
      else none := by
  have hbytes := utf8Bytes_lt (cursorPayload collection sortValue itemId)
  have hlength := length_payloadBytes collection sortValue itemId
  have hne : encodeCursor collection sortValue itemId ≠ [] := by
    refine Base64.stripPadding_encode_ne_nil hbytes ?_
    apply List.ne_nil_of_length_pos
    omega
  have hshort := length_encodeCursor_le collection sortValue itemId
  have hdecode : Base64.decode (Base64.pad (encodeCursor collection sortValue itemId)) =
      some (utf8Bytes (cursorPayload collection sortValue itemId)) := by
    rw [encodeCursor, Base64.pad_stripPadding_encode hbytes, Base64.decode_encode _ hbytes]
  have hposition : payloadPosition other (.obj [("v", .int 1),
      ("n", .str (String.ofList collection)), ("s", .str (String.ofList sortValue)),
      ("i", .str itemId.text)]) = if other = collection then some ⟨sortValue, itemId⟩
        else none := by
    simp [payloadPosition, List.lookup_cons, isCursorVersion, readUuid_text, eq_comm]
  by_cases hfits : escapedLength collection + escapedLength sortValue ≤ 320
  · have hlong : ¬ maxCursorLength < (encodeCursor collection sortValue itemId).length :=
      Nat.not_lt.mpr (hshort.mpr hfits)
    rw [decodeCursor, if_neg (not_or.mpr ⟨hne, hlong⟩)]
    simp only [hdecode, Option.bind_eq_bind, Option.bind_some, fromUTF8?_utf8Bytes,
      String.toList_ofList, loads_cursorPayload, hposition, hfits, true_and]
  · have hlong : maxCursorLength < (encodeCursor collection sortValue itemId).length :=
      Nat.lt_of_not_le fun h => hfits (hshort.mp h)
    rw [decodeCursor, if_pos (.inr hlong), if_neg fun h => hfits h.1]

/-- A cursor is read back for its collection. -/
theorem decodeCursor_encodeCursor (hcollection : ∀ c ∈ collection, isPlain c = true)
    (hsort : ∀ c ∈ sortValue, isPlain c = true) (hcollection' : collection.length ≤ 64)
    (hsort' : sortValue.length ≤ 32) :
    decodeCursor (encodeCursor collection sortValue itemId) collection =
      some ⟨sortValue, itemId⟩ := by
  rw [decodeCursor_eq, if_pos]
  rw [escapedLength_plain hcollection, escapedLength_plain hsort]
  exact ⟨by omega, rfl⟩

end Issued

/-- **A cursor that was issued is accepted**, and leads to the position of its row. -/
theorem decodeDatetimeCursor_encodeCursor {fromisoformat : List Char → Option ParsedDateTime}
    {collection : List Char} (hplain : ∀ c ∈ collection, isPlain c = true)
    (hshort : collection.length ≤ 64) {t : DateTime}
    (hiso : fromisoformat t.isoformat = some (.aware t)) (itemId : Uuid) :
    decodeDatetimeCursor fromisoformat (encodeCursor collection t.isoformat itemId) collection =
      some (t, itemId) := by
  rw [decodeDatetimeCursor, decodeCursor_encodeCursor _ _ _ hplain (isPlain_isoformat t) hshort
    (length_isoformat_le t)]
  simp [hiso]

/-! ## Role names

The status pages of quotas are sorted by the name of the role.  A name that the schema of
roles accepts may be in any script, and what `json.dumps` makes of it may not fit: a cursor
is read back exactly if the escaped texts have at most 320 characters.
-/

/-- `_QUOTA_STATUS_CURSOR_NAMESPACE`. -/
def quotaStatusCursorNamespace : List Char := "quota_status".toList

/-- `RoleCreate.name`: 1 to 100 characters, and `_reject_control_chars`. -/
def acceptsRoleName (name : List Char) : Bool :=
  1 ≤ name.length && name.length ≤ 100 && name.all fun c => !(c.toNat < 32 || c.toNat = 127)

/-- **When a cursor leads back to its row**, and to no row of another collection. -/
theorem cursor_round_trip_iff (collection sortValue : List Char) (itemId : Uuid) :
    (decodeCursor (encodeCursor collection sortValue itemId) collection =
        some ⟨sortValue, itemId⟩ ∧
      ∀ other, other ≠ collection →
        decodeCursor (encodeCursor collection sortValue itemId) other = none) ↔
      escapedLength collection + escapedLength sortValue ≤ 320 := by
  constructor
  · rintro ⟨hread, -⟩
    rw [decodeCursor_eq] at hread
    by_contra hlong
    rw [if_neg fun h => hlong h.1] at hread
    cases hread
  · intro hfits
    refine ⟨?_, ?_⟩
    · rw [decodeCursor_eq, if_pos ⟨hfits, rfl⟩]
    · intro other hother
      rw [decodeCursor_eq, if_neg fun h => hother h.2]

/-- A role whose name has 52 Arabic letters. -/
def arabicName : List Char := List.replicate 52 'م'

/-- The cursor after the role is refused where it was issued. -/
theorem arabicName_refused : acceptsRoleName arabicName = true ∧
    decodeCursor (encodeCursor quotaStatusCursorNamespace arabicName
      ⟨"7d444840-9dc0-11d1-b245-5ffdce74fad2", by decide⟩) quotaStatusCursorNamespace = none := by
  refine ⟨by decide, ?_⟩
  have hescaped : escapedLength quotaStatusCursorNamespace + escapedLength arabicName = 324 := by
    decide +kernel
  rw [decodeCursor_eq, if_neg]
  rintro ⟨hfits, -⟩
  omega

end QueryCraft
