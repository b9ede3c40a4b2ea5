import Mathlib.Data.List.Sort
import Mathlib.Data.String.Basic
import QueryCraft.JsonText
import QueryCraft.NumberTexts

/-! # Canonical JSON

`_canonical_json` writes a value with its keys in order, without spaces, and with all characters
but the control characters as they are.  The values of a `JSONB` column have no order of their
keys; here their keys are in order (`Json.Stored`).  The texts of such values determine the
values and where they end (`Json.Stored.determinedAt`), so a hash that has no collisions on texts
has none on values.
-/
namespace QueryCraft

open JsonText PrefixCode

/-- A character of a string, without `ensure_ascii`. -/
def escapeControl (c : Char) : List Char :=
  if c = '"' then ['\\', '"']
  else if c = '\\' then ['\\', '\\']
  else if c = '\n' then ['\\', 'n']
  else if c = '\r' then ['\\', 'r']
  else if c = '\t' then ['\\', 't']
  else if c = '\x0c' then ['\\', 'f']
  else if c = '\x08' then ['\\', 'b']
  else if c < ' ' then unicodeEscape c.toNat
  else [c]

/-- `json.dumps` of a string, without `ensure_ascii`. -/
def stringText (s : String) : List Char := '"' :: s.toList.flatMap escapeControl ++ ['"']

mutual

/-- `_canonical_json`. -/
def canonicalJson : Json → List Char
  | .null => ['n', 'u', 'l', 'l']
  | .bool true => ['t', 'r', 'u', 'e']
  | .bool false => ['f', 'a', 'l', 's', 'e']
  | .int n => intText n
  | .float m s => floatText m s
  | .str s => stringText s
  | .arr items => '[' :: List.intercalate [','] (canonicalItems items) ++ [']']
  | .obj fields =>
    '{' :: List.intercalate [',']
      (((canonicalFields fields).insertionSort fun f g => f.1 ≤ g.1).map fun f =>
        stringText f.1 ++ ':' :: f.2) ++ ['}']

def canonicalItems : List Json → List (List Char)
  | [] => []
  | item :: items => canonicalJson item :: canonicalItems items

def canonicalFields : List (String × Json) → List (String × List Char)
  | [] => []
  | (key, value) :: fields => (key, canonicalJson value) :: canonicalFields fields

end

mutual

/-- Floats are the ones that Python prints, and the keys of dictionaries are in order. -/
def Json.isStored : Json → Bool
  | .float m s => ShortestFloat m s
  | .arr items => storedItems items
  | .obj fields => decide ((fields.map (·.1)).Pairwise (· < ·)) && storedFields fields
  | _ => true

def Json.storedItems : List Json → Bool
  | [] => true
  | item :: items => item.isStored && storedItems items

def Json.storedFields : List (String × Json) → Bool
  | [] => true
  | (_, value) :: fields => value.isStored && storedFields fields

end

/-- The value as a `JSONB` column holds it: a float has one spelling, a dictionary one order of
its keys and no key twice. -/
def Json.Stored (v : Json) : Prop := v.isStored = true

instance (v : Json) : Decidable v.Stored := inferInstanceAs (Decidable (_ = true))

example : canonicalJson (.obj [("b", .arr [.int (-3), .null]), ("a", .str "x\n\"é")]) =
    "\x7b\"a\":\"x\\n\\\"é\",\"b\":[-3,null]\x7d".toList := by decide

/-! ## Strings -/

section Strings
variable (n : Nat) (rest : List Char)

/-- A character that was written is read. -/
theorem readString_escapeControl (c : Char) :
    readString (n + 1) (escapeControl c ++ rest) =
      (readString n rest).map fun (cs, rest) => (c :: cs, rest) := by
  unfold escapeControl
  split_ifs with hquote hslash hn hr ht hf hb hcontrol
  · rw [hquote]
    exact readString_short n rest (by decide) (by decide)
  · rw [hslash]
    exact readString_short n rest (by decide) (by decide)
  · rw [hn]
    exact readString_short n rest (by decide) (by decide)
  · rw [hr]
    exact readString_short n rest (by decide) (by decide)
  · rw [ht]
    exact readString_short n rest (by decide) (by decide)
  · rw [hf]
    exact readString_short n rest (by decide) (by decide)
  · rw [hb]
    exact readString_short n rest (by decide) (by decide)
  · have hlt : c.toNat < ' '.toNat := hcontrol
    exact readString_unicodeEscape n rest (hlt.trans (by decide))
  · simp only [readString, List.singleton_append, hquote, hslash, hcontrol, if_false]
    cases readString n rest <;> rfl

/-- A string that was written is read up to its closing quote. -/
theorem readString_stringText (cs rest : List Char) {n : Nat} (hn : cs.length < n) :
    readString n (cs.flatMap escapeControl ++ '"' :: rest) = some (cs, rest) := by
  induction cs generalizing n with
  | nil =>
    obtain ⟨n, rfl⟩ := Nat.exists_eq_add_of_lt hn
    simp [readString]
  | cons c cs ih =>
    rw [List.length_cons] at hn
    obtain ⟨n, rfl⟩ : ∃ m, n = m + 1 := ⟨n - 1, by omega⟩
    rw [List.flatMap_cons, List.append_assoc, readString_escapeControl, ih (by omega)]
    rfl

end Strings

theorem stringText_append (s : String) (r : List Char) :
    stringText s ++ r = '"' :: (s.toList.flatMap escapeControl ++ '"' :: r) := by
  simp [stringText]

/-- A string ends with its closing quote. -/
theorem stringText_inj {s t : String} {r r' : List Char}
    (h : stringText s ++ r = stringText t ++ r') : s = t ∧ r = r' := by
  rw [stringText_append, stringText_append] at h
  have htail := List.tail_eq_of_cons_eq h
  have hs := readString_stringText s.toList r
    (Nat.lt_succ_of_le (le_max_left s.toList.length t.toList.length))
  have ht := readString_stringText t.toList r'
    (Nat.lt_succ_of_le (le_max_right s.toList.length t.toList.length))
  rw [htail, ht] at hs
  obtain ⟨hcs, hr⟩ := Prod.mk.inj (Option.some.inj hs)
  exact ⟨String.toList_inj.mp hcs.symm, hr.symm⟩

/-! ## Lists and dictionaries -/

theorem canonicalItems_eq : ∀ items : List Json, canonicalItems items = items.map canonicalJson
  | [] => rfl
  | item :: items => by rw [canonicalItems, canonicalItems_eq items, List.map_cons]

theorem canonicalFields_eq : ∀ fields : List (String × Json),
    canonicalFields fields = fields.map fun f => (f.1, canonicalJson f.2)
  | [] => rfl
  | (key, value) :: fields => by rw [canonicalFields, canonicalFields_eq fields, List.map_cons]

theorem storedItems_iff : ∀ items : List Json,
    Json.storedItems items = true ↔ ∀ item ∈ items, item.Stored
  | [] => by simp [Json.storedItems]
  | item :: items => by
    rw [Json.storedItems, Bool.and_eq_true, storedItems_iff items, List.forall_mem_cons,
      Json.Stored]

theorem storedFields_iff : ∀ fields : List (String × Json),
    Json.storedFields fields = true ↔ ∀ f ∈ fields, f.2.Stored
  | [] => by simp [Json.storedFields]
  | (key, value) :: fields => by
    rw [Json.storedFields, Bool.and_eq_true, storedFields_iff fields, List.forall_mem_cons,
      Json.Stored]

theorem stored_arr {items : List Json} : (Json.arr items).Stored ↔ ∀ item ∈ items, item.Stored := by
  rw [Json.Stored, Json.isStored, storedItems_iff]

theorem stored_obj {fields : List (String × Json)} :
    (Json.obj fields).Stored ↔
      (fields.map (·.1)).Pairwise (· < ·) ∧ ∀ f ∈ fields, f.2.Stored := by
  rw [Json.Stored, Json.isStored, Bool.and_eq_true, decide_eq_true_iff, storedFields_iff]

/-- The text of a field. -/
def fieldText (f : String × Json) : List Char := stringText f.1 ++ ':' :: canonicalJson f.2

theorem canonicalJson_arr (items : List Json) :
    canonicalJson (.arr items) = '[' :: separated ',' ']' (items.map canonicalJson) := by
  rw [canonicalJson, canonicalItems_eq, List.cons_append, intercalate_concat]

/-- Fields that are in order stay as they are. -/
theorem canonicalJson_obj {fields : List (String × Json)}
    (hkeys : (fields.map (·.1)).Pairwise (· < ·)) :
    canonicalJson (.obj fields) = '{' :: separated ',' '}' (fields.map fieldText) := by
  have hsorted : (canonicalFields fields).Pairwise fun f g => f.1 ≤ g.1 := by
    rw [canonicalFields_eq, List.pairwise_map]
    rw [List.pairwise_map] at hkeys
    exact hkeys.imp fun hlt => le_of_lt hlt
  rw [canonicalJson, hsorted.insertionSort_eq, canonicalFields_eq, List.map_map, List.cons_append,
    intercalate_concat]
  rfl

/-! ## Where a value ends -/

/-- What a value is, as its first character shows. -/
def Json.kind : Json → Nat
  | .null => 0
  | .bool _ => 1
  | .str _ => 2
  | .arr _ => 3
  | .obj _ => 4
  | .int _ | .float _ _ => 5

/-- What starts with this character. -/
def kindOf (c : Char) : Nat :=
  if c = 'n' then 0
  else if c = 't' ∨ c = 'f' then 1
  else if c = '"' then 2
  else if c = '[' then 3
  else if c = '{' then 4
  else 5

theorem kindOf_numeric {c : Char} (h : isNumeric c = true) : kindOf c = 5 := by
  have hne : c ≠ 'n' ∧ ¬ (c = 't' ∨ c = 'f') ∧ c ≠ '"' ∧ c ≠ '[' ∧ c ≠ '{' := by
    refine ⟨?_, ?_, ?_, ?_, ?_⟩
    · rintro rfl
      exact absurd h (by decide)
    · rintro (rfl | rfl)
      · exact absurd h (by decide)
      · exact absurd h (by decide)
    · rintro rfl
      exact absurd h (by decide)
    · rintro rfl
      exact absurd h (by decide)
    · rintro rfl
      exact absurd h (by decide)
  rw [kindOf, if_neg hne.1, if_neg hne.2.1, if_neg hne.2.2.1, if_neg hne.2.2.2.1,
    if_neg hne.2.2.2.2]

theorem kindOf_number {x : List Char} (hne : x ≠ []) (h : ∀ c ∈ x, isNumeric c = true)
    (r : List Char) : (x ++ r).head?.map kindOf = some 5 := by
  obtain ⟨c, x, rfl⟩ := List.exists_cons_of_ne_nil hne
  exact congrArg some (kindOf_numeric (h c List.mem_cons_self))

theorem kindOf_canonicalJson (v : Json) (r : List Char) :
    (canonicalJson v ++ r).head?.map kindOf = some v.kind := by
  cases v with
  | null => rfl
  | bool b => cases b <;> rfl
  | int n => exact kindOf_number (intText_ne_nil n) (isNumeric_intText n) r
  | float m s => exact kindOf_number (floatText_ne_nil m s) (isNumeric_floatText m s) r
  | str s => rfl
  | arr items => rfl
  | obj fields => rfl

/-- A value may be followed by anything that does not go on with a number. -/
def Ends (r : List Char) : Prop := ∀ c ∈ r.head?, isNumeric c = false

theorem ends_cons {c : Char} (h : isNumeric c = false) (r : List Char) : Ends (c :: r) := by
  intro d hd
  obtain rfl := Option.some.inj hd
  exact h

/-- Values with the same text have the same kind. -/
theorem kind_eq {v w : Json} {r r' : List Char} (h : canonicalJson v ++ r = canonicalJson w ++ r') :
    v.kind = w.kind := by
  have hkind := kindOf_canonicalJson v r
  rw [h, kindOf_canonicalJson w r'] at hkind
  exact (Option.some.inj hkind).symm

/-- Numbers of one text are the same. -/
theorem number_inj {v w : Json} {r r' : List Char} (hv : v.kind = 5) (hw : w.kind = 5)
    (hvs : v.Stored) (hws : w.Stored) (hr : Ends r) (hr' : Ends r')
    (h : canonicalJson v ++ r = canonicalJson w ++ r') : v = w ∧ r = r' := by
  have hnumeric : ∀ {v : Json}, v.kind = 5 → ∀ c ∈ canonicalJson v, isNumeric c = true := by
    intro v hv
    cases v with
    | int n => exact isNumeric_intText n
    | float m s => exact isNumeric_floatText m s
    | _ => cases hv
  obtain ⟨htext, hrest⟩ := span_inj (hnumeric hv) (hnumeric hw) hr hr' h
  refine ⟨?_, hrest⟩
  cases v with
  | int n =>
    cases w with
    | int n' => rw [intText_inj htext]
    | float m s => exact absurd htext (intText_ne_floatText n m s)
    | _ => cases hw
  | float m s =>
    cases w with
    | int n => exact absurd htext.symm (intText_ne_floatText n m s)
    | float m' s' =>
      obtain ⟨rfl, rfl⟩ := floatText_inj hvs hws htext
      rfl
    | _ => cases hw
  | _ => cases hv

theorem fieldText_determinedAt {f : String × Json}
    (h : DeterminedAt canonicalJson Json.Stored Ends f.2) :
    DeterminedAt fieldText (fun g => g.2.Stored) Ends f := by
  intro g r r' hg hr hr' heq
  rw [fieldText, fieldText, List.append_assoc, List.append_assoc] at heq
  obtain ⟨hkey, hrest⟩ := stringText_inj heq
  obtain ⟨hvalue, rfl⟩ := h g.2 r r' hg hr hr' (List.tail_eq_of_cons_eq hrest)
  exact ⟨Prod.ext hkey hvalue, rfl⟩

/-- No value starts with the bracket that closes a list. -/
theorem head?_canonicalJson_ne (v : Json) (r : List Char) :
    (canonicalJson v ++ r).head? ≠ some ']' := by
  have hnumber : ∀ x : List Char, x ≠ [] → (∀ c ∈ x, isNumeric c = true) →
      (x ++ r).head? ≠ some ']' := by
    intro x hne hx hhead
    rw [List.head?_append_of_ne_nil _ hne] at hhead
    exact absurd (hx _ (List.mem_of_mem_head? hhead)) (by decide)
  have hkind := kindOf_canonicalJson v r
  cases v with
  | int n => exact hnumber _ (intText_ne_nil n) (isNumeric_intText n)
  | float m s => exact hnumber _ (floatText_ne_nil m s) (isNumeric_floatText m s)
  | _ =>
    intro hhead
    rw [hhead] at hkind
    cases hkind

theorem array_determinedAt {items : List Json} (hstored : ∀ item ∈ items, item.Stored)
    (h : ∀ item ∈ items, DeterminedAt canonicalJson Json.Stored Ends item) :
    DeterminedAt canonicalJson Json.Stored Ends (.arr items) := by
  intro w r r' hw hr hr' heq
  have hkind := kind_eq heq
  cases w with
  | arr items' =>
    rw [canonicalJson_arr, canonicalJson_arr] at heq
    obtain ⟨hitems, hrest⟩ := separated_inj (by decide) (ends_cons (by decide))
      (ends_cons (by decide)) (fun v r _ => head?_canonicalJson_ne v r) hstored h
      (stored_arr.mp hw) (List.tail_eq_of_cons_eq heq)
    exact ⟨congrArg Json.arr hitems, hrest⟩
  | _ => cases hkind

/-- Dictionaries whose values show where they end do so, whatever follows. -/
theorem object_inj {fields fields' : List (String × Json)} {r r' : List Char}
    (hstored : (Json.obj fields).Stored) (hstored' : (Json.obj fields').Stored)
    (h : ∀ f ∈ fields, DeterminedAt canonicalJson Json.Stored Ends f.2)
    (heq : canonicalJson (.obj fields) ++ r = canonicalJson (.obj fields') ++ r') :
    fields = fields' ∧ r = r' := by
  rw [canonicalJson_obj (stored_obj.mp hstored).1, canonicalJson_obj (stored_obj.mp hstored').1]
    at heq
  have hstart : ∀ (f : String × Json) (r : List Char), f.2.Stored →
      (fieldText f ++ r).head? ≠ some '}' := by
    intro f r _ hhead
    rw [fieldText, List.append_assoc, stringText_append] at hhead
    exact absurd (Option.some.inj hhead) (by decide)
  exact separated_inj (by decide) (ends_cons (by decide)) (ends_cons (by decide)) hstart
    (stored_obj.mp hstored).2 (fun f hf => fieldText_determinedAt (h f hf))
    (stored_obj.mp hstored').2 (List.tail_eq_of_cons_eq heq)

mutual

/-- **The text of a stored value shows the value and where it ends.** -/
theorem Json.Stored.determinedAt : ∀ {v : Json}, v.Stored →
    DeterminedAt canonicalJson Json.Stored Ends v
  | .null, _ => by
    intro w r r' _ _ _ heq
    have hkind := kind_eq heq
    cases w with
    | null => exact ⟨rfl, List.append_cancel_left heq⟩
    | _ => cases hkind
  | .bool b, _ => by
    intro w r r' _ _ _ heq
    have hkind := kind_eq heq
    cases w with
    | bool b' =>
      cases b <;> cases b'
      · exact ⟨rfl, List.append_cancel_left heq⟩
      · exact absurd (List.head_eq_of_cons_eq heq) (by decide)
      · exact absurd (List.head_eq_of_cons_eq heq) (by decide)
      · exact ⟨rfl, List.append_cancel_left heq⟩
    | _ => cases hkind
  | .str s, _ => by
    intro w r r' _ _ _ heq
    have hkind := kind_eq heq
    cases w with
    | str t =>
      obtain ⟨rfl, rfl⟩ := stringText_inj heq
      exact ⟨rfl, rfl⟩
    | _ => cases hkind
  | .int n, h => fun _ _ _ hw hr hr' heq => number_inj rfl (kind_eq heq).symm h hw hr hr' heq
  | .float m s, h => fun _ _ _ hw hr hr' heq =>
    number_inj rfl (kind_eq heq).symm h hw hr hr' heq
  | .arr items, h => array_determinedAt (stored_arr.mp h) (determinedAt_items (stored_arr.mp h))
  | .obj fields, h => by
    intro w r r' hw _ _ heq
    have hkind := kind_eq heq
    cases w with
    | obj fields' =>
      obtain ⟨hfields, hrest⟩ := object_inj h hw (determinedAt_fields (stored_obj.mp h).2) heq
      exact ⟨congrArg Json.obj hfields, hrest⟩
    | _ => cases hkind

theorem determinedAt_items : ∀ {items : List Json}, (∀ item ∈ items, item.Stored) →
    ∀ item ∈ items, DeterminedAt canonicalJson Json.Stored Ends item
  | [], _ => by simp
  | item :: items, h => by
    obtain ⟨hitem, hitems⟩ := List.forall_mem_cons.mp h
    exact List.forall_mem_cons.mpr ⟨Json.Stored.determinedAt hitem, determinedAt_items hitems⟩

theorem determinedAt_fields : ∀ {fields : List (String × Json)}, (∀ f ∈ fields, f.2.Stored) →
    ∀ f ∈ fields, DeterminedAt canonicalJson Json.Stored Ends f.2
  | [], _ => by simp
  | (key, value) :: fields, h => by
    obtain ⟨hvalue, hfields⟩ := List.forall_mem_cons.mp h
    exact List.forall_mem_cons.mpr ⟨Json.Stored.determinedAt hvalue, determinedAt_fields hfields⟩

end

/-- **A dictionary shows where it ends, whatever follows.** -/
theorem canonicalJson_obj_inj {fields fields' : List (String × Json)} {r r' : List Char}
    (h : (Json.obj fields).Stored) (h' : (Json.obj fields').Stored)
    (heq : canonicalJson (.obj fields) ++ r = canonicalJson (.obj fields') ++ r') :
    fields = fields' ∧ r = r' :=
  object_inj h h' (determinedAt_fields (stored_obj.mp h).2) heq

end QueryCraft
