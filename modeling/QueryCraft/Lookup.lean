import Mathlib.Data.List.Dedup

/-! # Lookup

A dictionary as the list of its assignments in the order they were made: a later
assignment to a key replaces the earlier ones.  Lookup in nested scopes, where the
innermost scope with a match decides, and only a single match counts.
-/
namespace QueryCraft

/-! ## Dictionaries -/

section Dictionary
variable {K V : Type} [DecidableEq K]

/-- The value of a key. -/
def dictGet (entries : List (K × V)) (key : K) : Option V := entries.reverse.lookup key

/-- The values, one for each key. -/
def dictValues (entries : List (K × V)) : List V :=
  (entries.map (·.1)).dedup.filterMap (dictGet entries)

theorem mem_of_dictGet {entries : List (K × V)} {key : K} {v : V}
    (h : dictGet entries key = some v) : (key, v) ∈ entries := by
  obtain ⟨xs, ys, hsplit, -⟩ := List.lookup_eq_some_iff.mp h
  rw [← List.mem_reverse, hsplit]
  simp

theorem mem_dictValues {entries : List (K × V)} {v : V} :
    v ∈ dictValues entries ↔ ∃ key, dictGet entries key = some v := by
  simp only [dictValues, List.mem_filterMap, List.mem_dedup]
  constructor
  · rintro ⟨key, -, h⟩
    exact ⟨key, h⟩
  · rintro ⟨key, h⟩
    exact ⟨key, List.mem_map.mpr ⟨_, mem_of_dictGet h, rfl⟩, h⟩

end Dictionary

/-! ## Association lists -/

section Association
variable {K V W : Type} [DecidableEq K] {entries : List (K × V)} {key k : K} {v : Option V}

/-- Assigns a key, or removes it. -/
def assignKey (entries : List (K × V)) (key : K) (v : Option V) : List (K × V) :=
  entries.filter (·.1 ≠ key) ++ (v.map (key, ·)).toList

/-- With distinct keys every entry is found. -/
theorem lookup_of_mem {v : V} (hnodup : (entries.map Prod.fst).Nodup) (h : (key, v) ∈ entries) :
    entries.lookup key = some v := by
  induction entries with
  | nil => cases h
  | cons e entries ih =>
    rw [List.map_cons, List.nodup_cons] at hnodup
    rw [List.lookup_cons]
    rcases List.mem_cons.mp h with rfl | h
    · simp
    · have hne : key ≠ e.1 := by
        rintro rfl
        exact hnodup.1 (List.mem_map.mpr ⟨_, h, rfl⟩)
      rw [beq_eq_false_iff_ne.mpr hne]
      exact ih hnodup.2 h

theorem lookup_mapValues (f : V → W) :
    (entries.map fun e => (e.1, f e.2)).lookup key = (entries.lookup key).map f := by
  induction entries with
  | nil => rfl
  | cons e entries ih =>
    obtain ⟨a, b⟩ := e
    rw [List.map_cons, List.lookup_cons, List.lookup_cons]
    cases key == a with
    | true => rfl
    | false => exact ih

theorem lookup_filter_ne : (entries.filter (·.1 ≠ key)).lookup k =
    if k = key then none else entries.lookup k := by
  induction entries with
  | nil => simp
  | cons e entries ih =>
    obtain ⟨a, b⟩ := e
    by_cases ha : a = key
    · rw [List.filter_cons_of_neg (by simp [ha]), ih, List.lookup_cons]
      by_cases hk : k = key
      · rw [if_pos hk, if_pos hk]
      · rw [if_neg hk, if_neg hk, beq_false_of_ne (by rw [ha]; exact hk)]
    · rw [List.filter_cons_of_pos (by simp [ha]), List.lookup_cons, List.lookup_cons, ih]
      by_cases hk : k = a
      · subst hk
        simp [ha]
      · rw [beq_false_of_ne hk]

theorem lookup_assignKey :
    (assignKey entries key v).lookup k = if k = key then v else entries.lookup k := by
  rw [assignKey, List.lookup_append, lookup_filter_ne]
  by_cases hk : k = key
  · subst hk
    cases v <;> simp
  · rw [if_neg hk, if_neg hk]
    cases v <;> simp [List.lookup_cons, beq_false_of_ne hk]

theorem key_mem_of_mem_assignKey {e : K × V} (h : e ∈ assignKey entries key v) :
    e.1 = key ∨ ∃ e' ∈ entries, e'.1 = e.1 := by
  rcases List.mem_append.mp h with h | h
  · exact .inr ⟨e, List.mem_of_mem_filter h, rfl⟩
  · obtain ⟨w, -, rfl⟩ := Option.map_eq_some_iff.mp (Option.mem_toList.mp h)
    exact .inl rfl

end Association

/-! ## Nested scopes -/

/-- The one element with the property in the innermost scope that has any. -/
def innermost {α : Type} (p : α → Bool) : List (List α) → Option α
  | [] => none
  | scope :: outer => match scope.filter p with
    | [] => innermost p outer
    | [x] => some x
    | _ => none

/-- A match in the innermost scope is the only one that can be found. -/
theorem innermost_eq_of_mem {α : Type} {p : α → Bool} {scope : List α} {outer : List (List α)}
    {x y : α} (hx : x ∈ scope) (hp : p x = true) (h : innermost p (scope :: outer) = some y) :
    y = x := by
  have hmem : x ∈ scope.filter p := List.mem_filter.mpr ⟨hx, hp⟩
  rw [innermost] at h
  split at h
  · rename_i hnil
    rw [hnil] at hmem
    cases hmem
  · rename_i z hz
    rw [hz, List.mem_singleton] at hmem
    rw [hmem]
    exact (Option.some.inj h).symm
  · cases h

/-- A match in the innermost scope is found if it is the only one there. -/
theorem innermost_of_filter_eq {α : Type} {p : α → Bool} {scope : List α}
    {outer : List (List α)} {x : α} (h : scope.filter p = [x]) :
    innermost p (scope :: outer) = some x := by
  rw [innermost, h]

end QueryCraft
