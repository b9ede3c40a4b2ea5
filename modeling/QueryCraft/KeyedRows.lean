import Mathlib.Data.List.Nodup

/-! # Rows with a key

A table as the list of its rows.  A column that is unique makes it a partial map, from the
values of the column to the rows.  Inserting, deleting and changing rows are then changes of
this map.
-/
namespace QueryCraft

/-! ## Unique keys -/

section Unique
variable {R K : Type*} (key : R → K)

/-- No two rows have the same key. -/
def UniqueKey (rows : List R) : Prop := (rows.map key).Nodup

variable {key} {rows rows' : List R} {r r' : R}

theorem UniqueKey.eq (h : UniqueKey key rows) (hr : r ∈ rows) (hr' : r' ∈ rows)
    (heq : key r = key r') : r = r' :=
  List.inj_on_of_nodup_map h hr hr' heq

theorem uniqueKey_append : UniqueKey key (rows ++ rows') ↔
    UniqueKey key rows ∧ UniqueKey key rows' ∧ ∀ r ∈ rows, ∀ r' ∈ rows', key r ≠ key r' := by
  simp only [UniqueKey, List.map_append, List.nodup_append, List.mem_map]
  constructor
  · rintro ⟨h, h', hne⟩
    exact ⟨h, h', fun r hr r' hr' => hne _ ⟨r, hr, rfl⟩ _ ⟨r', hr', rfl⟩⟩
  · rintro ⟨h, h', hne⟩
    refine ⟨h, h', ?_⟩
    rintro _ ⟨r, hr, rfl⟩ _ ⟨r', hr', rfl⟩
    exact hne r hr r' hr'

theorem UniqueKey.concat (h : UniqueKey key rows) (hr : ∀ r' ∈ rows, key r' ≠ key r) :
    UniqueKey key (rows ++ [r]) := by
  refine uniqueKey_append.mpr ⟨h, List.nodup_singleton _, fun r' hr' _ hs => ?_⟩
  rw [List.mem_singleton.mp hs]
  exact hr r' hr'

theorem UniqueKey.filter (h : UniqueKey key rows) (p : R → Bool) :
    UniqueKey key (rows.filter p) :=
  h.sublist (List.filter_sublist.map key)

theorem UniqueKey.map {f : R → R} (h : UniqueKey key rows) (hf : ∀ r ∈ rows, key (f r) = key r) :
    UniqueKey key (rows.map f) := by
  have hkeys : (rows.map f).map key = rows.map key := by
    rw [List.map_map]
    exact List.map_congr_left hf
  rw [UniqueKey, hkeys]
  exact h

end Unique

/-! ## The map -/

section Map
variable {R K : Type*} [DecidableEq K] (key : R → K)

/-- The row with a key: the first one, and the only one where the key is unique. -/
def rowWith (rows : List R) (k : K) : Option R := rows.find? (key · = k)

variable {key} {rows rows' : List R} {k : K} {r : R}

theorem mem_of_rowWith (h : rowWith key rows k = some r) : r ∈ rows ∧ key r = k :=
  ⟨List.mem_of_find?_eq_some h, by simpa using List.find?_some h⟩

theorem rowWith_eq_none : rowWith key rows k = none ↔ ∀ r ∈ rows, key r ≠ k := by
  simp [rowWith]

theorem rowWith_eq_some (h : UniqueKey key rows) :
    rowWith key rows k = some r ↔ r ∈ rows ∧ key r = k := by
  refine ⟨mem_of_rowWith, ?_⟩
  rintro ⟨hr, rfl⟩
  cases hfind : rowWith key rows (key r) with
  | none => exact absurd rfl (rowWith_eq_none.mp hfind r hr)
  | some r' =>
    obtain ⟨hr', heq⟩ := mem_of_rowWith hfind
    rw [h.eq hr' hr heq]

theorem rowWith_append :
    rowWith key (rows ++ rows') k = (rowWith key rows k).or (rowWith key rows' k) :=
  List.find?_append

theorem rowWith_singleton : rowWith key [r] k = if key r = k then some r else none := by
  by_cases h : key r = k
  · rw [if_pos h, rowWith, List.find?_cons_of_pos (by simpa using h)]
  · rw [if_neg h, rowWith, List.find?_cons_of_neg (by simpa using h), List.find?_nil]

/-- New rows, one for each of a list of keys. -/
theorem rowWith_map_keys {new : K → R} (hnew : ∀ k, key (new k) = k) (keys : List K) :
    rowWith key (keys.map new) k = if k ∈ keys then some (new k) else none := by
  induction keys with
  | nil => rfl
  | cons k' keys ih =>
    rw [List.map_cons, ← List.singleton_append, rowWith_append, rowWith_singleton, hnew, ih]
    by_cases h : k' = k
    · subst h
      simp
    · simp [h, Ne.symm h]

theorem rowWith_filter (h : UniqueKey key rows) (p : R → Bool) :
    rowWith key (rows.filter p) k = (rowWith key rows k).filter p := by
  ext r
  rw [rowWith_eq_some (h.filter p), List.mem_filter, Option.filter_eq_some_iff,
    rowWith_eq_some h]
  tauto

theorem rowWith_map {f : R → R} (hf : ∀ r ∈ rows, key (f r) = key r) :
    rowWith key (rows.map f) k = (rowWith key rows k).map f := by
  induction rows with
  | nil => rfl
  | cons r rows ih =>
    rw [List.forall_mem_cons] at hf
    rw [List.map_cons, ← List.singleton_append, rowWith_append, rowWith_singleton, hf.1,
      ih hf.2, ← List.singleton_append, rowWith_append, rowWith_singleton]
    by_cases h : key r = k
    · simp [h]
    · simp [h]

/-- The rows with a key that is unique. -/
theorem filter_key (h : UniqueKey key rows) :
    rows.filter (key · = k) = (rowWith key rows k).toList := by
  induction rows with
  | nil => rfl
  | cons r rows ih =>
    have hrows : UniqueKey key rows := (List.nodup_cons.mp h).2
    rw [← List.singleton_append, rowWith_append, rowWith_singleton]
    by_cases hr : key r = k
    · have hnone : rows.filter (key · = k) = [] := by
        refine List.filter_eq_nil_iff.mpr fun r' hr' => ?_
        rw [decide_eq_true_eq]
        intro heq
        exact (List.nodup_cons.mp h).1 (List.mem_map.mpr ⟨r', hr', heq.trans hr.symm⟩)
      rw [List.singleton_append, List.filter_cons_of_pos (by simpa using hr), hnone, if_pos hr]
      rfl
    · rw [List.singleton_append, List.filter_cons_of_neg (by simpa using hr), ih hrows, if_neg hr]
      rfl

/-- A dictionary made of the rows. -/
theorem lookup_map_rows {V : Type*} (f : R → V) :
    (rows.map fun r => (key r, f r)).lookup k = (rowWith key rows k).map f := by
  induction rows with
  | nil => rfl
  | cons r rows ih =>
    rw [List.map_cons, List.lookup_cons, ih, ← List.singleton_append, rowWith_append,
      rowWith_singleton]
    by_cases h : key r = k
    · simp [h]
    · simp [h, beq_false_of_ne (Ne.symm h)]

end Map

end QueryCraft
