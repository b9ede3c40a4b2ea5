import Mathlib.Data.Multiset.Bind

/-! # Outer joins

The join of two multisets of rows under a condition, with the rows of either side
that match nothing kept next to a row of the other side that stands for nulls.

If only some rows of each side are visible, the visible part of a join is determined
by the visible parts of its sides, as long as no row that stands for nulls is visible
next to a side with hidden rows (`filter_outerJoin_congr`).
-/
namespace QueryCraft

variable {α β : Type}

/-- The pairs of matching rows. -/
def matchedRows (on : α → β → Bool) (L : Multiset α) (R : Multiset β) : Multiset (α × β) :=
  L.bind fun l => (R.filter (on l ·)).map (Prod.mk l)

/-- The rows of one side that match none of the other. -/
def unmatchedRows (on : α → β → Bool) (L : Multiset α) (R : Multiset β) : Multiset α :=
  L.filter fun l => ∀ r ∈ R, on l r = false

/-- The join; `keepLeft` and `keepRight` say which side keeps its unmatched rows. -/
def outerJoin (keepLeft keepRight : Bool) (nullLeft : α) (nullRight : β) (on : α → β → Bool)
    (L : Multiset α) (R : Multiset β) : Multiset (α × β) :=
  matchedRows on L R +
    (if keepLeft then (unmatchedRows on L R).map (·, nullRight) else 0) +
    (if keepRight then (unmatchedRows (fun r l => on l r) R L).map (nullLeft, ·) else 0)

/-- A row of a join consists of a row of each side, or of nulls. -/
theorem mem_outerJoin {keepLeft keepRight : Bool} {nullLeft : α} {nullRight : β}
    {on : α → β → Bool} {L : Multiset α} {R : Multiset β} {x : α × β}
    (h : x ∈ outerJoin keepLeft keepRight nullLeft nullRight on L R) :
    (x.1 ∈ L ∨ x.1 = nullLeft) ∧ (x.2 ∈ R ∨ x.2 = nullRight) := by
  rcases Multiset.mem_add.mp h with h | h
  · rcases Multiset.mem_add.mp h with h | h
    · obtain ⟨l, hl, h⟩ := Multiset.mem_bind.mp h
      obtain ⟨r, hr, rfl⟩ := Multiset.mem_map.mp h
      exact ⟨.inl hl, .inl (Multiset.mem_filter.mp hr).1⟩
    · split_ifs at h
      · obtain ⟨l, hl, rfl⟩ := Multiset.mem_map.mp h
        exact ⟨.inl (Multiset.mem_filter.mp hl).1, .inr rfl⟩
      · cases h
  · split_ifs at h
    · obtain ⟨r, hr, rfl⟩ := Multiset.mem_map.mp h
      exact ⟨.inr rfl, .inl (Multiset.mem_filter.mp hr).1⟩
    · cases h

section Visible
variable {L L' : Multiset α} {R R' : Multiset β} {p : α → Bool} {q : β → Bool}

theorem filter_matchedRows (on : α → β → Bool) (L : Multiset α) (R : Multiset β) :
    (matchedRows on L R).filter (fun x => p x.1 && q x.2) =
      matchedRows on (L.filter (p ·)) (R.filter (q ·)) := by
  rw [matchedRows, matchedRows, Multiset.filter_bind, Multiset.bind_filter]
  refine Multiset.bind_congr fun l _ => ?_
  rw [Multiset.filter_map, Multiset.filter_filter, Multiset.filter_filter]
  by_cases hl : p l = true
  · rw [if_pos hl]
    congr 1
    refine Multiset.filter_congr fun r _ => ?_
    simp [hl, and_comm]
  · rw [if_neg hl, Multiset.filter_eq_nil.mpr, Multiset.map_zero]
    simp [hl]

/-- The visible unmatched rows of a side; `b` says whether nulls are visible. -/
theorem filter_unmatchedRows_congr (on : α → β → Bool) {b : Bool}
    (hL : L.filter (p ·) = L'.filter (p ·)) (hnull : b = true → R = R') :
    (unmatchedRows on L R).filter (fun l => p l && b) =
      (unmatchedRows on L' R').filter (fun l => p l && b) := by
  cases b with
  | false => simp
  | true =>
    obtain rfl := hnull rfl
    simp only [Bool.and_true]
    rw [unmatchedRows, unmatchedRows, Multiset.filter_comm, hL, Multiset.filter_comm]

/-- **The visible part of a join.** -/
theorem filter_outerJoin_congr {keepLeft keepRight : Bool} {nullLeft : α} {nullRight : β}
    (on : α → β → Bool) (hL : L.filter (p ·) = L'.filter (p ·))
    (hR : R.filter (q ·) = R'.filter (q ·))
    (hleft : keepLeft = true → q nullRight = true → R = R')
    (hright : keepRight = true → p nullLeft = true → L = L') :
    (outerJoin keepLeft keepRight nullLeft nullRight on L R).filter (fun x => p x.1 && q x.2) =
      (outerJoin keepLeft keepRight nullLeft nullRight on L' R').filter
        (fun x => p x.1 && q x.2) := by
  rw [outerJoin, outerJoin, Multiset.filter_add, Multiset.filter_add, Multiset.filter_add,
    Multiset.filter_add, filter_matchedRows, filter_matchedRows, hL, hR]
  congr 1
  · congr 1
    cases keepLeft with
    | false => rfl
    | true =>
      simp only [if_true, Multiset.filter_map]
      exact congrArg _ (filter_unmatchedRows_congr on hL (hleft rfl))
  · cases keepRight with
    | false => rfl
    | true =>
      simp only [if_true, Multiset.filter_map]
      have := filter_unmatchedRows_congr (fun r l => on l r) hR (hright rfl)
      simp only [Bool.and_comm] at this
      exact congrArg _ this

/-- The same, with nothing hidden on the right. -/
theorem filter_outerJoin_left_congr {keepLeft keepRight : Bool} {nullLeft : α} {nullRight : β}
    (on : α → β → Bool) (hL : L.filter (p ·) = L'.filter (p ·))
    (hright : keepRight = true → p nullLeft = true → L = L') :
    (outerJoin keepLeft keepRight nullLeft nullRight on L R).filter (fun x => p x.1) =
      (outerJoin keepLeft keepRight nullLeft nullRight on L' R).filter (fun x => p x.1) := by
  have h := @filter_outerJoin_congr α β L L' R R p (fun _ => true) keepLeft keepRight nullLeft
    nullRight on hL rfl (fun _ _ => rfl) hright
  simpa only [Bool.and_true] using h

end Visible
end QueryCraft
