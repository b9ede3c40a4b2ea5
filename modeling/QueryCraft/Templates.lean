import Mathlib.Data.List.Flatten

/-! # Templates

A template lists for each place what may stand there.  A list that fits a template may be shorter
than it, so what starts a list that fits does so too, and what follows fits the rest of the
template (`fits_append`).
-/
namespace QueryCraft

variable {α : Type}

/-- At each place of the list stands what the template allows. -/
def Fits : List (List α) → List α → Prop
  | _, [] => True
  | [], _ :: _ => False
  | k :: ks, x :: xs => x ∈ k ∧ Fits ks xs

/-- A template over and over again. -/
def cycle (n : Nat) (ks : List (List α)) : List (List α) := (List.replicate n ks).flatten

@[simp] theorem fits_nil (ks : List (List α)) : Fits ks [] ↔ True := by
  cases ks <;> rfl

@[simp] theorem not_fits_cons (x : α) (xs : List α) : Fits [] (x :: xs) ↔ False := Iff.rfl

@[simp] theorem fits_cons (k : List α) (ks : List (List α)) (x : α) (xs : List α) :
    Fits (k :: ks) (x :: xs) ↔ x ∈ k ∧ Fits ks xs := Iff.rfl

instance Fits.decidable [DecidableEq α] : ∀ (ks : List (List α)) (xs : List α),
    Decidable (Fits ks xs)
  | ks, [] => .isTrue ((fits_nil ks).mpr trivial)
  | [], _ :: _ => .isFalse id
  | _ :: ks, _ :: xs => @instDecidableAnd _ _ inferInstance (Fits.decidable ks xs)

variable {ks : List (List α)} {xs ys : List α}

theorem fits_append : Fits ks (xs ++ ys) ↔ Fits ks xs ∧ Fits (ks.drop xs.length) ys := by
  induction xs generalizing ks with
  | nil => simp
  | cons x xs ih =>
    cases ks with
    | nil => simp
    | cons k ks => simp [ih, and_assoc]

theorem Fits.length_le (h : Fits ks xs) : xs.length ≤ ks.length := by
  induction xs generalizing ks with
  | nil => exact Nat.zero_le _
  | cons x xs ih =>
    cases ks with
    | nil => exact h.elim
    | cons k ks => exact Nat.succ_le_succ (ih h.2)

/-- What fits a template fits a longer one. -/
theorem Fits.append_right (h : Fits ks xs) (ls : List (List α)) : Fits (ks ++ ls) xs := by
  induction xs generalizing ks with
  | nil => exact (fits_nil _).mpr trivial
  | cons x xs ih =>
    cases ks with
    | nil => exact h.elim
    | cons k ks => exact ⟨h.1, ih h.2⟩

/-- What holds of everything that a template allows holds of what fits it. -/
theorem Fits.forall {p : α → Prop} (h : Fits ks xs) (hp : ∀ k ∈ ks, ∀ x ∈ k, p x) :
    ∀ x ∈ xs, p x := by
  induction xs generalizing ks with
  | nil => simp
  | cons x xs ih =>
    cases ks with
    | nil => exact h.elim
    | cons k ks =>
      rw [List.forall_mem_cons] at hp ⊢
      exact ⟨hp.1 x h.1, ih h.2 hp.2⟩

/-- A template can be narrowed to what has a property of all elements of the list. -/
theorem Fits.filter {p : α → Bool} (h : Fits ks xs) (hp : ∀ x ∈ xs, p x = true) :
    Fits (ks.map (List.filter p)) xs := by
  induction xs generalizing ks with
  | nil => simp
  | cons x xs ih =>
    cases ks with
    | nil => exact h.elim
    | cons k ks =>
      rw [List.forall_mem_cons] at hp
      rw [List.map_cons, fits_cons, List.mem_filter]
      exact ⟨⟨h.1, hp.1⟩, ih h.2 hp.2⟩

theorem Fits.map {β : Type} (f : α → β) (h : Fits ks xs) :
    Fits (ks.map (List.map f)) (xs.map f) := by
  induction xs generalizing ks with
  | nil => simp
  | cons x xs ih =>
    cases ks with
    | nil => exact h.elim
    | cons k ks => exact ⟨List.mem_map_of_mem h.1, ih h.2⟩

theorem Fits.drop (h : Fits ks (xs ++ ys)) : Fits (ks.drop xs.length) ys := (fits_append.mp h).2

theorem Fits.left (h : Fits ks (xs ++ ys)) : Fits ks xs := (fits_append.mp h).1

/-- What stands at a place of a list that fits. -/
theorem Fits.mem_getD {x : α} (h : Fits ks (xs ++ x :: ys)) :
    xs.length < ks.length ∧ x ∈ ks.getD xs.length [] := by
  induction xs generalizing ks with
  | nil =>
    cases ks with
    | nil => exact h.elim
    | cons k ks => exact ⟨Nat.succ_pos _, h.1⟩
  | cons y xs ih =>
    cases ks with
    | nil => exact h.elim
    | cons k ks =>
      obtain ⟨hlength, hx⟩ := ih h.2
      exact ⟨Nat.succ_lt_succ hlength, hx⟩

theorem fits_replicate {n : Nat} {k : List α} :
    Fits (List.replicate n k) xs ↔ xs.length ≤ n ∧ ∀ x ∈ xs, x ∈ k := by
  induction xs generalizing n with
  | nil => simp
  | cons x xs ih =>
    cases n with
    | zero => simp
    | succ n =>
      rw [List.replicate_succ, fits_cons, ih, List.length_cons, List.forall_mem_cons]
      constructor
      · rintro ⟨hx, hlength, hxs⟩
        exact ⟨Nat.succ_le_succ hlength, hx, hxs⟩
      · rintro ⟨hlength, hx, hxs⟩
        exact ⟨hx, Nat.le_of_succ_le_succ hlength, hxs⟩

theorem cycle_succ (n : Nat) (ks : List (List α)) : cycle (n + 1) ks = ks ++ cycle n ks := rfl

theorem mem_cycle {n : Nat} {ks : List (List α)} {k : List α} (h : k ∈ cycle n ks) : k ∈ ks := by
  obtain ⟨l, hl, hk⟩ := List.mem_flatten.mp h
  rwa [List.eq_of_mem_replicate hl] at hk

theorem map_cycle {β : Type} (f : List α → List β) (n : Nat) (ks : List (List α)) :
    (cycle n ks).map f = cycle n (ks.map f) := by
  rw [cycle, cycle, List.map_flatten, List.map_replicate]

theorem length_cycle (n : Nat) (ks : List (List α)) : (cycle n ks).length = n * ks.length := by
  rw [cycle, List.length_flatten, List.map_replicate, List.sum_replicate_nat]

end QueryCraft
