import Mathlib.Data.List.TakeWhile

/-! # Texts that show where a value ends

A value is written as a list of symbols, and something else follows.  The value can be told
from what follows if no other value, with something else after it, gives the same list
(`DeterminedAt`).  Values that can be told this way can be put between separators, with a
symbol that closes the list (`separated_inj`).
-/
namespace QueryCraft.PrefixCode

variable {α γ : Type}

/-- No other value than `a`, followed by something else, gives the same symbols.  What follows
a value meets `ends`. -/
def DeterminedAt (write : α → List γ) (valid : α → Prop) (ends : List γ → Prop) (a : α) : Prop :=
  ∀ b r r', valid b → ends r → ends r' → write a ++ r = write b ++ r' → a = b ∧ r = r'

/-- Two lists of symbols of one kind, each followed by another kind or by nothing. -/
theorem span_inj {p : γ → Bool} {x y r r' : List γ} (hx : ∀ c ∈ x, p c = true)
    (hy : ∀ c ∈ y, p c = true) (hr : ∀ c ∈ r.head?, p c = false)
    (hr' : ∀ c ∈ r'.head?, p c = false) (h : x ++ r = y ++ r') : x = y ∧ r = r' := by
  have htake : ∀ {x r : List γ}, (∀ c ∈ x, p c = true) → (∀ c ∈ r.head?, p c = false) →
      (x ++ r).takeWhile p = x := by
    intro x r hx hr
    rw [List.takeWhile_append_of_pos hx]
    cases r with
    | nil => simp
    | cons c r => rw [List.takeWhile_cons_of_neg (by simp [hr c rfl]), List.append_nil]
  obtain rfl : x = y := by rw [← htake hx hr, h, htake hy hr']
  exact ⟨rfl, List.append_cancel_left h⟩

/-! ## Between separators -/

section Separated
variable (sep close : γ)

/-- What follows the first of the texts in a list. -/
def continued : List (List γ) → List γ
  | [] => [close]
  | x :: xs => sep :: x ++ continued xs

/-- Texts between separators, closed by a symbol. -/
def separated : List (List γ) → List γ
  | [] => [close]
  | x :: xs => x ++ continued sep close xs

/-- The texts put together with a separator, and the symbol that closes them. -/
theorem intercalate_concat (xs : List (List γ)) :
    List.intercalate [sep] xs ++ [close] = separated sep close xs := by
  cases xs with
  | nil => rfl
  | cons x xs =>
    rw [separated]
    induction xs generalizing x with
    | nil => simp [List.intercalate, continued]
    | cons y ys ih =>
      have hstep : List.intercalate [sep] (x :: y :: ys) =
          x ++ sep :: List.intercalate [sep] (y :: ys) := by
        simp [List.intercalate]
      rw [hstep, List.append_assoc, List.cons_append, ih y, continued, List.cons_append]

variable {sep close} {write : α → List γ} {valid : α → Prop} {ends : List γ → Prop}

theorem ends_continued (hsep : ∀ r, ends (sep :: r)) (hclose : ∀ r, ends (close :: r))
    (as : List α) (r : List γ) : ends (continued sep close (as.map write) ++ r) := by
  cases as with
  | nil => exact hclose r
  | cons a as => exact hsep _

theorem continued_inj (hne : sep ≠ close) (hsep : ∀ r, ends (sep :: r))
    (hclose : ∀ r, ends (close :: r)) {as bs : List α} {r r' : List γ}
    (has : ∀ a ∈ as, DeterminedAt write valid ends a) (hbs : ∀ b ∈ bs, valid b)
    (h : continued sep close (as.map write) ++ r = continued sep close (bs.map write) ++ r') :
    as = bs ∧ r = r' := by
  induction as generalizing bs with
  | nil =>
    cases bs with
    | nil => exact ⟨rfl, List.tail_eq_of_cons_eq h⟩
    | cons b bs => exact absurd (List.head_eq_of_cons_eq h).symm hne
  | cons a as ih =>
    cases bs with
    | nil => exact absurd (List.head_eq_of_cons_eq h) hne
    | cons b bs =>
      obtain ⟨ha, hrestA⟩ := List.forall_mem_cons.mp has
      obtain ⟨hb, hrestB⟩ := List.forall_mem_cons.mp hbs
      have htail : write a ++ continued sep close (as.map write) ++ r =
          write b ++ continued sep close (bs.map write) ++ r' := List.tail_eq_of_cons_eq h
      rw [List.append_assoc, List.append_assoc] at htail
      obtain ⟨rfl, hrest⟩ := ha b _ _ hb (ends_continued hsep hclose as r)
        (ends_continued hsep hclose bs r') htail
      obtain ⟨rfl, rfl⟩ := ih hrestA hrestB hrest
      exact ⟨rfl, rfl⟩

/-- **Lists of values between separators**, where a value does not start with the symbol that
closes the list. -/
theorem separated_inj (hne : sep ≠ close) (hsep : ∀ r, ends (sep :: r))
    (hclose : ∀ r, ends (close :: r)) (hstart : ∀ a r, valid a → (write a ++ r).head? ≠ some close)
    {as bs : List α} {r r' : List γ} (hvalid : ∀ a ∈ as, valid a)
    (has : ∀ a ∈ as, DeterminedAt write valid ends a) (hbs : ∀ b ∈ bs, valid b)
    (h : separated sep close (as.map write) ++ r = separated sep close (bs.map write) ++ r') :
    as = bs ∧ r = r' := by
  cases as with
  | nil =>
    cases bs with
    | nil => exact ⟨rfl, List.tail_eq_of_cons_eq h⟩
    | cons b bs =>
      have hhead := congrArg List.head? h
      rw [List.map_cons, separated, List.append_assoc] at hhead
      exact absurd hhead.symm (hstart b _ (hbs b List.mem_cons_self))
  | cons a as =>
    cases bs with
    | nil =>
      have hhead := congrArg List.head? h
      rw [List.map_cons, separated, List.append_assoc] at hhead
      exact absurd hhead (hstart a _ (hvalid a List.mem_cons_self))
    | cons b bs =>
      obtain ⟨ha, hrestA⟩ := List.forall_mem_cons.mp has
      obtain ⟨hb, hrestB⟩ := List.forall_mem_cons.mp hbs
      rw [List.map_cons, List.map_cons, separated, separated, List.append_assoc,
        List.append_assoc] at h
      obtain ⟨rfl, hrest⟩ := ha b _ _ hb (ends_continued hsep hclose as r)
        (ends_continued hsep hclose bs r') h
      obtain ⟨heq, rfl⟩ := continued_inj hne hsep hclose hrestA hrestB hrest
      exact ⟨congrArg _ heq, rfl⟩

end Separated

end QueryCraft.PrefixCode
