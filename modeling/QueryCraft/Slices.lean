import Mathlib.Data.List.Forall2
import Mathlib.Data.List.Nodup

/-! # Slices, sums and partial maps

A list is cut into slices of one length, the last of which may be shorter; put together they
are the list again.  The sum of a function over a list follows the operations on lists.  A
function that may fail is mapped over a list where it fails on none of the elements.
-/
namespace QueryCraft

/-- `xs[start : start + n] for start in range(0, len(xs), n)`. -/
def slices {α : Type} (n : Nat) (xs : List α) : List (List α) :=
  (List.range' 0 ((xs.length + (n - 1)) / n) n).map fun start => (xs.drop start).take n

theorem slices_flatten {α : Type} {n : Nat} (hn : 1 ≤ n) (xs : List α) :
    (slices n xs).flatten = xs := by
  have hrange : ∀ k start, ((List.range' start k n).map fun i => (xs.drop i).take n).flatten =
      (xs.drop start).take (k * n) := by
    intro k
    induction k with
    | zero => simp
    | succ k ih =>
      intro start
      have hsucc : (k + 1) * n = n + k * n := by rw [Nat.succ_mul, Nat.add_comm]
      rw [List.range'_succ, List.map_cons, List.flatten_cons, ih, hsucc, List.take_add,
        List.drop_drop]
  rw [slices, hrange, List.drop_zero, List.take_of_length_le]
  have hdiv := Nat.div_add_mod (xs.length + (n - 1)) n
  have hmod := Nat.mod_lt (xs.length + (n - 1)) hn
  rw [Nat.mul_comm]
  omega

/-! ## Sums -/

/-- The sum of a function over a list. -/
def sumOver {α : Type} (f : α → Nat) (xs : List α) : Nat := xs.foldr (fun x n => f x + n) 0

section Sums
variable {α β : Type} {f g : α → Nat}

@[simp] theorem sumOver_nil : sumOver f [] = 0 := rfl

@[simp] theorem sumOver_cons (x : α) (xs : List α) :
    sumOver f (x :: xs) = f x + sumOver f xs := rfl

theorem sumOver_append (xs ys : List α) :
    sumOver f (xs ++ ys) = sumOver f xs + sumOver f ys := by
  induction xs with
  | nil => simp
  | cons x xs ih => simp [ih, Nat.add_assoc]

theorem sumOver_congr {xs : List α} (h : ∀ x ∈ xs, f x = g x) : sumOver f xs = sumOver g xs := by
  induction xs with
  | nil => rfl
  | cons x xs ih =>
    rw [List.forall_mem_cons] at h
    rw [sumOver_cons, sumOver_cons, h.1, ih h.2]

theorem sumOver_perm {xs ys : List α} (h : xs.Perm ys) : sumOver f xs = sumOver f ys := by
  induction h with
  | nil => rfl
  | cons x _ ih => rw [sumOver_cons, sumOver_cons, ih]
  | swap x y xs =>
    simp only [sumOver_cons]
    omega
  | trans _ _ ih ih' => rw [ih, ih']

theorem sumOver_flatMap (t : β → List α) (xs : List β) :
    sumOver f (xs.flatMap t) = sumOver (fun x => sumOver f (t x)) xs := by
  induction xs with
  | nil => rfl
  | cons x xs ih => rw [List.flatMap_cons, sumOver_append, sumOver_cons, ih]

theorem sumOver_map (t : β → α) (xs : List β) :
    sumOver f (xs.map t) = sumOver (fun x => f (t x)) xs := by
  induction xs with
  | nil => rfl
  | cons x xs ih => rw [List.map_cons, sumOver_cons, sumOver_cons, ih]

theorem sumOver_filterMap (t : β → Option α) (xs : List β) :
    sumOver f (xs.filterMap t) = sumOver (fun x => ((t x).map f).getD 0) xs := by
  induction xs with
  | nil => rfl
  | cons x xs ih =>
    rw [List.filterMap_cons, sumOver_cons, ← ih]
    cases t x with
    | none => simp
    | some y => simp

theorem sumOver_filter (p : α → Bool) (xs : List α) :
    sumOver f (xs.filter p) = sumOver (fun x => if p x then f x else 0) xs := by
  induction xs with
  | nil => rfl
  | cons x xs ih =>
    rw [List.filter_cons, sumOver_cons, ← ih]
    cases p x with
    | false => simp
    | true => simp

/-- Of distinct members at most one is the one looked for. -/
theorem sumOver_single [DecidableEq α] {xs : List α} (hnodup : xs.Nodup) (a : α) :
    sumOver (fun x => if x = a then f x else 0) xs = if a ∈ xs then f a else 0 := by
  induction xs with
  | nil => rfl
  | cons x xs ih =>
    rw [List.nodup_cons] at hnodup
    rw [sumOver_cons, ih hnodup.2]
    by_cases hx : x = a
    · subst hx
      simp [hnodup.1]
    · simp [hx, Ne.symm hx]

end Sums

/-! ## Partial maps -/

section PartialMap
variable {α β γ : Type} (f : α → Option β)

theorem mapM_cons_eq (a : α) (as : List α) :
    (a :: as).mapM f = (f a).bind fun b => (as.mapM f).map (b :: ·) := by
  rw [List.mapM_cons]
  cases f a with
  | none => rfl
  | some b => cases as.mapM f <;> rfl

theorem isSome_mapM (as : List α) : (as.mapM f).isSome = as.all fun a => (f a).isSome := by
  induction as with
  | nil => rfl
  | cons a as ih =>
    rw [mapM_cons_eq, List.all_cons, ← ih]
    cases f a with
    | none => rfl
    | some b => rw [Option.bind_some, Option.isSome_map, Option.isSome_some, Bool.true_and]

theorem mapM_map (g : β → γ) (as : List α) :
    (as.mapM fun a => (f a).map g) = (as.mapM f).map (List.map g) := by
  induction as with
  | nil => rfl
  | cons a as ih =>
    rw [mapM_cons_eq, mapM_cons_eq, ih]
    cases f a with
    | none => rfl
    | some b => cases as.mapM f <;> rfl

variable {f}

theorem forall₂_of_mapM {as : List α} {bs : List β} (h : as.mapM f = some bs) :
    List.Forall₂ (fun a b => f a = some b) as bs := by
  induction as generalizing bs with
  | nil =>
    obtain rfl := Option.some.inj h
    exact .nil
  | cons a as ih =>
    rw [mapM_cons_eq, Option.bind_eq_some_iff] at h
    obtain ⟨b, hb, hmap⟩ := h
    obtain ⟨bs, hbs, rfl⟩ := Option.map_eq_some_iff.mp hmap
    exact .cons hb (ih hbs)

end PartialMap

end QueryCraft
