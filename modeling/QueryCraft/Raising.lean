import Mathlib.Data.List.Basic

/-! # Computations that raise

`Except` as a computation that returns a value or raises: when a sequence of computations
returns, every part has returned.
-/
namespace QueryCraft

variable {α β ε σ : Type}

theorem bind_eq_ok {x : Except ε α} {f : α → Except ε β} {b : β} :
    (x >>= f) = .ok b ↔ ∃ a, x = .ok a ∧ f a = .ok b := by
  rcases x with e | a
  · simp [bind, Except.bind]
  · simp [bind, Except.bind]

theorem pure_eq_ok {a b : α} : (pure a : Except ε α) = .ok b ↔ a = b := by
  simp [pure, Except.pure]

/-- A condition under which a computation raises. -/
theorem throw_if_eq_ok {p : Prop} [Decidable p] {e : ε} {u : PUnit} :
    (if p then throw e else pure PUnit.unit : Except ε PUnit) = .ok u ↔ ¬ p := by
  by_cases hp : p
  · simp [hp, throw, throwThe, MonadExceptOf.throw]
  · simp [hp, pure, Except.pure]

/-- A computation that raises unless a condition holds. -/
theorem if_ok_eq_ok {p : Prop} [Decidable p] {e : ε} {a b : α} :
    (if p then .ok a else .error e : Except ε α) = .ok b ↔ p ∧ a = b := by
  by_cases hp : p
  · simp [hp]
  · simp [hp]

/-! ## What is raised -/

/-- Whatever the computation raises has the property. -/
def RaisesOnly (P : ε → Prop) (x : Except ε α) : Prop := ∀ e, x = .error e → P e

section
variable {P : ε → Prop}

theorem raisesOnly_ok (a : α) : RaisesOnly P (.ok a) := fun _ h => nomatch h

theorem raisesOnly_error {e : ε} (h : P e) : RaisesOnly P (.error e : Except ε α) := by
  rintro _ ⟨⟩
  exact h

theorem RaisesOnly.bind {x : Except ε α} {f : α → Except ε β} (hx : RaisesOnly P x)
    (hf : ∀ a, RaisesOnly P (f a)) : RaisesOnly P (x >>= f) := by
  cases x with
  | error e => exact fun _ h => hx _ (Except.error.inj h ▸ rfl)
  | ok a => exact hf a

theorem raisesOnly_ite {p : Prop} [Decidable p] {x y : Except ε α} (hx : RaisesOnly P x)
    (hy : RaisesOnly P y) : RaisesOnly P (if p then x else y) := by
  split
  · exact hx
  · exact hy

theorem raisesOnly_foldlM {f : σ → α → Except ε σ} (hf : ∀ s a, RaisesOnly P (f s a)) :
    ∀ (as : List α) (s : σ), RaisesOnly P (as.foldlM f s)
  | [], s => raisesOnly_ok s
  | a :: as, s => by
    rw [List.foldlM_cons]
    exact (hf s a).bind fun t => raisesOnly_foldlM hf as t

end

/-! ## Two computations in step -/

/-- Both return, with related values, or both raise, with related exceptions. -/
inductive InStep (R : α → β → Prop) (E : ε → ε → Prop) : Except ε α → Except ε β → Prop where
  | ok {a : α} {b : β} (h : R a b) : InStep R E (.ok a) (.ok b)
  | error {e e' : ε} (h : E e e') : InStep R E (.error e) (.error e')

section
variable {R : α → β → Prop} {E : ε → ε → Prop}

theorem InStep.bind {γ δ : Type} {S : γ → δ → Prop} {x : Except ε α} {y : Except ε β}
    {f : α → Except ε γ} {g : β → Except ε δ} (hxy : InStep R E x y)
    (hfg : ∀ a b, R a b → InStep S E (f a) (g b)) : InStep S E (x >>= f) (y >>= g) := by
  cases hxy with
  | ok h => exact hfg _ _ h
  | error h => exact .error h

theorem inStep_ite {p : Prop} [Decidable p] {x x' : Except ε α} {y y' : Except ε β}
    (hx : InStep R E x y) (hx' : InStep R E x' y') :
    InStep R E (if p then x else x') (if p then y else y') := by
  split
  · exact hx
  · exact hx'

theorem inStep_foldlM {γ : Type} {f : α → γ → Except ε α} {g : β → γ → Except ε β}
    (hfg : ∀ a b c, R a b → InStep R E (f a c) (g b c)) :
    ∀ (cs : List γ) {a : α} {b : β}, R a b → InStep R E (cs.foldlM f a) (cs.foldlM g b)
  | [], _, _, h => .ok h
  | c :: cs, a, b, h => by
    rw [List.foldlM_cons, List.foldlM_cons]
    exact (hfg a b c h).bind fun _ _ h' => inStep_foldlM hfg cs h'

end

end QueryCraft
