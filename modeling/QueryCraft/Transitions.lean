import Mathlib.Data.Option.Basic

/-! # Runs of a transition system

A system is a partial step function on states.  `Reaches` collects the states
that a run reaches when every step meets a condition on the state it is taken
from; with the condition `True` these are all reachable states.  `runSteps`
executes a given list of actions and checks the condition along it.
-/
namespace QueryCraft

variable {S A : Type*} (step : S → A → Option S) (ok : S → A → Prop)

/-- The states reached from `s` by steps that meet `ok`. -/
inductive Reaches (s : S) : S → Prop where
  | refl : Reaches s s
  | step {t u : S} (a : A) : Reaches s t → ok t a → step t a = some u → Reaches s u

/-- Execution of a list of actions; `none` once one of them is not enabled or does
not meet the condition. -/
def runSteps [∀ s a, Decidable (ok s a)] : S → List A → Option S
  | s, [] => some s
  | s, a :: as => if ok s a then (step s a).bind fun t => runSteps t as else none

variable {step ok} {s t u : S}

/-- An invariant kept by every step that meets the condition holds of every state
reached. -/
theorem Reaches.invariant {I : S → Prop} (h0 : I s)
    (hstep : ∀ t a u, I t → ok t a → step t a = some u → I u) (h : Reaches step ok s t) : I t := by
  induction h with
  | refl => exact h0
  | step a _ hok hs ih => exact hstep _ a _ ih hok hs

theorem Reaches.trans (hst : Reaches step ok s t) (htu : Reaches step ok t u) :
    Reaches step ok s u := by
  induction htu with
  | refl => exact hst
  | step a _ hok hs ih => exact ih.step a hok hs

theorem reaches_of_runSteps [∀ s a, Decidable (ok s a)] {as : List A}
    (h : runSteps step ok s as = some t) : Reaches step ok s t := by
  induction as generalizing s with
  | nil =>
    obtain rfl := Option.some.inj h
    exact .refl
  | cons a as ih =>
    rw [runSteps] at h
    split at h
    · rename_i hok
      obtain ⟨u, hu, hrest⟩ := Option.bind_eq_some_iff.mp h
      exact (Reaches.refl.step a hok hu).trans (ih hrest)
    · cases h

/-! ## Machines that reply

A machine replies to every call.  Two machines in related states give the same replies to all
calls if they do so to every single call and are in related states afterwards.
-/

/-- The replies to a list of calls, and the state after them. -/
def transcript {R : Type*} (perform : S → A → R × S) : S → List A → List R × S
  | s, [] => ([], s)
  | s, a :: as =>
    ((perform s a).1 :: (transcript perform (perform s a).2 as).1,
      (transcript perform (perform s a).2 as).2)

section
variable {R T : Type*} {perform : S → A → R × S} {perform' : T → A → R × T} {Rel : S → T → Prop}
  {P : A → Prop}

theorem transcript_simulation
    (hstep : ∀ s t a, Rel s t → P a →
      (perform s a).1 = (perform' t a).1 ∧ Rel (perform s a).2 (perform' t a).2) :
    ∀ (as : List A) {s : S} {t : T}, Rel s t → (∀ a ∈ as, P a) →
      (transcript perform s as).1 = (transcript perform' t as).1 ∧
        Rel (transcript perform s as).2 (transcript perform' t as).2
  | [], _, _, hrel, _ => ⟨rfl, hrel⟩
  | a :: as, s, t, hrel, hP => by
    obtain ⟨hreply, hnext⟩ := hstep s t a hrel (hP a List.mem_cons_self)
    obtain ⟨hreplies, hrel'⟩ := transcript_simulation hstep as hnext fun b hb =>
      hP b (List.mem_cons_of_mem _ hb)
    exact ⟨congrArg₂ List.cons hreply hreplies, hrel'⟩

theorem transcript_invariant {I : S → Prop} (hstep : ∀ s a, I s → P a → I (perform s a).2) :
    ∀ (as : List A) {s : S}, I s → (∀ a ∈ as, P a) → I (transcript perform s as).2
  | [], _, h, _ => h
  | a :: as, s, h, hP => transcript_invariant hstep as (hstep s a h (hP a List.mem_cons_self))
      fun b hb => hP b (List.mem_cons_of_mem _ hb)

end

end QueryCraft
