import Mathlib.Data.List.Basic

/-! # Lists checked in the state their prefix left

A list is *threaded* when every element is accepted in a state that only the
element before it determines: `ok s a` says that `a` is accepted in state `s`,
and `next a` is the state `a` leaves for the element after it.  Hash chains,
write-ahead logs and numbered pages all have this shape.  Because the state
after a non-empty prefix is a function of the prefix's last element, threading
splits over append (`threaded_append`) and a suffix of a threaded list is
threaded from its predecessor's state.
-/
namespace QueryCraft

variable {σ α : Type}

/-- Every element of the list is accepted in the state the list before it left. -/
def Threaded (ok : σ → α → Prop) (next : α → σ) : σ → List α → Prop
  | _, [] => True
  | s, a :: as => ok s a ∧ Threaded ok next (next a) as

/-- The state a list leaves: its last element's, or the initial one. -/
def stateAfter (next : α → σ) (s : σ) (as : List α) : σ :=
  as.foldl (fun _ a => next a) s

section Lemmas
variable {ok ok' : σ → α → Prop} {next : α → σ} {s : σ}

@[simp] theorem threaded_nil : Threaded ok next s [] := trivial

@[simp] theorem threaded_cons {a : α} {as : List α} :
    Threaded ok next s (a :: as) ↔ ok s a ∧ Threaded ok next (next a) as := Iff.rfl

@[simp] theorem stateAfter_nil : stateAfter next s [] = s := rfl

@[simp] theorem stateAfter_concat (as : List α) (a : α) :
    stateAfter next s (as ++ [a]) = next a := by
  simp [stateAfter]

theorem stateAfter_cons (a : α) (as : List α) :
    stateAfter next s (a :: as) = stateAfter next (next a) as := rfl

theorem threaded_append {as bs : List α} :
    Threaded ok next s (as ++ bs) ↔
      Threaded ok next s as ∧ Threaded ok next (stateAfter next s as) bs := by
  induction as generalizing s with
  | nil => simp
  | cons a as ih =>
    rw [List.cons_append, threaded_cons, threaded_cons, ih, stateAfter_cons, and_assoc]

/-- Threading is monotone in what is accepted, member by member. -/
theorem Threaded.imp {as : List α} (h : Threaded ok next s as)
    (himp : ∀ s a, a ∈ as → ok s a → ok' s a) : Threaded ok' next s as := by
  induction as generalizing s with
  | nil => trivial
  | cons a as ih =>
    exact ⟨himp s a (by simp) h.1, ih h.2 (fun s b hb => himp s b (by simp [hb]))⟩

end Lemmas

end QueryCraft
