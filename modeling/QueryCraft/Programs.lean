import Mathlib.Data.List.Basic

/-! # Programs that talk to their surroundings

A `Program` ends with a result or issues a command and goes on with the reply to it.
Nothing is said about the surroundings: a run is a list of exchanges, and every reply
that the type of the command allows can occur in one.

A `Monitor` watches the exchanges of a run.  It has a state of its own, says which
commands are allowed in a state, and moves on with every reply.  A program `Follows` a
monitor when it only issues commands that are allowed, whatever it is answered, and
ends in a monitor state that fits its result.  Because `Follows` looks at one exchange
at a time, it can be used for complete runs (`Follows.accepts`) and for programs that
run interleaved with others.

A `Routine` is a program with local variables and exceptions.  The variables keep their
values when an exception is raised, as they do in a language with mutable locals.
`Ensures` is a Hoare triple for routines with one postcondition for values and one for
exceptions.
-/
namespace QueryCraft

/-- A program over commands `C`, where `R c` is the type of replies to `c`. -/
inductive Program (C : Type) (R : C → Type) (α : Type) where
  | done (result : α)
  | call (command : C) (next : R command → Program C R α)

/-- A command and the reply to it. -/
structure Exchange {C : Type} (R : C → Type) where
  command : C
  reply : R command

/-- A state machine that watches exchanges. -/
structure Monitor {C : Type} (R : C → Type) (G : Type) where
  /-- The command may be issued in this state. -/
  allows : G → C → Prop
  /-- The state after an exchange. -/
  advance : G → (c : C) → R c → G

variable {C : Type} {R : C → Type} {G H S E α β : Type}

namespace Program

/-- One program after another. -/
protected def bind : Program C R α → (α → Program C R β) → Program C R β
  | done a, f => f a
  | call c next, f => call c fun r => (next r).bind f

instance : Monad (Program C R) where
  pure := done
  bind := Program.bind

/-- A single command. -/
def issue (c : C) : Program C R (R c) := call c done

/-! ## Runs -/

/-- The complete runs of a program, with their exchanges and their results. -/
inductive Runs : Program C R α → List (Exchange R) → α → Prop where
  | done (a : α) : Runs (.done a) [] a
  | call {c : C} {next : R c → Program C R α} {trace : List (Exchange R)} {a : α} (r : R c) :
      Runs (next r) trace a → Runs (.call c next) (⟨c, r⟩ :: trace) a

/-- The run in surroundings that answer by what has been exchanged before. -/
def runWith (answer : List (Exchange R) → (c : C) → R c) :
    List (Exchange R) → Program C R α → List (Exchange R) × α
  | past, .done a => (past.reverse, a)
  | past, .call c next => runWith answer (⟨c, answer past c⟩ :: past) (next (answer past c))

theorem runs_runWith (answer : List (Exchange R) → (c : C) → R c) (p : Program C R α)
    (past : List (Exchange R)) :
    ∃ trace, (runWith answer past p).1 = past.reverse ++ trace ∧
      Runs p trace (runWith answer past p).2 := by
  induction p generalizing past with
  | done a => exact ⟨[], by simp [runWith], .done a⟩
  | call c next ih =>
    obtain ⟨trace, htrace, hruns⟩ := ih (answer past c) (⟨c, answer past c⟩ :: past)
    refine ⟨⟨c, answer past c⟩ :: trace, ?_, .call _ hruns⟩
    rw [runWith, htrace, List.reverse_cons, List.append_assoc]
    rfl

/-- What surroundings produce from the start is a run. -/
theorem runs_of_runWith {answer : List (Exchange R) → (c : C) → R c} {p : Program C R α}
    {trace : List (Exchange R)} {a : α} (h : runWith answer [] p = (trace, a)) :
    Runs p trace a := by
  obtain ⟨trace', htrace, hruns⟩ := runs_runWith answer p []
  rw [h] at htrace hruns
  obtain rfl : trace = trace' := htrace
  exact hruns

end Program

/-! ## Monitors -/

namespace Monitor

/-- The state after a list of exchanges. -/
def after (M : Monitor R G) (g : G) (trace : List (Exchange R)) : G :=
  trace.foldl (fun g e => M.advance g e.command e.reply) g

/-- Every command of the list was allowed when it was issued. -/
def Accepts (M : Monitor R G) : G → List (Exchange R) → Prop
  | _, [] => True
  | g, e :: trace => M.allows g e.command ∧ M.Accepts (M.advance g e.command e.reply) trace

theorem after_append (M : Monitor R G) (g : G) (xs ys : List (Exchange R)) :
    M.after g (xs ++ ys) = M.after (M.after g xs) ys :=
  List.foldl_append

theorem accepts_append {M : Monitor R G} {g : G} {xs ys : List (Exchange R)} :
    M.Accepts g (xs ++ ys) ↔ M.Accepts g xs ∧ M.Accepts (M.after g xs) ys := by
  induction xs generalizing g with
  | nil => simp [Accepts, after]
  | cons e xs ih =>
    rw [List.cons_append, Accepts, ih, Accepts, and_assoc]
    rfl

/-- What a monitor always asks of a command holds of every command it accepts. -/
theorem Accepts.forall_mem {M : Monitor R G} {P : C → Prop} (hP : ∀ g c, M.allows g c → P c)
    {g : G} {trace : List (Exchange R)} (h : M.Accepts g trace) : ∀ e ∈ trace, P e.command := by
  induction trace generalizing g with
  | nil => simp
  | cons e trace ih =>
    obtain ⟨hallowed, hrest⟩ := h
    exact List.forall_mem_cons.mpr ⟨hP g e.command hallowed, ih hrest⟩

end Monitor

/-- The program issues only commands that are allowed, and ends in a state that fits its
result. -/
def Follows (M : Monitor R G) (post : α → G → Prop) : G → Program C R α → Prop
  | g, .done a => post a g
  | g, .call c next => M.allows g c ∧ ∀ r, Follows M post (M.advance g c r) (next r)

namespace Follows
variable {M : Monitor R G} {post : α → G → Prop} {g : G} {p : Program C R α}

/-- **Complete runs.**  A program that follows a monitor is accepted by it. -/
theorem accepts (h : Follows M post g p) {trace : List (Exchange R)} {a : α}
    (hruns : p.Runs trace a) : M.Accepts g trace ∧ post a (M.after g trace) := by
  induction hruns generalizing g with
  | done a => exact ⟨trivial, h⟩
  | call r _ ih =>
    obtain ⟨hallowed, hnext⟩ := h
    obtain ⟨haccepts, hpost⟩ := ih (hnext r)
    exact ⟨⟨hallowed, haccepts⟩, hpost⟩

theorem mono {post' : α → G → Prop} (h : Follows M post g p)
    (himp : ∀ a g, post a g → post' a g) : Follows M post' g p := by
  induction p generalizing g with
  | done a => exact himp a g h
  | call c next ih => exact ⟨h.1, fun r => ih r (h.2 r)⟩

theorem bind {f : α → Program C R β} {post' : β → G → Prop} (h : Follows M post g p)
    (hf : ∀ a g, post a g → Follows M post' g (f a)) : Follows M post' g (p.bind f) := by
  induction p generalizing g with
  | done a => exact hf a g h
  | call c next ih => exact ⟨h.1, fun r => ih r (h.2 r)⟩

/-- **Change of monitor.**  A program that follows one monitor follows every monitor that
stays related to it. -/
theorem simulate {N : Monitor R H} {rel : G → H → Prop} {h : H} (hp : Follows M post g p)
    (hrel : rel g h)
    (hstep : ∀ g h c, rel g h → M.allows g c →
      N.allows h c ∧ ∀ r, rel (M.advance g c r) (N.advance h c r)) :
    Follows N (fun a h => ∃ g, rel g h ∧ post a g) h p := by
  induction p generalizing g h with
  | done a => exact ⟨g, hrel, hp⟩
  | call c next ih =>
    obtain ⟨hallowed, hadvance⟩ := hstep g h c hrel hp.1
    exact ⟨hallowed, fun r => ih r (hp.2 r) (hadvance r)⟩

/-- What another monitor knows about the results. -/
theorem alongside {N : Monitor R H} {post' : α → H → Prop} {h : H} (hp : Follows M post g p)
    (hp' : Follows N post' h p) : Follows M (fun a g => post a g ∧ ∃ h, post' a h) g p := by
  induction p generalizing g h with
  | done a => exact ⟨hp, h, hp'⟩
  | call c next ih => exact ⟨hp.1, fun r => ih r (hp.2 r) (hp'.2 r)⟩

/-- Every program keeps an invariant that every command keeps. -/
theorem keep {inv : G → Prop} (hkeep : ∀ g c, inv g → M.allows g c ∧ ∀ r, inv (M.advance g c r))
    (hg : inv g) : Follows M (fun _ => inv) g p := by
  induction p generalizing g with
  | done a => exact hg
  | call c next ih => exact ⟨(hkeep g c hg).1, fun r => ih r ((hkeep g c hg).2 r)⟩

end Follows

/-! ## Routines -/

/-- A program with local variables `S` and exceptions `E`. -/
abbrev Routine (C : Type) (R : C → Type) (S E : Type) : Type → Type :=
  ExceptT E (StateT S (Program C R))

/-- Issues a command. -/
def Routine.issue (c : C) : Routine C R S E (R c) :=
  ExceptT.lift (StateT.lift (Program.issue c))

/-- `try: body finally: cleanup`. -/
def Routine.ensuring (body : Routine C R S E α) (cleanup : Routine C R S E Unit) :
    Routine C R S E α := do
  let result ← tryCatch (body >>= fun a => pure (Except.ok a)) (fun e => pure (.error e))
  cleanup
  match result with
  | .ok a => pure a
  | .error e => throw e

/-- Both ways out of a routine. -/
def Ended (post : α → G → S → Prop) (raises : E → G → S → Prop) : Except E α × S → G → Prop
  | (.ok a, s), g => post a g s
  | (.error e, s), g => raises e g s

/-- A triple: from a state that meets `pre` the routine follows the monitor, and it ends
with a value that meets `post` or an exception that meets `raises`. -/
def Ensures (M : Monitor R G) (pre : G → S → Prop) (m : Routine C R S E α)
    (post : α → G → S → Prop) (raises : E → G → S → Prop) : Prop :=
  ∀ g s, pre g s → Follows M (Ended post raises) g (m s)

namespace Ensures
variable {M : Monitor R G} {pre pre' : G → S → Prop} {m : Routine C R S E α}
variable {post post' : α → G → S → Prop} {raises raises' : E → G → S → Prop}

theorem ret {a : α} (h : ∀ g s, pre g s → post a g s) :
    Ensures M pre (pure a : Routine C R S E α) post raises := h

theorem raise {e : E} (h : ∀ g s, pre g s → raises e g s) :
    Ensures M pre (throw e : Routine C R S E α) post raises := h

theorem read {post : S → G → S → Prop} (h : ∀ g s, pre g s → post s g s) :
    Ensures M pre (get : Routine C R S E S) post raises := h

theorem update {f : S → S} {post : Unit → G → S → Prop} (h : ∀ g s, pre g s → post () g (f s)) :
    Ensures M pre (modify f : Routine C R S E Unit) post raises := h

/-- A read that keeps the precondition. -/
theorem readKeep : Ensures M pre (get : Routine C R S E S) (fun _ => pre) raises :=
  read fun _ _ h => h

/-- An update that keeps the precondition. -/
theorem updateKeep {f : S → S} (h : ∀ g s, pre g s → pre g (f s)) :
    Ensures M pre (modify f : Routine C R S E Unit) (fun _ => pre) raises :=
  update h

theorem issue {c : C} {post : R c → G → S → Prop} (hallowed : ∀ g s, pre g s → M.allows g c)
    (h : ∀ g s r, pre g s → post r (M.advance g c r) s) :
    Ensures M pre (Routine.issue c) post raises :=
  fun g s hg => ⟨hallowed g s hg, fun r => h g s r hg⟩

/-- A fact of the precondition that does not look at the state. -/
theorem assume {p : Prop} (h : p → Ensures M pre m post raises) :
    Ensures M (fun g s => p ∧ pre g s) m post raises :=
  fun g s hg => h hg.1 g s hg.2

theorem mono (h : Ensures M pre m post raises) (hpre : ∀ g s, pre' g s → pre g s)
    (hpost : ∀ a g s, post a g s → post' a g s) (hraises : ∀ e g s, raises e g s → raises' e g s) :
    Ensures M pre' m post' raises' := by
  intro g s hg
  refine (h g s (hpre g s hg)).mono ?_
  rintro ⟨e | a, s'⟩ g' hend
  · exact hraises _ _ _ hend
  · exact hpost _ _ _ hend

theorem bind {f : α → Routine C R S E β} {post' : β → G → S → Prop}
    (h : Ensures M pre m post raises) (hf : ∀ a, Ensures M (post a) (f a) post' raises) :
    Ensures M pre (m >>= f) post' raises := by
  intro g s hg
  refine (h g s hg).bind ?_
  rintro ⟨e | a, s'⟩ g' hend
  · exact hend
  · exact hf a g' s' hend

/-- The triple for another monitor that stays related. -/
theorem simulate {N : Monitor R H} {rel : G → H → Prop} (h : Ensures M pre m post raises)
    (hstep : ∀ g h c, rel g h → M.allows g c →
      N.allows h c ∧ ∀ r, rel (M.advance g c r) (N.advance h c r)) :
    Ensures N (fun h s => ∃ g, rel g h ∧ pre g s) m (fun a h s => ∃ g, rel g h ∧ post a g s)
      (fun e h s => ∃ g, rel g h ∧ raises e g s) := by
  rintro k s ⟨g, hrel, hg⟩
  refine ((h g s hg).simulate hrel hstep).mono ?_
  rintro ⟨e | a, s'⟩ k' ⟨g', hrel', hend⟩
  · exact ⟨g', hrel', hend⟩
  · exact ⟨g', hrel', hend⟩

/-- From a monitor without a state to one whose states keep an invariant. -/
theorem simulateInvariant {M : Monitor R Unit} {N : Monitor R H} {inv : H → Prop} {pre : S → Prop}
    {post : α → S → Prop} {raises : E → S → Prop}
    (h : Ensures M (fun _ => pre) m (fun a _ => post a) (fun e _ => raises e))
    (hstep : ∀ h c, inv h → M.allows () c → N.allows h c ∧ ∀ r, inv (N.advance h c r)) :
    Ensures N (fun h s => inv h ∧ pre s) m (fun a h s => inv h ∧ post a s)
      (fun e h s => inv h ∧ raises e s) := by
  have hsim := h.simulate (show ∀ (_ : Unit) h c, inv h → M.allows () c →
    N.allows h c ∧ ∀ r, inv (N.advance h c r) from fun _ => hstep)
  refine hsim.mono ?_ ?_ ?_
  · rintro h s ⟨hinv, hpre⟩
    exact ⟨(), hinv, hpre⟩
  · rintro a h s ⟨-, hinv, hpost⟩
    exact ⟨hinv, hpost⟩
  · rintro e h s ⟨-, hinv, hraises⟩
    exact ⟨hinv, hraises⟩

/-- What a triple for a monitor without a state says about the locals. -/
theorem alongside {N : Monitor R Unit} {pre' : S → Prop} {post' : α → S → Prop}
    {raises' : E → S → Prop} (h : Ensures M pre m post raises)
    (h' : Ensures N (fun _ => pre') m (fun a _ => post' a) (fun e _ => raises' e)) :
    Ensures M (fun g s => pre g s ∧ pre' s) m (fun a g s => post a g s ∧ post' a s)
      (fun e g s => raises e g s ∧ raises' e s) := by
  rintro g s ⟨hg, hs⟩
  refine ((h g s hg).alongside (h' () s hs)).mono ?_
  rintro ⟨e | a, s'⟩ g' ⟨hend, _, hend'⟩
  · exact ⟨hend, hend'⟩
  · exact ⟨hend, hend'⟩

/-- Every routine keeps an invariant that every command keeps. -/
theorem keep {inv : G → Prop} (hkeep : ∀ g c, inv g → M.allows g c ∧ ∀ r, inv (M.advance g c r)) :
    Ensures M (fun g _ => inv g) m (fun _ g _ => inv g) (fun _ g _ => inv g) := by
  intro g s hg
  refine (Follows.keep hkeep hg).mono ?_
  rintro ⟨e | a, s'⟩ g' hinv
  · exact hinv
  · exact hinv

/-- Two triples for one routine. -/
theorem or (h : Ensures M pre m post raises) (h' : Ensures M pre' m post' raises') :
    Ensures M (fun g s => pre g s ∨ pre' g s) m (fun a g s => post a g s ∨ post' a g s)
      (fun e g s => raises e g s ∨ raises' e g s) := by
  rintro g s (hg | hg)
  · exact h.mono (fun _ _ h => h) (fun _ _ _ h => .inl h) (fun _ _ _ h => .inl h) g s hg
  · exact h'.mono (fun _ _ h => h) (fun _ _ _ h => .inr h) (fun _ _ _ h => .inr h) g s hg

/-- `try: m except e: handle e`. -/
theorem tryCatch {handle : E → Routine C R S E α} (h : Ensures M pre m post raises)
    (hhandle : ∀ e, Ensures M (raises e) (handle e) post raises') :
    Ensures M pre (tryCatch m handle) post raises' := by
  intro g s hg
  refine (h g s hg).bind ?_
  rintro ⟨e | a, s'⟩ g' hend
  · exact hhandle e g' s' hend
  · exact hend

/-- `try: m finally: cleanup`, for a cleanup that takes each way out of `m` to its own
postcondition. -/
theorem ensuring {cleanup : Routine C R S E Unit} (h : Ensures M pre m post raises)
    (hok : ∀ a, Ensures M (post a) cleanup (fun _ => post' a) raises')
    (herror : ∀ e, Ensures M (raises e) cleanup (fun _ => raises' e) raises') :
    Ensures M pre (m.ensuring cleanup) post' raises' := by
  have hresult : Ensures M pre
      (MonadExcept.tryCatch (m >>= fun a => pure (Except.ok a)) (fun e => pure (.error e)))
      (fun (r : Except E α) g s => Ended post raises (r, s) g) raises' :=
    tryCatch (bind h fun a => ret fun _ _ hpost => hpost) fun e => ret fun _ _ hraises => hraises
  refine bind hresult fun r => ?_
  cases r with
  | ok a => exact bind (hok a) fun _ => ret fun _ _ hpost => hpost
  | error e => exact bind (herror e) fun _ => raise fun _ _ hraises => hraises

end Ensures

end QueryCraft
