import Mathlib.Logic.Function.Basic
import QueryCraft.Transitions

/-! # The processing lock

An operation on a session first reserves the session in a table of its own process and then
sets a key in Redis, with a token of its own as the value.  It gives both up by comparing the
token: a script deletes the key if it holds the token, and the entry of the table is removed
if it does.

Any number of operations run here in any number of processes.  A call of Redis may raise
whether it took place or not, and one that raised may still take place later.  Keys may expire
at any time.  `processing_lock_safe` collects what holds in every run.
-/
namespace QueryCraft.ProcessingLock

/-! ## The table and the key -/

/-- `_inflight_owners` of a process: by the identity of the client and the key. -/
abbrev Inflight := Nat × String → Option String

/-- The lock keys of Redis. -/
abbrev Locks := String → Option String

/-- The key of a session. -/
def lockKey (sessionId : String) : String := "processing_lock:" ++ sessionId

/-- `_reserve_inflight_owner`. -/
def reserveInflightOwner (table : Inflight) (client : Nat) (key owner : String) :
    Bool × Inflight :=
  if table (client, key) ≠ none then (false, table)
  else (true, Function.update table (client, key) (some owner))

/-- `_release_inflight_owner` with an owner. -/
def releaseInflightOwner (table : Inflight) (client : Nat) (key owner : String) : Inflight :=
  if table (client, key) = some owner then Function.update table (client, key) none else table

/-- `SET` with `NX`: whether the key was set. -/
def setNx (locks : Locks) (key owner : String) : Bool × Locks :=
  if locks key = none then (true, Function.update locks key (some owner)) else (false, locks)

/-- The script of `release_lock_if_owned`. -/
def compareDelete (locks : Locks) (key owner : String) : Locks :=
  if locks key = some owner then Function.update locks key none else locks

/-! ## Operations -/

/-- The operations of a deployment, each with its process, client, session and token. -/
structure Deployment (Op : Type) where
  worker : Op → Nat
  client : Op → Nat
  session : Op → String
  owner : Op → String
  owner_injective : Function.Injective owner

/-- How far an operation is. -/
inductive Phase where
  | idle
  /-- `acquire_lock` has the reservation and is about to set the key. -/
  | reserved
  /-- The key was not set, or the call raised; the reservation is still there. -/
  | refused
  /-- `acquire_lock` has the owner token to return. -/
  | holding
  /-- `release_lock_if_owned` has called the script; the reservation is still there. -/
  | released
  | ended
deriving DecidableEq, Repr

/-- What becomes of a call of Redis. -/
inductive Outcome where
  | returns
  /-- The call raises after it took place. -/
  | raisesApplied
  /-- The call raises and never takes place. -/
  | raisesLost
  /-- The call raises and may take place later. -/
  | raisesDelayed
deriving DecidableEq, Repr

/-- The call takes place at once. -/
def Outcome.applied : Outcome → Bool
  | .returns => true
  | .raisesApplied => true
  | _ => false

/-- A call that raised and may still take place. -/
inductive Command where
  | setNx
  | compareDelete
deriving DecidableEq, Repr

/-- A command of an operation takes place. -/
def Command.apply (locks : Locks) (key owner : String) : Command → Locks
  | .setNx => (ProcessingLock.setNx locks key owner).2
  | .compareDelete => ProcessingLock.compareDelete locks key owner

section
variable {Op : Type}

/-- The state of all processes and of Redis. -/
structure State (Op : Type) where
  inflight : Nat → Inflight
  locks : Locks
  phase : Op → Phase
  /-- Calls that raised and may still take place. -/
  delayed : Op → Option Command

/-- No operation has started.  Redis may hold locks of earlier ones. -/
def State.initial (locks : Locks) : State Op :=
  ⟨fun _ _ => none, locks, fun _ => .idle, fun _ => none⟩

/-- The atomic steps. -/
inductive Action (Op : Type) where
  | reserve (op : Op)
  | setNx (op : Op) (outcome : Outcome)
  | compareDelete (op : Op) (outcome : Outcome)
  | unreserve (op : Op)
  /-- A call that raised takes place. -/
  | deliver (op : Op)
  | expire (key : String)

/-- A key expires. -/
def Action.isExpiry : Action Op → Bool
  | .expire _ => true
  | _ => false

variable [DecidableEq Op]

/-- The call of an operation in a state: what it does at once, and what may follow. -/
def State.call (s : State Op) (op : Op) (key owner : String) (command : Command)
    (outcome : Outcome) (next : Phase) : State Op where
  inflight := s.inflight
  locks := if outcome.applied then command.apply s.locks key owner else s.locks
  phase := Function.update s.phase op next
  delayed :=
    if outcome = .raisesDelayed then Function.update s.delayed op (some command) else s.delayed

namespace Deployment
variable (d : Deployment Op)

/-- The key of an operation. -/
def key (op : Op) : String := lockKey (d.session op)

/-- One step. -/
def step (s : State Op) : Action Op → Option (State Op)
  | .reserve op =>
    if s.phase op = .idle then
      let (reserved, table) :=
        reserveInflightOwner (s.inflight (d.worker op)) (d.client op) (d.key op) (d.owner op)
      some { s with
        inflight := Function.update s.inflight (d.worker op) table
        phase := Function.update s.phase op (if reserved then .reserved else .ended) }
    else none
  | .setNx op outcome =>
    if s.phase op = .reserved then
      -- only a call that returns tells the operation that it has the lock
      let acquired := outcome = .returns && (setNx s.locks (d.key op) (d.owner op)).1
      some (s.call op (d.key op) (d.owner op) .setNx outcome
        (if acquired then .holding else .refused))
    else none
  | .compareDelete op outcome =>
    if s.phase op = .holding then
      some (s.call op (d.key op) (d.owner op) .compareDelete outcome .released)
    else none
  | .unreserve op =>
    if s.phase op = .refused ∨ s.phase op = .released then
      some { s with
        inflight := Function.update s.inflight (d.worker op)
          (releaseInflightOwner (s.inflight (d.worker op)) (d.client op) (d.key op) (d.owner op))
        phase := Function.update s.phase op .ended }
    else none
  | .deliver op =>
    (s.delayed op).map fun command =>
      { s with
        locks := command.apply s.locks (d.key op) (d.owner op)
        delayed := Function.update s.delayed op none }
  | .expire key => some { s with locks := Function.update s.locks key none }

/-- The states of all runs. -/
def Reachable (s : State Op) : Prop :=
  ∃ locks, Reaches d.step (fun _ _ => True) (State.initial locks) s

/-- The states of the runs in which no key expires. -/
def ReachableUnexpired (s : State Op) : Prop :=
  ∃ locks, Reaches d.step (fun _ a => a.isExpiry = false) (State.initial locks) s

end Deployment
end

/-! ## The table and the key after a step -/

section
variable {table : Inflight} {locks : Locks} {client : Nat} {key owner : String}

theorem reserveInflightOwner_eq (table : Inflight) (client : Nat) (key owner : String) :
    reserveInflightOwner table client key owner = (false, table) ∨
      table (client, key) = none ∧ reserveInflightOwner table client key owner =
        (true, Function.update table (client, key) (some owner)) := by
  unfold reserveInflightOwner
  by_cases h : table (client, key) = none
  · exact .inr ⟨h, by rw [if_neg (not_not.mpr h)]⟩
  · exact .inl (by rw [if_pos h])

/-- An entry that is not the owner's own stays. -/
theorem releaseInflightOwner_kept {x : Nat × String} {v : String} (h : table x = some v) :
    releaseInflightOwner table client key owner x = some v ∨ x = (client, key) ∧ v = owner := by
  unfold releaseInflightOwner
  split
  · next hown =>
    by_cases hx : x = (client, key)
    · rw [hx, hown] at h
      exact .inr ⟨hx, (Option.some.inj h).symm⟩
    · rw [Function.update_of_ne hx]
      exact .inl h
  · exact .inl h

/-- What is left was there, and is not the owner's own. -/
theorem releaseInflightOwner_left {x : Nat × String} {v : String}
    (h : releaseInflightOwner table client key owner x = some v) :
    table x = some v ∧ ¬ (x = (client, key) ∧ v = owner) := by
  unfold releaseInflightOwner at h
  split at h
  · by_cases hx : x = (client, key)
    · rw [hx, Function.update_self] at h
      cases h
    · rw [Function.update_of_ne hx] at h
      exact ⟨h, fun hboth => hx hboth.1⟩
  · next hown =>
    refine ⟨h, ?_⟩
    rintro ⟨rfl, rfl⟩
    exact hown h

/-- A command deletes no value but the owner's. -/
theorem Command.apply_kept (command : Command) {k v : String} (h : locks k = some v) :
    command.apply locks key owner k = some v ∨
      command = .compareDelete ∧ k = key ∧ v = owner := by
  cases command with
  | setNx =>
    left
    simp only [Command.apply, ProcessingLock.setNx]
    split
    · next hfree =>
      have hk : k ≠ key := by
        rintro rfl
        rw [hfree] at h
        cases h
      show Function.update locks key (some owner) k = some v
      rw [Function.update_of_ne hk, h]
    · exact h
  | compareDelete =>
    show ProcessingLock.compareDelete locks key owner k = some v ∨ _
    unfold ProcessingLock.compareDelete
    split
    · next hown =>
      by_cases hk : k = key
      · rw [hk, hown] at h
        exact .inr ⟨rfl, hk, (Option.some.inj h).symm⟩
      · rw [Function.update_of_ne hk]
        exact .inl h
    · exact .inl h

theorem setNx_acquired (h : (setNx locks key owner).1 = true) :
    (setNx locks key owner).2 key = some owner := by
  unfold setNx at h ⊢
  split
  · simp
  · next hheld =>
    rw [if_neg hheld] at h
    cases h

end

/-! ## What a step does -/

section
variable {Op : Type} [DecidableEq Op] (d : Deployment Op) {s s' : State Op} {a : Action Op}

/-- The step changes the state in this way. -/
inductive Effect (s : State Op) : Action Op → State Op → Prop where
  | turnedAway {op : Op} (hidle : s.phase op = .idle) :
    Effect s (.reserve op) { s with phase := Function.update s.phase op .ended }
  | reserved {op : Op} (hidle : s.phase op = .idle)
    (hfree : s.inflight (d.worker op) (d.client op, d.key op) = none) :
    Effect s (.reserve op) { s with
      inflight := Function.update s.inflight (d.worker op)
        (Function.update (s.inflight (d.worker op)) (d.client op, d.key op) (some (d.owner op)))
      phase := Function.update s.phase op .reserved }
  | refused {op : Op} {outcome : Outcome} (hphase : s.phase op = .reserved) :
    Effect s (.setNx op outcome) (s.call op (d.key op) (d.owner op) .setNx outcome .refused)
  | acquired {op : Op} (hphase : s.phase op = .reserved)
    (hset : (setNx s.locks (d.key op) (d.owner op)).2 (d.key op) = some (d.owner op)) :
    Effect s (.setNx op .returns) (s.call op (d.key op) (d.owner op) .setNx .returns .holding)
  | released {op : Op} {outcome : Outcome} (hphase : s.phase op = .holding) :
    Effect s (.compareDelete op outcome)
      (s.call op (d.key op) (d.owner op) .compareDelete outcome .released)
  | unreserved {op : Op} (hphase : s.phase op = .refused ∨ s.phase op = .released) :
    Effect s (.unreserve op) { s with
      inflight := Function.update s.inflight (d.worker op)
        (releaseInflightOwner (s.inflight (d.worker op)) (d.client op) (d.key op) (d.owner op))
      phase := Function.update s.phase op .ended }
  | delivered {op : Op} {command : Command} (hdelayed : s.delayed op = some command) :
    Effect s (.deliver op) { s with
      locks := command.apply s.locks (d.key op) (d.owner op)
      delayed := Function.update s.delayed op none }
  | expired {key : String} :
    Effect s (.expire key) { s with locks := Function.update s.locks key none }

variable {d}

theorem effect_of_step (h : d.step s a = some s') : Effect d s a s' := by
  cases a with
  | reserve op =>
    simp only [Deployment.step] at h
    split at h
    · next hidle =>
      rcases reserveInflightOwner_eq (s.inflight (d.worker op)) (d.client op) (d.key op)
        (d.owner op) with htaken | ⟨hfree, hreserved⟩
      · rw [htaken] at h
        obtain rfl := Option.some.inj h
        simp only [Function.update_eq_self]
        exact .turnedAway hidle
      · rw [hreserved] at h
        obtain rfl := Option.some.inj h
        exact .reserved hidle hfree
    · cases h
  | setNx op outcome =>
    simp only [Deployment.step] at h
    split at h
    · next hphase =>
      obtain rfl := Option.some.inj h
      split
      · next hacquired =>
        simp only [Bool.and_eq_true, decide_eq_true_eq] at hacquired
        rw [hacquired.1]
        exact .acquired hphase (setNx_acquired hacquired.2)
      · exact .refused hphase
    · cases h
  | compareDelete op outcome =>
    simp only [Deployment.step] at h
    split at h
    · next hphase =>
      obtain rfl := Option.some.inj h
      exact .released hphase
    · cases h
  | unreserve op =>
    simp only [Deployment.step] at h
    split at h
    · next hphase =>
      obtain rfl := Option.some.inj h
      exact .unreserved hphase
    · cases h
  | deliver op =>
    simp only [Deployment.step] at h
    obtain ⟨command, hcommand, rfl⟩ := Option.map_eq_some_iff.mp h
    exact .delivered hcommand
  | expire key =>
    obtain rfl := Option.some.inj h
    exact .expired

/-- The step is the release of this operation. -/
def Releases (s : State Op) (op : Op) (a : Action Op) : Prop :=
  (∃ outcome, a = .compareDelete op outcome) ∨
    a = .deliver op ∧ s.delayed op = some .compareDelete

/-- A call deletes no lock but the owner's. -/
theorem call_locks_kept {op : Op} {key owner k v : String} {command : Command}
    {outcome : Outcome} {next : Phase} (hv : s.locks k = some v) :
    (s.call op key owner command outcome next).locks k = some v ∨
      command = .compareDelete ∧ k = key ∧ v = owner := by
  simp only [State.call]
  split
  · exact Command.apply_kept command hv
  · exact .inl hv

/-- A lock is deleted by the operation that wrote it, or it expires. -/
theorem lock_kept (h : Effect d s a s') {key v : String} (hv : s.locks key = some v) :
    s'.locks key = some v ∨ a = .expire key ∨
      ∃ op, Releases s op a ∧ key = d.key op ∧ v = d.owner op := by
  cases h with
  | turnedAway => exact .inl hv
  | reserved => exact .inl hv
  | refused =>
    rcases call_locks_kept hv with hkept | ⟨hcommand, -⟩
    · exact .inl hkept
    · cases hcommand
  | acquired =>
    rcases call_locks_kept hv with hkept | ⟨hcommand, -⟩
    · exact .inl hkept
    · cases hcommand
  | released =>
    rcases call_locks_kept hv with hkept | ⟨-, hk, hown⟩
    · exact .inl hkept
    · exact .inr (.inr ⟨_, .inl ⟨_, rfl⟩, hk, hown⟩)
  | unreserved => exact .inl hv
  | @delivered op command hdelayed =>
    have happly : command.apply s.locks (d.key op) (d.owner op) key = some v ∨
        command = .compareDelete ∧ key = d.key op ∧ v = d.owner op := command.apply_kept hv
    rcases happly with hkept | ⟨rfl, hk, hown⟩
    · exact .inl hkept
    · exact .inr (.inr ⟨op, .inr ⟨rfl, hdelayed⟩, hk, hown⟩)
  | @expired k =>
    by_cases hk : key = k
    · exact .inr (.inl (by rw [hk]))
    · refine .inl ?_
      show Function.update s.locks k none key = some v
      rw [Function.update_of_ne hk, hv]

/-- A reservation is removed by the operation that made it. -/
theorem reservation_kept (h : Effect d s a s') {w : Nat} {x : Nat × String} {v : String}
    (hv : s.inflight w x = some v) :
    s'.inflight w x = some v ∨ ∃ op, a = .unreserve op ∧ w = d.worker op ∧
      x = (d.client op, d.key op) ∧ v = d.owner op := by
  cases h with
  | @reserved op hidle hfree =>
    left
    by_cases hw : w = d.worker op
    · subst hw
      have hx : x ≠ (d.client op, d.key op) := by
        rintro rfl
        rw [hfree] at hv
        cases hv
      simpa [Function.update_of_ne hx] using hv
    · simpa [Function.update_of_ne hw] using hv
  | @unreserved op =>
    by_cases hw : w = d.worker op
    · subst hw
      rcases releaseInflightOwner_kept hv with hkept | ⟨hx, hown⟩
      · left
        simpa using hkept
      · exact .inr ⟨op, rfl, rfl, hx, hown⟩
    · left
      simpa [Function.update_of_ne hw] using hv
  | turnedAway => exact .inl hv
  | refused => exact .inl hv
  | acquired => exact .inl hv
  | released => exact .inl hv
  | delivered => exact .inl hv
  | expired => exact .inl hv

/-- A reservation was there before, or has just been made. -/
theorem reservation_before (h : Effect d s a s') {w : Nat} {x : Nat × String} {v : String}
    (hv : s'.inflight w x = some v) :
    (s.inflight w x = some v ∧ ∀ op, a = .unreserve op → w = d.worker op →
        ¬ (x = (d.client op, d.key op) ∧ v = d.owner op)) ∨
      ∃ op, a = .reserve op ∧ s'.phase op = .reserved ∧ w = d.worker op ∧
        x = (d.client op, d.key op) ∧ v = d.owner op := by
  cases h with
  | @reserved op hidle hfree =>
    by_cases hw : w = d.worker op
    · subst hw
      by_cases hx : x = (d.client op, d.key op)
      · refine .inr ⟨op, rfl, by simp, rfl, hx, ?_⟩
        simpa [hx] using hv.symm
      · exact .inl ⟨by simpa [Function.update_of_ne hx] using hv, by simp⟩
    · exact .inl ⟨by simpa [Function.update_of_ne hw] using hv, by simp⟩
  | @unreserved op =>
    left
    by_cases hw : w = d.worker op
    · subst hw
      have hleft : releaseInflightOwner (s.inflight (d.worker op)) (d.client op) (d.key op)
          (d.owner op) x = some v := by simpa using hv
      obtain ⟨hbefore, hother⟩ := releaseInflightOwner_left hleft
      refine ⟨hbefore, fun op' ha _ => ?_⟩
      cases ha
      exact hother
    · refine ⟨by simpa [Function.update_of_ne hw] using hv, fun op' ha hw' => ?_⟩
      cases ha
      exact absurd hw' hw
  | turnedAway => exact .inl ⟨hv, by simp⟩
  | refused => exact .inl ⟨hv, by simp⟩
  | acquired => exact .inl ⟨hv, by simp⟩
  | released => exact .inl ⟨hv, by simp⟩
  | delivered => exact .inl ⟨hv, by simp⟩
  | expired => exact .inl ⟨hv, by simp⟩

/-- The operation is between its reservation and its end. -/
def Phase.active : Phase → Bool
  | .idle => false
  | .ended => false
  | _ => true

/-- An operation that is under way ends by giving up its reservation. -/
theorem active_kept (h : Effect d s a s') {op : Op} (hop : (s.phase op).active = true) :
    (s'.phase op).active = true ∨ a = .unreserve op := by
  have hupdate : ∀ {op' : Op} {next : Phase}, next.active = true →
      (Function.update s.phase op' next op).active = true := by
    intro op' next hnext
    by_cases heq : op = op'
    · rw [heq, Function.update_self]
      exact hnext
    · rw [Function.update_of_ne heq]
      exact hop
  cases h with
  | @turnedAway op' hidle =>
    have hne : op ≠ op' := by
      rintro rfl
      rw [hidle] at hop
      cases hop
    left
    simpa [Function.update_of_ne hne] using hop
  | reserved => exact .inl (hupdate rfl)
  | refused => exact .inl (hupdate rfl)
  | acquired => exact .inl (hupdate rfl)
  | released => exact .inl (hupdate rfl)
  | @unreserved op' =>
    by_cases heq : op = op'
    · exact .inr (by rw [heq])
    · left
      simpa [Function.update_of_ne heq] using hop
  | delivered => exact .inl hop
  | expired => exact .inl hop

/-- Every reservation belongs to an operation that is under way. -/
def Reserved (d : Deployment Op) (s : State Op) : Prop :=
  ∀ w x v, s.inflight w x = some v → ∃ op, w = d.worker op ∧ x = (d.client op, d.key op) ∧
    v = d.owner op ∧ (s.phase op).active = true

theorem reserved_step (hinv : Reserved d s) (h : Effect d s a s') : Reserved d s' := by
  intro w x v hv
  rcases reservation_before h hv with ⟨hbefore, hother⟩ | ⟨op, -, hphase, hw, hx, hown⟩
  · obtain ⟨op, hw, hx, hown, hop⟩ := hinv w x v hbefore
    rcases active_kept h hop with hop' | ha
    · exact ⟨op, hw, hx, hown, hop'⟩
    · exact absurd ⟨hx, hown⟩ (hother op ha hw)
  · exact ⟨op, hw, hx, hown, by rw [hphase]; rfl⟩

/-- A call that may still take place belongs to an operation that does not wait for it. -/
def Delayed (s : State Op) : Prop :=
  ∀ op, s.delayed op ≠ none → s.phase op ≠ .idle ∧ s.phase op ≠ .reserved ∧ s.phase op ≠ .holding

/-- The operation that holds a token has its token in Redis. -/
def Holds (d : Deployment Op) (s : State Op) : Prop :=
  ∀ op, s.phase op = .holding → s.locks (d.key op) = some (d.owner op)

theorem delayed_call (hinv : Delayed s) {op op' : Op} {key owner : String} {command : Command}
    {outcome : Outcome} {next : Phase}
    (hnext : next ≠ .idle ∧ next ≠ .reserved ∧ next ≠ .holding)
    (hop : (s.call op' key owner command outcome next).delayed op ≠ none) :
    (s.call op' key owner command outcome next).phase op ≠ .idle ∧
      (s.call op' key owner command outcome next).phase op ≠ .reserved ∧
      (s.call op' key owner command outcome next).phase op ≠ .holding := by
  simp only [State.call] at hop ⊢
  by_cases heq : op = op'
  · rw [heq, Function.update_self]
    exact hnext
  · rw [Function.update_of_ne heq]
    refine hinv op ?_
    split at hop
    · rwa [Function.update_of_ne heq] at hop
    · exact hop

theorem delayed_step (hinv : Delayed s) (h : Effect d s a s') : Delayed s' := by
  intro op hop
  cases h with
  | @turnedAway op' hidle =>
    have hne : op ≠ op' := by
      rintro rfl
      exact (hinv op hop).1 hidle
    simpa [Function.update_of_ne hne] using hinv op hop
  | @reserved op' hidle hfree =>
    have hne : op ≠ op' := by
      rintro rfl
      exact (hinv op hop).1 hidle
    simpa [Function.update_of_ne hne] using hinv op hop
  | @refused op' outcome hphase => exact delayed_call hinv (by decide) hop
  | @acquired op' hphase =>
    have hne : op ≠ op' := by
      rintro rfl
      exact (hinv op hop).2.1 hphase
    simpa [State.call, Function.update_of_ne hne] using hinv op hop
  | @released op' outcome hphase => exact delayed_call hinv (by decide) hop
  | @unreserved op' hphase =>
    by_cases heq : op = op'
    · subst heq
      simp
    · simpa [Function.update_of_ne heq] using hinv op hop
  | @delivered op' command hdelayed =>
    have hne : op ≠ op' := by
      rintro rfl
      simp at hop
    exact hinv op (by simpa [Function.update_of_ne hne] using hop)
  | expired => exact hinv op hop

/-- An operation holds a token since it was told so. -/
theorem holding_before (h : Effect d s a s') {op : Op} (hop : s'.phase op = .holding) :
    s.phase op = .holding ∧ (∀ outcome, a ≠ .compareDelete op outcome) ∨
      s'.locks (d.key op) = some (d.owner op) := by
  have hupdate : ∀ {op' : Op} {next : Phase}, next ≠ .holding →
      Function.update s.phase op' next op = .holding → s.phase op = .holding ∧ op ≠ op' := by
    intro op' next hnext hholding
    have hne : op ≠ op' := by
      rintro rfl
      rw [Function.update_self] at hholding
      exact hnext hholding
    rw [Function.update_of_ne hne] at hholding
    exact ⟨hholding, hne⟩
  cases h with
  | turnedAway => exact .inl ⟨(hupdate (by decide) hop).1, by simp⟩
  | reserved => exact .inl ⟨(hupdate (by decide) hop).1, by simp⟩
  | refused => exact .inl ⟨(hupdate (by decide) hop).1, by simp⟩
  | @acquired op' hphase hset =>
    by_cases heq : op = op'
    · subst heq
      right
      simpa [State.call, Outcome.applied, Command.apply] using hset
    · refine .inl ⟨?_, by simp⟩
      simpa [State.call, Function.update_of_ne heq] using hop
  | released =>
    obtain ⟨hholding, hne⟩ := hupdate (by decide) hop
    refine .inl ⟨hholding, fun outcome ha => ?_⟩
    cases ha
    exact hne rfl
  | unreserved => exact .inl ⟨(hupdate (by decide) hop).1, by simp⟩
  | delivered => exact .inl ⟨hop, by simp⟩
  | expired => exact .inl ⟨hop, by simp⟩

theorem holds_step (hdelayed : Delayed s) (hinv : Holds d s) (h : Effect d s a s')
    (hexpire : a.isExpiry = false) : Holds d s' := by
  intro op hop
  rcases holding_before h hop with ⟨hholding, hrelease⟩ | hset
  · rcases lock_kept h (hinv op hholding) with hkept | ha | ⟨op', hreleases, -, hown⟩
    · exact hkept
    · rw [ha] at hexpire
      cases hexpire
    · -- the tokens are distinct, so the operation would have released its own lock
      obtain rfl := d.owner_injective hown
      rcases hreleases with ⟨outcome, ha⟩ | ⟨-, hcall⟩
      · exact absurd ha (hrelease outcome)
      · have hwaits := (hdelayed op (by rw [hcall]; simp)).2.2
        exact absurd hholding hwaits
  · exact hset

/-! ## Runs -/

theorem reserved_of_reachable (h : d.Reachable s) : Reserved d s := by
  obtain ⟨locks, h⟩ := h
  refine h.invariant (I := Reserved d) ?_ fun t a u ht _ hstep =>
    reserved_step ht (effect_of_step hstep)
  intro w x v hv
  cases hv

theorem holds_of_reachableUnexpired (h : d.ReachableUnexpired s) : Holds d s := by
  obtain ⟨locks, h⟩ := h
  have hinv : Delayed s ∧ Holds d s := by
    refine h.invariant (I := fun s => Delayed s ∧ Holds d s) ?_ fun t a u ht hok hstep =>
      ⟨delayed_step ht.1 (effect_of_step hstep),
        holds_step ht.1 ht.2 (effect_of_step hstep) hok⟩
    refine ⟨fun op hop => absurd rfl hop, fun op hop => ?_⟩
    cases hop
  exact hinv.2

end

section
variable {Op : Type} [DecidableEq Op]

/-- **The processing lock, in every run.**  A lock is deleted only by the operation whose token
it holds, unless it expires; a reservation is removed only by the operation whose token it
holds; once all operations that started have ended there is no reservation; and while no key
expires, two operations on one session do not both hold a token. -/
theorem processing_lock_safe (d : Deployment Op) :
    (∀ s a s' key v, d.Reachable s → d.step s a = some s' → s.locks key = some v →
      s'.locks key ≠ some v → a = .expire key ∨
        ∃ op, Releases s op a ∧ key = d.key op ∧ v = d.owner op ∧
          ∀ op', v = d.owner op' → op' = op) ∧
    (∀ s a s' w x v, d.Reachable s → d.step s a = some s' → s.inflight w x = some v →
      s'.inflight w x ≠ some v → ∃ op, a = .unreserve op ∧ w = d.worker op ∧
        x = (d.client op, d.key op) ∧ v = d.owner op ∧ ∀ op', v = d.owner op' → op' = op) ∧
    (∀ s, d.Reachable s → (∀ op, s.phase op = .idle ∨ s.phase op = .ended) →
      ∀ w x, s.inflight w x = none) ∧
    ∀ s op op', d.ReachableUnexpired s → s.phase op = .holding → s.phase op' = .holding →
      d.session op = d.session op' → op = op' := by
  refine ⟨?_, ?_, ?_, ?_⟩
  · intro s a s' key v _ hstep hv hgone
    rcases lock_kept (effect_of_step hstep) hv with hkept | ha | ⟨op, hreleases, hkey, hown⟩
    · exact absurd hkept hgone
    · exact .inl ha
    · exact .inr ⟨op, hreleases, hkey, hown, fun op' hop' =>
        d.owner_injective (hop'.symm.trans hown)⟩
  · intro s a s' w x v _ hstep hv hgone
    rcases reservation_kept (effect_of_step hstep) hv with hkept | ⟨op, ha, hw, hx, hown⟩
    · exact absurd hkept hgone
    · exact ⟨op, ha, hw, hx, hown, fun op' hop' => d.owner_injective (hop'.symm.trans hown)⟩
  · intro s hreach hended w x
    cases hentry : s.inflight w x with
    | none => rfl
    | some v =>
      obtain ⟨op, -, -, -, hactive⟩ := reserved_of_reachable hreach w x v hentry
      rcases hended op with hphase | hphase
      · rw [hphase] at hactive
        cases hactive
      · rw [hphase] at hactive
        cases hactive
  · intro s op op' hreach hop hop' hsession
    have hholds := holds_of_reachableUnexpired hreach
    have hown := hholds op hop
    rw [Deployment.key, hsession] at hown
    have hown' := hholds op' hop'
    rw [Deployment.key, hown] at hown'
    exact d.owner_injective (Option.some.inj hown')

end

/-- Two processes work on one session. -/
def twoWorkers : Deployment Bool where
  worker op := if op then 1 else 0
  client _ := 0
  session _ := "web"
  owner op := if op then "b" else "a"
  owner_injective := by
    intro x y h
    cases x <;> cases y <;> simp_all

/-- The second operation is turned away by the key that the first has set. -/
def secondRefused : List (Action Bool) :=
  [.reserve false, .setNx false .returns, .reserve true, .setNx true .returns]

/-- The first operation ends although its release raises, and so does the second. -/
def bothEnd : List (Action Bool) :=
  [.unreserve true, .compareDelete false .raisesLost, .unreserve false]

theorem processing_lock_safe_twoWorkers :
    (∃ s, twoWorkers.ReachableUnexpired s ∧ s.phase false = .holding ∧ s.phase true ≠ .holding) ∧
      ∃ s, twoWorkers.Reachable s ∧ (∀ op, s.phase op = .ended) ∧
        ∀ w x, s.inflight w x = none := by
  obtain ⟨-, -, hended, hone⟩ := processing_lock_safe twoWorkers
  refine ⟨?_, ?_⟩
  · obtain ⟨s, hrun, hfalse⟩ : ∃ s, runSteps twoWorkers.step (fun _ a => a.isExpiry = false)
        (State.initial fun _ => none) secondRefused = some s ∧ s.phase false = .holding :=
      ⟨_, rfl, rfl⟩
    have hreach : twoWorkers.ReachableUnexpired s := ⟨_, reaches_of_runSteps hrun⟩
    refine ⟨s, hreach, hfalse, fun htrue => ?_⟩
    cases hone s false true hreach hfalse htrue rfl
  · obtain ⟨s, hrun, hboth⟩ : ∃ s, runSteps twoWorkers.step (fun _ _ => True)
        (State.initial fun _ => none) (secondRefused ++ bothEnd) = some s ∧
        s.phase false = .ended ∧ s.phase true = .ended :=
      ⟨_, rfl, rfl, rfl⟩
    have hreach : twoWorkers.Reachable s := ⟨_, reaches_of_runSteps hrun⟩
    have hall : ∀ op, s.phase op = .ended := by
      intro op
      cases op
      · exact hboth.1
      · exact hboth.2
    exact ⟨s, hreach, hall, hended s hreach fun op => .inr (hall op)⟩

end QueryCraft.ProcessingLock
