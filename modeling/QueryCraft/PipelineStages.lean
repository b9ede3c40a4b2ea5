import QueryCraft.QueryPipeline

/-! # What the stages of the pipeline do

From the audit of the submission on, the pipeline only goes forward on good news.  An
answer is *favourable* when the code continues after it (`favourableAnswer`); every other
answer, and every cancellation by the timer, ends in an exception or in a rejection.
`answerQuestion_spec` says this once for the whole part of the pipeline after the
submission, together with what it stores: an attempt of the request whose evaluator result
fits its state.  The results about stored attempts, about the audit trail and about
deleted sessions all start from it.

A `Progress` keeps three facts about the exchanges so far: whether all of them were
favourable, whether a rejected attempt was stored, and whether the deadline was found
expired after that.
-/
namespace QueryCraft
namespace QueryPipeline

/-! ## Favourable answers -/

/-- The operation did not raise. -/
def Tried.isValue {α : Type} : Tried α → Bool
  | .value _ => true
  | .raised => false

/-- The stage came to its end. -/
def StageReply.isValue {α : Type} : StageReply α → Bool
  | .value _ => true
  | _ => false

/-- The pipeline goes on after this answer. -/
def favourableAnswer : (operation : Operation) → Answer operation → Bool
  | .acquireLock .., acquired => acquired
  | .findUser _, .value user => user.isSome
  | .findUser _, .raised => false
  | .detect _, .outcome outcome _ => outcome != .blocked
  | .detect _, .unavailable => false
  | .detect _, .raised => false
  | .log _, done => done.isValue
  | .commit, done => done.isValue
  | .rollback, done => done.isValue
  | .logDurably _, done => done.isValue
  | .createSession .., session => session.isValue
  | .findSession .., .value session => session.isSome
  | .findSession .., .raised => false
  | .latestWithoutFeedback .., latest => latest.isValue
  | .flush, done => done.isValue
  | .updateLastActivity .., done => done.isValue
  | .updatePreviewText .., done => done.isValue
  | .resolveRolePolicy .., .value policy => !policy.any (!·.allowsTables)
  | .resolveRolePolicy .., .raised => false
  | .llmContextCap, cap => cap.isValue
  | .listBySession .., prior => prior.isValue
  | .getByAttemptId .., existing => existing.isValue
  | .createAccepted .., saved => saved.isValue
  | .checkAndIncrement .., .granted => true
  | .checkAndIncrement .., _ => false
  | .deadlineExpired, expired => !expired
  | .sessionCancelled _, marked => !marked
  | .registerOperation _, registered => registered
  | .generateSql .., sql => sql.isValue
  | .evaluate _, .value failed => failed.isNone
  | .evaluate _, _ => false
  | .execute _, table => table.isValue
  | .authorizeRole _, .value passed => passed
  | .authorizeRole _, .raised => false
  | .applyRowFilters _, .bound _ => true
  | .applyRowFilters _, _ => false
  | .applyColumnMasks _, table => table.isValue
  | .releaseLock .., _ => true
  | .clearOperation _, _ => true
  | .trackAttempt _, _ => true
  | .discardAttempt _, _ => true
  | .storeAttempt .., _ => true
  | .setActiveAttempt .., _ => true
  | .deleteActiveAttempt _, _ => true

/-- An answer of each operation that lets the pipeline go on. -/
def goodAnswer : (operation : Operation) → Answer operation
  | .acquireLock .. => true
  | .releaseLock .. => ()
  | .findUser _ => .value (some ⟨some "ann", true⟩)
  | .detect _ => .outcome .allowed .null
  | .log _ | .commit | .rollback | .logDurably _ | .flush => .value ()
  | .createSession user _ => .value user
  | .findSession .. => .value (some true)
  | .latestWithoutFeedback .. => .value false
  | .updateLastActivity .. | .updatePreviewText .. => .value ()
  | .resolveRolePolicy .. => .value (some ⟨true, false, false⟩)
  | .llmContextCap => .value 3
  | .listBySession .. => .value []
  | .getByAttemptId .. => .value none
  | .createAccepted .. => .value "33333333-3333-3333-3333-333333333333"
  | .checkAndIncrement .. => .granted
  | .deadlineExpired => false
  | .sessionCancelled _ => false
  | .registerOperation _ => true
  | .clearOperation _ | .trackAttempt _ | .discardAttempt _ => ()
  | .storeAttempt .. | .setActiveAttempt .. | .deleteActiveAttempt _ => ()
  | .generateSql .. => .value "SELECT 1"
  | .evaluate _ => .value none
  | .execute _ => .value ⟨["n"], [[.int 1]]⟩
  | .authorizeRole _ => .value true
  | .applyRowFilters sql => .bound sql
  | .applyColumnMasks table => .value table

/-- The pipeline goes on after this reply. -/
def favourable (c : Command) : Response c → Bool
  | .answer a => favourableAnswer c.operation a
  | .cancelled _ => false

/-- The deadline was found expired, by a look at the clock or by the timer. -/
def foundExpired : (c : Command) → Response c → Bool
  | _, .cancelled _ => true
  | ⟨.deadlineExpired, _⟩, .answer expired => expired
  | _, .answer _ => false

/-! ## The monitor -/

/-- The operation stores a rejected attempt. -/
def Operation.storesRejected : Operation → Bool
  | .storeAttempt attempt _ => attempt.state == .rejected
  | _ => false

/-- The operation is none of those that frame a request: the lock, a new chat session, the
operation record, the tracked attempt, a commit of the request's transaction and the audit of
the submission. -/
def Operation.isQuiet : Operation → Bool
  | .acquireLock .. | .releaseLock .. | .createSession .. | .registerOperation _
  | .clearOperation _ | .trackAttempt _ | .discardAttempt _ | .commit => false
  | .log event | .logDurably event => event.action != .querySubmit
  | _ => true

/-- What the exchanges so far amount to. -/
structure Progress where
  favourable : Bool
  /-- A rejected attempt was stored. -/
  rejected : Bool
  /-- The deadline was found expired after that. -/
  overdue : Bool

/-- The progress after an exchange. -/
def Progress.advance (g : Progress) (c : Command) (reply : Response c) : Progress where
  favourable := g.favourable && QueryPipeline.favourable c reply
  rejected := g.rejected || c.operation.storesRejected
  overdue := g.overdue || ((g.rejected || c.operation.storesRejected) && foundExpired c reply)

section Spec
variable (r : SubmitRequest) (chat : String)

/-- The attempt is the one of the request. -/
structure OfRequest (attempt : EphemeralAttempt) : Prop where
  attemptId : attempt.attemptId = r.attemptId.text
  sessionId : attempt.sessionId = r.httpSessionId
  chatSessionId : attempt.chatSessionId = some chat
  userId : attempt.userId = r.userId.text
  attemptNumber : attempt.attemptNumber = 1

/-- The evaluator result fits the state. -/
structure Consistent (attempt : EphemeralAttempt) : Prop where
  evaluatorMatchesState : attempt.evaluatorResult.isSome = true ↔ attempt.state = .rejected
  evaluatorResult : ∀ result ∈ attempt.evaluatorResult, result.isStored = true

/-- What may be stored, and which attempt becomes the active one. -/
def MayStore : Operation → Prop
  | .storeAttempt attempt http =>
    http = r.httpSessionId ∧ OfRequest r chat attempt ∧ Consistent attempt
  | .setActiveAttempt http attempt => http = r.httpSessionId ∧ attempt = r.attemptId.text
  | _ => True

/-- The monitor of the stages.  The request's work is only rolled back after bad news, and
once a rejected attempt is overdue, nothing more is issued. -/
def stages : Monitor Response Progress where
  allows g c := g.overdue = false ∧ (g.favourable = true → c.operation ≠ .rollback) ∧
    c.operation.isQuiet = true ∧ MayStore r chat c.operation
  advance := Progress.advance

/-- The locals of a stage, with its attempt. -/
structure InHand (s : Locals) (attempt : EphemeralAttempt) : Prop where
  chatSessionId : s.chatSessionId = some chat
  queryOperation : s.queryOperation = some (r.operation chat)
  trackedAttempt : s.trackedAttempt = some (r.tracked chat)
  current : s.attempt = some attempt
  ofRequest : OfRequest r chat attempt
  consistent : Consistent attempt

/-- A stage in progress: everything was favourable or not, and the attempt was rejected or
not. -/
structure At (favourable rejected : Bool) (g : Progress) (s : Locals) : Prop where
  isFavourable : g.favourable = favourable
  isRejected : g.rejected = rejected
  notOverdue : g.overdue = false
  inHand : ∃ attempt, InHand r chat s attempt ∧ attempt.evaluatorResult.isSome = rejected

/-- An exception on its way out of a stage. -/
structure Leaving (rejected : Bool) (e : Raised) (g : Progress) (s : Locals) : Prop where
  notFavourable : g.favourable = false
  isRejected : g.rejected = rejected
  inHand : ∃ attempt, InHand r chat s attempt ∧ attempt.evaluatorResult.isSome = rejected
  overdue : g.overdue = true → rejected = true
  expired : rejected = true → e = .deadlineExpired ∨ e = .cancelled → g.overdue = true

variable {r chat} {f rejected : Bool} {g : Progress} {s : Locals}

/-- The pipeline changes only the SQL, the state and the evaluator result. -/
theorem OfRequest.changed {a : EphemeralAttempt} (h : OfRequest r chat a) (sql : String)
    (state : AttemptState) (result : Option EvaluatorResult) :
    OfRequest r chat { a with sql := sql, state := state, evaluatorResult := result } :=
  ⟨h.attemptId, h.sessionId, h.chatSessionId, h.userId, h.attemptNumber⟩

/-- The timer touches no other local. -/
theorem InHand.timerFired {attempt : EphemeralAttempt} (h : InHand r chat s attempt) :
    InHand r chat s.timerFired attempt :=
  ⟨h.chatSessionId, h.queryOperation, h.trackedAttempt, h.current, h.ofRequest, h.consistent⟩

/-! ## Single operations -/

/-- An operation of a stage that stores nothing and does not look at the clock; a rollback
only after bad news. -/
def Operation.isPlain (f : Bool) : Operation → Bool
  | .storeAttempt .. | .setActiveAttempt .. | .deadlineExpired => false
  | .rollback => !f
  | operation => operation.isQuiet

/-- The progress after an answer to an operation that stores no attempt. -/
theorem At.answer {operation : Operation} (hstores : operation.storesRejected = false)
    (hclock : operation ≠ .deadlineExpired) (h : At r chat f rejected g s) {interruptible : Bool}
    (a : Answer operation) :
    At r chat (f && favourableAnswer operation a) rejected
      (g.advance ⟨operation, interruptible⟩ (.answer a)) s := by
  have hexpired : foundExpired ⟨operation, interruptible⟩ (.answer a) = false := by
    cases operation with
    | deadlineExpired => exact absurd rfl hclock
    | _ => rfl
  refine ⟨?_, ?_, ?_, h.inHand⟩
  · simp [Progress.advance, favourable, h.isFavourable]
  · simp [Progress.advance, h.isRejected, hstores]
  · simp [Progress.advance, h.notOverdue, hexpired]

/-- A cancellation by the timer. -/
theorem At.cancelled {operation : Operation} (hstores : operation.storesRejected = false)
    (h : At r chat f rejected g s) {interruptible : Bool} (armed : interruptible = true) :
    Leaving r chat rejected .cancelled (g.advance ⟨operation, interruptible⟩ (.cancelled armed))
      s.timerFired := by
  obtain ⟨attempt, hand, hresult⟩ := h.inHand
  refine ⟨by simp [Progress.advance, favourable], ?_, ⟨attempt, hand.timerFired, hresult⟩, ?_, ?_⟩
  · simp [Progress.advance, hstores, h.isRejected]
  · intro hoverdue
    simpa [Progress.advance, hstores, h.isRejected, h.notOverdue, foundExpired] using hoverdue
  · intro hrejected _
    simp [Progress.advance, foundExpired, h.isRejected, hrejected]

section Plain
variable {operation : Operation} (hplain : operation.isPlain f = true)
include hplain

theorem storesRejected_of_isPlain : operation.storesRejected = false := by
  cases operation with
  | storeAttempt => cases hplain
  | _ => rfl

theorem ne_deadlineExpired_of_isPlain : operation ≠ .deadlineExpired := by
  rintro rfl
  cases hplain

theorem At.allows (h : At r chat f rejected g s) (interruptible : Bool) :
    (stages r chat).allows g ⟨operation, interruptible⟩ := by
  refine ⟨h.notOverdue, ?_, ?_, ?_⟩
  · rintro hf rfl
    rw [← h.isFavourable, hf] at hplain
    cases hplain
  · cases operation with
    | storeAttempt | setActiveAttempt | deadlineExpired => cases hplain
    | rollback => rfl
    | _ => exact hplain
  · cases operation with
    | storeAttempt | setActiveAttempt => cases hplain
    | _ => trivial

theorem await_spec :
    Ensures (stages r chat) (At r chat f rejected) (await operation)
      (fun a => At r chat (f && favourableAnswer operation a) rejected) (Leaving r chat rejected) :=
  ensures_await (fun _ _ h => h.allows hplain _)
    (fun _ _ a h => h.answer (storesRejected_of_isPlain hplain)
      (ne_deadlineExpired_of_isPlain hplain) a)
    (fun _ _ armed h => h.cancelled (storesRejected_of_isPlain hplain) armed)

theorem perform_spec :
    Ensures (stages r chat) (At r chat f rejected) (perform operation)
      (fun a => At r chat (f && favourableAnswer operation a) rejected) (Leaving r chat rejected) :=
  ensures_perform (fun _ _ h => h.allows hplain _)
    (fun _ _ a h => h.answer (storesRejected_of_isPlain hplain)
      (ne_deadlineExpired_of_isPlain hplain) a)

end Plain

/-- The request's attempt becomes the active one. -/
theorem setActiveAttempt_spec :
    Ensures (stages r chat) (At r chat f rejected)
      (await (.setActiveAttempt r.httpSessionId r.attemptId.text))
      (fun _ => At r chat f rejected) (Leaving r chat rejected) := by
  refine ensures_await (fun _ _ h => ⟨h.notOverdue, by simp, rfl, rfl, rfl⟩) ?_
    (fun _ _ armed h => h.cancelled rfl armed)
  intro g s a h
  rw [← Bool.and_true f]
  exact h.answer rfl (by simp) a

/-- Leaving with any exception but an expired deadline or a cancellation. -/
theorem At.leave {e : Raised} (h : At r chat false rejected g s) (hdeadline : e ≠ .deadlineExpired)
    (hcancelled : e ≠ .cancelled) : Leaving r chat rejected e g s := by
  refine ⟨h.isFavourable, h.isRejected, h.inHand, fun ho => absurd (h.notOverdue.symm.trans ho) (by simp), ?_⟩
  rintro - (rfl | rfl)
  · exact absurd rfl hdeadline
  · exact absurd rfl hcancelled

/-- Leaving before the attempt was rejected. -/
theorem At.leave_unrejected {e : Raised} (h : At r chat false false g s) :
    Leaving r chat false e g s :=
  ⟨h.isFavourable, h.isRejected, h.inHand, fun ho => absurd (h.notOverdue.symm.trans ho) (by simp),
    fun hrejected => by cases hrejected⟩

/-- A favourable answer changes nothing. -/
theorem At.favoured {b : Bool} (hb : b = true) (h : At r chat (f && b) rejected g s) :
    At r chat f rejected g s := by
  rwa [hb, Bool.and_true] at h

/-- An unfavourable answer is remembered. -/
theorem At.unfavoured {b : Bool} (hb : b = false) (h : At r chat (f && b) rejected g s) :
    At r chat false rejected g s := by
  rwa [hb, Bool.and_false] at h

/-- In the handlers of a stage. -/
theorem Leaving.at {e : Raised} (h : Leaving r chat false e g s) : At r chat false false g s := by
  refine ⟨h.notFavourable, h.isRejected, ?_, h.inHand⟩
  by_contra ho
  cases h.overdue (by simpa using ho)

theorem orRaise_spec {α : Type} {t : Tried α} :
    Ensures (stages r chat) (At r chat (f && t.isValue) rejected) (orRaise t)
      (fun _ => At r chat f rejected) (Leaving r chat rejected) := by
  cases t with
  | value a => exact .ret fun _ _ h => h.favoured rfl
  | raised => exact .raise fun _ _ h => (h.unfavoured rfl).leave (by simp) (by simp)

/-! ## Checks -/

theorem ensureActive_spec :
    Ensures (stages r chat) (At r chat f rejected) ensureActive (fun _ => At r chat f rejected)
      (Leaving r chat rejected) := by
  have hclock : Ensures (stages r chat) (At r chat f rejected) (perform .deadlineExpired)
      (fun expired => if expired then Leaving r chat rejected .deadlineExpired
        else At r chat f rejected) (Leaving r chat rejected) := by
    refine ensures_perform (fun _ _ h => ⟨h.notOverdue, by simp, rfl, trivial⟩) ?_
    intro g s expired h
    cases expired with
    | false =>
      refine ⟨?_, ?_, ?_, h.inHand⟩
      · simp [stages, Progress.advance, favourable, favourableAnswer, h.isFavourable]
      · simp [stages, Progress.advance, h.isRejected, Operation.storesRejected]
      · simp [stages, Progress.advance, h.notOverdue, foundExpired]
    | true =>
      refine ⟨?_, ?_, h.inHand, ?_, ?_⟩
      · simp [stages, Progress.advance, favourable, favourableAnswer]
      · simp [stages, Progress.advance, h.isRejected, Operation.storesRejected]
      · simp [stages, Progress.advance, h.isRejected, h.notOverdue, foundExpired, Operation.storesRejected]
      · intro hrejected _
        simp [stages, Progress.advance, h.isRejected, foundExpired, hrejected]
  refine .bind hclock ?_
  intro expired
  cases expired with
  | false => exact .ret fun _ _ h => h
  | true => exact .raise fun _ _ h => h

theorem ensureSessionActive_spec :
    Ensures (stages r chat) (At r chat f rejected) (ensureSessionActive chat)
      (fun _ => At r chat f rejected) (Leaving r chat rejected) := by
  refine .bind (await_spec rfl) ?_
  intro marked
  cases marked with
  | false => exact .ret fun _ _ h => h.favoured rfl
  | true => exact .raise fun _ _ h => (h.unfavoured rfl).leave (by simp) (by simp)

theorem ensureOperationActive_spec :
    Ensures (stages r chat) (At r chat f rejected) (ensureOperationActive chat)
      (fun _ => At r chat f rejected) (Leaving r chat rejected) :=
  .bind ensureSessionActive_spec fun _ => ensureActive_spec

/-! ## Storing -/

/-- A change that leaves the attempt one of the request and consistent. -/
theorem updateAttempt_spec {change : EphemeralAttempt → EphemeralAttempt}
    (hchange : ∀ a, OfRequest r chat a → a.evaluatorResult = none →
      OfRequest r chat (change a) ∧ (change a).evaluatorResult = none ∧
        (change a).state ≠ .rejected) :
    Ensures (stages r chat) (At r chat f false) (updateAttempt change)
      (fun _ => At r chat f false) (Leaving r chat false) := by
  apply Ensures.update
  rintro g s ⟨hf, hr, ho, attempt, hand, hresult⟩
  obtain ⟨hof, hnone, hstate⟩ := hchange attempt hand.ofRequest (by simpa using hresult)
  refine ⟨hf, hr, ho, change attempt, ⟨hand.chatSessionId, hand.queryOperation,
    hand.trackedAttempt, by simp [hand.current], hof, ⟨?_, ?_⟩⟩, by simp [hnone]⟩
  · simp [hnone, hstate]
  · simp [hnone]

/-- A stage whose attempt may have changed since it was stored. -/
def Unstored (r : SubmitRequest) (chat : String) (f rejected : Bool) (g : Progress) (s : Locals) :
    Prop :=
  g.favourable = f ∧ (g.rejected = true → rejected = true) ∧ g.overdue = false ∧
    ∃ attempt, InHand r chat s attempt ∧ attempt.evaluatorResult.isSome = rejected

theorem At.unstored (h : At r chat f rejected g s) : Unstored r chat f rejected g s :=
  ⟨h.isFavourable, fun hr => h.isRejected.symm.trans hr, h.notOverdue, h.inHand⟩

theorem storeAttempt_eq {attempt : EphemeralAttempt} (h : s.attempt = some attempt) :
    storeAttempt r s = await (.storeAttempt attempt r.httpSessionId) s := by
  cases s
  cases h
  rfl

theorem storeAttempt_none (h : s.attempt = none) :
    storeAttempt r s = (pure () : Pipeline Unit) s := by
  cases s
  cases h
  rfl

theorem storeAttempt_spec :
    Ensures (stages r chat) (Unstored r chat f rejected) (storeAttempt r)
      (fun _ => At r chat f rejected) (Leaving r chat rejected) := by
  rintro g s ⟨hf, hr, ho, attempt, hand, hresult⟩
  have hrejects : (attempt.state == .rejected) = rejected := by
    rw [← hresult, Bool.eq_iff_iff, beq_iff_eq, hand.consistent.evaluatorMatchesState]
  have hprogress : (g.rejected || (attempt.state == .rejected)) = rejected := by
    rw [hrejects]
    cases rejected <;> simp_all
  rw [storeAttempt_eq hand.current]
  refine ⟨⟨ho, by simp, rfl, rfl, hand.ofRequest, hand.consistent⟩, ?_⟩
  · intro reply
    cases reply with
    | answer a =>
      refine ⟨?_, hprogress, ?_, attempt, hand, hresult⟩
      · simp [stages, Progress.advance, favourable, favourableAnswer, hf]
      · simp [stages, Progress.advance, ho, foundExpired]
    | cancelled armed =>
      refine ⟨by simp [stages, Progress.advance, favourable], hprogress,
        ⟨attempt, hand.timerFired, hresult⟩, ?_, ?_⟩
      · simp [stages, Progress.advance, foundExpired, Operation.storesRejected, hprogress, ho]
      · intro hrejected _
        simp [stages, Progress.advance, foundExpired, Operation.storesRejected, hprogress,
          hrejected]

/-- An attempt that was not rejected is stored. -/
theorem storeUnrejected_spec :
    Ensures (stages r chat) (At r chat f false) (storeAttempt r) (fun _ => At r chat f false)
      (Leaving r chat false) :=
  storeAttempt_spec.mono (fun _ _ h => h.unstored) (fun _ _ _ h => h) (fun _ _ _ h => h)

/-! ## Rejections -/

theorem persistAudit_spec {event : LogRequest} (hevent : event.action ≠ .querySubmit) :
    Ensures (stages r chat) (At r chat false rejected) (persistAudit event)
      (fun _ => At r chat false rejected) (Leaving r chat rejected) := by
  have hplain : Operation.isPlain false (.logDurably event) = true := by
    simp [Operation.isPlain, Operation.isQuiet, hevent]
  refine .bind (await_spec rfl) fun done => ?_
  refine .bind orRaise_spec fun _ => ?_
  exact .bind (await_spec hplain) fun done' => orRaise_spec

/-- The result of a rejection is a list of violations that can be stored. -/
def EvaluatorRejection.isStored (rejection : EvaluatorRejection) : Bool :=
  EvaluatorResult.isStored ⟨false, rejection.violations⟩

theorem evaluatorRejection_isStored (rule : EvaluatorRule) :
    (evaluatorRejection rule).isStored = true := by
  cases rule <;> decide

theorem rejectAttempt_spec {rejection : EvaluatorRejection} {event : LogRequest}
    (hrejection : rejection.isStored = true) (hevent : event.action ≠ .querySubmit) :
    Ensures (stages r chat) (At r chat false false) (rejectAttempt r chat rejection event)
      (fun result g s => result = .rejection rejection ∧ At r chat false true g s)
      (Leaving r chat true) := by
  refine .bind (show Ensures _ _ _ (fun _ => Unstored r chat false true) _ from ?_) fun _ => ?_
  · apply Ensures.update
    rintro g s ⟨hf, hr, ho, attempt, hand, -⟩
    refine ⟨hf, fun _ => rfl, ho,
      { attempt with state := .rejected, evaluatorResult := some ⟨false, rejection.violations⟩ },
      ⟨hand.chatSessionId, hand.queryOperation, hand.trackedAttempt, by simp [hand.current],
        hand.ofRequest.changed _ _ _, ⟨by simp, ?_⟩⟩, rfl⟩
    simpa [EvaluatorRejection.isStored] using hrejection
  refine .bind storeAttempt_spec fun _ => ?_
  refine .bind (persistAudit_spec hevent) fun _ => ?_
  refine .bind ensureOperationActive_spec fun _ => ?_
  exact .ret fun g s h => ⟨rfl, h⟩

/-! ## Stages -/

theorem loadHistory_spec :
    Ensures (stages r chat) (At r chat f false) (loadHistory r chat) (fun _ => At r chat f false)
      (Leaving r chat false) := by
  refine .bind (await_spec rfl) fun cap => ?_
  refine .bind orRaise_spec fun limit => ?_
  by_cases hlimit : 0 < limit
  · rw [if_pos hlimit]
    refine .bind (await_spec rfl) fun prior => ?_
    exact .bind orRaise_spec fun _ => .ret fun _ _ h => h
  · rw [if_neg hlimit]
    exact .ret fun _ _ h => h

/-- A stage that is run: whatever keeps it from its value is unfavourable. -/
theorem stageValue_spec {α : Type} {reply : StageReply α} :
    Ensures (stages r chat) (At r chat (f && reply.isValue) false) (stageValue reply)
      (fun _ => At r chat f false) (Leaving r chat false) := by
  cases reply with
  | value a => exact .ret fun _ _ h => h.favoured rfl
  | cancelled | timedOut | raised =>
    exact .raise fun _ _ h => (h.unfavoured rfl).leave_unrejected

/-- The handler of a cancelled stage. -/
theorem reraiseCancelled_spec {α : Type} {post : α → Progress → Locals → Prop} :
    Ensures (stages r chat) (At r chat false false) (reraiseCancelled chat) post
      (Leaving r chat false) :=
  .bind ensureSessionActive_spec fun _ => .raise fun _ _ h => h.leave_unrejected

theorem generateSql_spec {history : List (String × String)} :
    Ensures (stages r chat) (At r chat f false) (generateSql r chat history)
      (fun _ => At r chat f false) (Leaving r chat false) := by
  refine .bind ensureOperationActive_spec fun _ => ?_
  refine .bind (show Ensures _ _ _ (fun _ => At r chat f false) (Leaving r chat false) from ?_)
    fun sql => ?_
  · have hstage : Ensures (stages r chat) (At r chat f false)
        (do
          ensureActive
          stageValue (← await (.generateSql r.question history)))
        (fun _ => At r chat f false) (Leaving r chat false) :=
      .bind ensureActive_spec fun _ => .bind (await_spec rfl) fun _ => stageValue_spec
    refine .tryCatch hstage fun e => ?_
    refine Ensures.mono (show Ensures _ (At r chat false false) _ _ _ from ?_) (fun _ _ h => h.at)
      (fun _ _ _ h => h) (fun _ _ _ h => h)
    cases e with
    | cancelled => exact reraiseCancelled_spec
    | _ => exact .raise fun _ _ h => h.leave_unrejected
  refine .bind ensureOperationActive_spec fun _ => ?_
  refine .bind (updateAttempt_spec fun a hof hnone => ⟨hof.changed _ _ _, hnone, by simp⟩)
    fun _ => ?_
  refine .bind storeUnrejected_spec fun _ => ?_
  exact .bind ensureOperationActive_spec fun _ => .ret fun _ _ h => h

/-- The evaluator: a rule that failed is unfavourable. -/
theorem evaluateSql_spec {sql : String} :
    Ensures (stages r chat) (At r chat true false) (evaluateSql chat sql)
      (fun failed => At r chat failed.isNone false) (Leaving r chat false) := by
  refine .bind (show Ensures _ _ _ (fun (failed : Option EvaluatorRule) =>
    At r chat failed.isNone false) (Leaving r chat false) from ?_) fun failed => ?_
  · have hstage : Ensures (stages r chat) (At r chat true false)
        (do stageValue (← await (.evaluate sql)))
        (fun failed => At r chat failed.isNone false) (Leaving r chat false) := by
      refine .bind (await_spec rfl) fun reply => ?_
      cases reply with
      | value failed => exact .ret fun _ _ h => h
      | cancelled | timedOut | raised =>
        exact .raise fun _ _ h => (h.unfavoured rfl).leave_unrejected
    refine .tryCatch hstage fun e => ?_
    refine Ensures.mono (show Ensures _ (At r chat false false) _ _ _ from ?_) (fun _ _ h => h.at)
      (fun _ _ _ h => h) (fun _ _ _ h => h)
    cases e with
    | cancelled => exact reraiseCancelled_spec
    | _ => exact .raise fun _ _ h => h.leave_unrejected
  exact .bind ensureOperationActive_spec fun _ => .ret fun _ _ h => h

/-- The role's policy: SQL outside of it is unfavourable. -/
theorem enforceRoleAuthorization_spec {policy : Option RolePolicy} {sql : String} :
    Ensures (stages r chat) (At r chat true false) (enforceRoleAuthorization policy sql)
      (fun passed => At r chat passed false) (Leaving r chat false) := by
  rw [enforceRoleAuthorization]
  by_cases hpolicy : policy.any (·.allowsTables) = true
  · rw [if_pos hpolicy]
    refine .bind (perform_spec rfl) fun reply => ?_
    cases reply with
    | value passed => exact .ret fun _ _ h => h
    | raised => exact .raise fun _ _ h => (h.unfavoured rfl).leave_unrejected
  · rw [if_neg hpolicy]
    exact .ret fun _ _ h => h

theorem authorizeRole_spec {user : UserRow} {policy : Option RolePolicy} {sql : String} :
    Ensures (stages r chat) (At r chat true false) (authorizeRole r chat user policy sql)
      (fun passed => At r chat passed false) (Leaving r chat false) := by
  refine .bind (await_spec rfl) fun done => ?_
  refine .bind orRaise_spec fun _ => ?_
  refine .bind ensureOperationActive_spec fun _ => ?_
  refine .bind enforceRoleAuthorization_spec fun passed => ?_
  exact .bind ensureOperationActive_spec fun _ => .ret fun _ _ h => h

theorem injectRowFilters_spec {policy : Option RolePolicy} {sql : String} :
    Ensures (stages r chat) (At r chat f false) (injectRowFilters policy sql)
      (fun _ => At r chat f false) (Leaving r chat false) := by
  rw [injectRowFilters]
  by_cases hpolicy : policy.any (·.filtersRows) = true
  · rw [if_pos hpolicy]
    refine .bind (perform_spec rfl) fun reply => ?_
    cases reply with
    | bound bound => exact .ret fun _ _ h => h.favoured rfl
    | conflict | raised => exact .raise fun _ _ h => (h.unfavoured rfl).leave_unrejected
  · rw [if_neg hpolicy]
    exact .ret fun _ _ h => h

theorem applyRowFilters_spec {policy : Option RolePolicy} {sql : String} :
    Ensures (stages r chat) (At r chat f false) (applyRowFilters r chat policy sql)
      (fun _ => At r chat f false) (Leaving r chat false) := by
  refine .bind (updateAttempt_spec fun a hof hnone => ⟨hof.changed _ _ _, hnone, by simp⟩)
    fun _ => ?_
  refine .bind storeUnrejected_spec fun _ => ?_
  refine .bind ensureOperationActive_spec fun _ => ?_
  refine .bind injectRowFilters_spec fun effective => ?_
  exact .bind ensureOperationActive_spec fun _ => .ret fun _ _ h => h

variable {service : QueryService} {user : UserRow}

theorem consumeQuota_spec {dimension : QuotaDimension} :
    Ensures (stages r chat) (At r chat f false) (consumeQuota service r user dimension)
      (fun _ => At r chat f false) (Leaving r chat false) := by
  rw [consumeQuota]
  by_cases hquota : (service.quotaService && user.hasRole) = true
  · rw [if_pos hquota]
    refine .bind (await_spec rfl) fun reply => ?_
    cases reply with
    | granted => exact .ret fun _ _ h => h.favoured rfl
    | exceeded resetAt =>
      refine Ensures.mono (show Ensures _ (At r chat false false) _ _ _ from ?_)
        (fun _ _ h => h.unfavoured rfl) (fun _ _ _ h => h) (fun _ _ _ h => h)
      refine .bind (persistAudit_spec (by simp [quotaExceededEvent])) fun _ => ?_
      exact .raise fun _ _ h => h.leave_unrejected
    | unavailable | raised => exact .raise fun _ _ h => (h.unfavoured rfl).leave_unrejected
  · rw [if_neg hquota]
    exact .ret fun _ _ h => h

theorem storeFailed_spec :
    Ensures (stages r chat) (At r chat f false) (storeFailed r) (fun _ => At r chat f false)
      (Leaving r chat false) :=
  .bind (updateAttempt_spec fun a hof hnone => ⟨hof.changed _ _ _, hnone, by simp⟩)
    fun _ => storeUnrejected_spec

theorem executeSql_spec {sql : String} :
    Ensures (stages r chat) (At r chat f false) (executeSql r chat user sql)
      (fun _ => At r chat f false) (Leaving r chat false) := by
  refine .bind ensureOperationActive_spec fun _ => ?_
  refine .bind ensureOperationActive_spec fun _ => ?_
  refine .bind (show Ensures _ _ _ (fun _ => At r chat f false) (Leaving r chat false) from ?_)
    fun table => ?_
  · have hstage : Ensures (stages r chat) (At r chat f false)
        (do
          ensureActive
          stageValue (← await (.execute sql)))
        (fun _ => At r chat f false) (Leaving r chat false) :=
      .bind ensureActive_spec fun _ => .bind (await_spec rfl) fun _ => stageValue_spec
    refine .tryCatch hstage fun e => ?_
    refine Ensures.mono (show Ensures _ (At r chat false false) _ _ _ from ?_) (fun _ _ h => h.at)
      (fun _ _ _ h => h) (fun _ _ _ h => h)
    cases e with
    | cancelled =>
      refine .bind ensureSessionActive_spec fun _ => ?_
      exact .bind storeFailed_spec fun _ => .raise fun _ _ h => h.leave_unrejected
    | timedOut => exact .raise fun _ _ h => h.leave_unrejected
    | _ =>
      refine .bind storeFailed_spec fun _ => ?_
      refine .bind (persistAudit_spec (by simp [failureEvent, attemptEvent])) fun _ => ?_
      exact .raise fun _ _ h => h.leave_unrejected
  exact .bind ensureOperationActive_spec fun _ => .ret fun _ _ h => h

theorem applyColumnMasks_spec {policy : Option RolePolicy} {table : ResultTable} :
    Ensures (stages r chat) (At r chat f false) (applyColumnMasks policy table)
      (fun _ => At r chat f false) (Leaving r chat false) := by
  rw [applyColumnMasks]
  by_cases hpolicy : policy.any (·.masksColumns) = true
  · rw [if_pos hpolicy]
    exact .bind (perform_spec rfl) fun reply => orRaise_spec
  · rw [if_neg hpolicy]
    exact .ret fun _ _ h => h

theorem maskColumns_spec {policy : Option RolePolicy} {table : ResultTable} :
    Ensures (stages r chat) (At r chat f false) (maskColumns r chat policy table)
      (fun _ => At r chat f false) (Leaving r chat false) := by
  refine .bind ensureOperationActive_spec fun _ => ?_
  refine .bind applyColumnMasks_spec fun masked => ?_
  refine .bind ensureOperationActive_spec fun _ => ?_
  refine .bind (updateAttempt_spec fun a hof hnone => ⟨hof.changed _ _ _, hnone, by simp⟩)
    fun _ => ?_
  refine .bind storeUnrejected_spec fun _ => ?_
  exact .bind ensureOperationActive_spec fun _ => .ret fun _ _ h => h

theorem createOnce_spec {connection : Uuid} {sql : String} {table : ResultTable} :
    Ensures (stages r chat) (At r chat f false) (createOnce r connection chat sql table)
      (fun _ => At r chat f false) (Leaving r chat false) := by
  refine .bind (await_spec rfl) fun reply => ?_
  refine .bind orRaise_spec fun existing => ?_
  cases existing with
  | some accepted => exact .ret fun _ _ h => h
  | none => exact .bind (await_spec rfl) fun saved => orRaise_spec

/-- The connection id was there when the attempt was created. -/
theorem saveQuery_spec {sql : String} {table : ResultTable} {connection : Uuid}
    (hconnection : service.connectionId = some connection) :
    Ensures (stages r chat) (At r chat f false) (saveQuery service r chat sql table)
      (fun _ => At r chat f false) (Leaving r chat false) := by
  rw [saveQuery, getDatabaseConnectionId, hconnection]
  refine .bind ensureOperationActive_spec fun _ => ?_
  refine .bind (show Ensures _ _ _ (fun _ => At r chat f false) _ from .ret fun _ _ h => h)
    fun _ => ?_
  refine .bind createOnce_spec fun saved => ?_
  exact .bind ensureOperationActive_spec fun _ => .ret fun _ _ h => h

theorem finishQuery_spec {sql accepted : String} {table : ResultTable} :
    Ensures (stages r chat) (At r chat f false) (finishQuery r chat sql table accepted)
      (fun result g s => (∃ q, result = .result q) ∧ At r chat f false g s)
      (Leaving r chat false) := by
  refine .bind setActiveAttempt_spec fun _ => ?_
  refine .bind ensureOperationActive_spec fun _ => ?_
  refine .bind .readKeep fun locals => ?_
  refine .bind (await_spec rfl) fun done => ?_
  refine .bind orRaise_spec fun _ => ?_
  exact .bind ensureOperationActive_spec fun _ => .ret fun _ _ h => ⟨⟨_, rfl⟩, h⟩

theorem runQuery_spec {policy : Option RolePolicy} {sql : String} {connection : Uuid}
    (hconnection : service.connectionId = some connection) :
    Ensures (stages r chat) (At r chat f false) (runQuery service r chat user policy sql)
      (fun result g s => (∃ q, result = .result q) ∧ At r chat f false g s)
      (Leaving r chat false) := by
  refine .bind applyRowFilters_spec fun effective => ?_
  refine .bind consumeQuota_spec fun _ => ?_
  refine .bind executeSql_spec fun table => ?_
  refine .bind maskColumns_spec fun masked => ?_
  exact .bind (saveQuery_spec hconnection) fun accepted => finishQuery_spec

/-- How the pipeline ends after the submission. -/
def Answered (r : SubmitRequest) (chat : String) (g : Progress) (s : Locals) : SubmitResult → Prop
  | .result _ => At r chat true false g s
  | .rejection _ => At r chat false true g s

/-- An exception after the submission. -/
def Failing (r : SubmitRequest) (chat : String) (e : Raised) (g : Progress) (s : Locals) : Prop :=
  ∃ rejected, Leaving r chat rejected e g s

/-- **After the submission.**  A result means that every answer was favourable.  A rejection
or an exception means that one was not. -/
theorem answerQuestion_spec {connection connection' : Uuid}
    (hconnection : service.connectionId = some connection') :
    Ensures (stages r chat) (At r chat true false) (answerQuestion service r chat user connection)
      (fun result g s => Answered r chat g s result) (Failing r chat) := by
  have hfail : ∀ e g s, Leaving r chat false e g s → Failing r chat e g s := fun _ _ _ h => ⟨_, h⟩
  have hreject {rejection event} (hstored : EvaluatorRejection.isStored rejection = true)
      (hevent : event.action ≠ .querySubmit) :
      Ensures (stages r chat) (At r chat false false) (rejectAttempt r chat rejection event)
        (fun result g s => Answered r chat g s result) (Failing r chat) := by
    refine (rejectAttempt_spec hstored hevent).mono (fun _ _ h => h) ?_ (fun _ _ _ h => ⟨_, h⟩)
    rintro _ g s ⟨rfl, h⟩
    exact h
  refine .bind ((await_spec rfl).mono (fun _ _ h => h) (fun _ _ _ h => h) hfail)
    fun reply => ?_
  cases reply with
  | raised => exact .raise fun _ _ h => ⟨_, (h.unfavoured rfl).leave_unrejected⟩
  | value policy =>
    refine .bind (show Ensures _ _ _ (fun p g s => p = policy ∧
      At r chat (!policy.any (!·.allowsTables)) false g s) _
        from .ret fun _ _ h => ⟨rfl, h⟩) fun p => ?_
    apply Ensures.assume
    rintro rfl
    refine .bind (ensureOperationActive_spec.mono (fun _ _ h => h) (fun _ _ _ h => h) hfail)
      fun _ => ?_
    by_cases hdeny : p.any (!·.allowsTables) = true
    · rw [if_pos hdeny, hdeny]
      exact hreject rfl (by simp [attemptEvent])
    · rw [if_neg hdeny, Bool.eq_false_of_not_eq_true hdeny]
      refine .bind (loadHistory_spec.mono (fun _ _ h => h) (fun _ _ _ h => h) hfail)
        fun history => ?_
      refine .bind (generateSql_spec.mono (fun _ _ h => h) (fun _ _ _ h => h) hfail) fun sql => ?_
      refine .bind (evaluateSql_spec.mono (fun _ _ h => h) (fun _ _ _ h => h) hfail)
        fun failed => ?_
      cases failed with
      | some rule => exact hreject (evaluatorRejection_isStored rule) (by simp [attemptEvent])
      | none =>
        refine .bind (authorizeRole_spec.mono (fun _ _ h => h) (fun _ _ _ h => h) hfail)
          fun passed => ?_
        cases passed with
        | false => exact hreject rfl (by simp [attemptEvent])
        | true =>
          refine (runQuery_spec hconnection).mono (fun _ _ h => h) ?_ hfail
          rintro _ g s ⟨⟨q, rfl⟩, h⟩
          exact h

end Spec

end QueryPipeline
end QueryCraft
