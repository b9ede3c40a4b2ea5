import QueryCraft.PipelineFrame

/-! # The audit of a submission

`submit_question` writes the `query.submit` entry into the request's own transaction, and
that transaction is committed only at the very end, by `get_db`, when the endpoint returns.
On every other way out the entry is lost: `_persist_audit_without_request_side_effects`
rolls the transaction back before it commits its own event, an exception makes `get_db`
roll it back, and a rejection is an exception of the endpoint.

So the entry of a submission is there if and only if everything after it went well
(`submit_audited_iff`), although the comment above the call asks for one on every
submission attempt.
-/
namespace QueryCraft
namespace QueryPipeline

/-! ## The audit table -/

/-- The audit entries of the request's transaction and those that are committed.  An entry
stands for the call of `AuditService.log` that wrote it. -/
structure AuditDb where
  pending : List LogRequest
  committed : List LogRequest

namespace AuditDb

/-- An operation that takes place. -/
def execute (db : AuditDb) : Operation → AuditDb
  | .log event => { db with pending := db.pending ++ [event] }
  | .commit => ⟨[], db.committed ++ db.pending⟩
  | .rollback => { db with pending := [] }
  | .logDurably event => { db with committed := db.committed ++ [event] }
  | _ => db

/-- What an exchange does to the table.  An operation that fails may end the transaction,
and one that is interrupted by the timer may have taken place or not. -/
inductive Step (db : AuditDb) (c : Command) (reply : Response c) : AuditDb → Prop where
  | executed (h : favourable c reply = true) : Step db c reply (db.execute c.operation)
  | failed (h : favourable c reply = false) : Step db c reply db
  | ended (h : favourable c reply = false) : Step db c reply { db with pending := [] }
  | interrupted (armed : c.interruptible = true) (h : reply = .cancelled armed) :
      Step db c reply (db.execute c.operation)

/-- What the exchanges of a run do to the table.  Between them others commit entries about
other attempts. -/
inductive Evolves (others : LogRequest → Prop) : AuditDb → List (Exchange Response) → AuditDb → Prop
  where
  | nil (db : AuditDb) : Evolves others db [] db
  | exchange {db db' db'' : AuditDb} {e : Exchange Response} {trace : List (Exchange Response)}
      (hstep : Step db e.command e.reply db') (hrest : Evolves others db' trace db'') :
      Evolves others db (e :: trace) db''
  | concurrent {db db' : AuditDb} {trace : List (Exchange Response)} (event : LogRequest)
      (hother : others event)
      (hrest : Evolves others { db with committed := db.committed ++ [event] } trace db') :
      Evolves others db trace db'

end AuditDb

/-- The entry audits the submission of the request's attempt. -/
def SubmitRequest.isSubmission (r : SubmitRequest) (event : LogRequest) : Bool :=
  event.action == .querySubmit && event.resourceId == some r.attemptId.text

/-- The number of such entries. -/
def SubmitRequest.submissions (r : SubmitRequest) (entries : List LogRequest) : Nat :=
  entries.countP r.isSubmission

/-- An entry about anything else. -/
def SubmitRequest.IsOther (r : SubmitRequest) (event : LogRequest) : Prop :=
  r.isSubmission event = false

/-! ## The monitor -/

/-- What has become of the entry. -/
inductive Submission where
  | unwritten
  /-- Written to the request's transaction. -/
  | pending
  /-- Something went wrong, and the transaction will not be committed. -/
  | lost
  | committed
deriving DecidableEq, Repr

/-- The operation writes the entry. -/
def Operation.submits : Operation → Bool
  | .log event => event.action == .querySubmit
  | _ => false

/-- The operation commits an event of its own. -/
def Operation.durable? : Operation → Option LogRequest
  | .logDurably event => some event
  | _ => none

/-- One exchange. -/
def Submission.advance (phase : Submission) (c : Command) (reply : Response c) : Submission :=
  match phase with
  | .unwritten =>
    if c.operation.submits then if favourable c reply then .pending else .lost else .unwritten
  | .pending =>
    if favourable c reply then
      match c.operation with
      | .commit => .committed
      | _ => .pending
    else .lost
  | .lost => .lost
  | .committed => .committed

/-- What the request may do.  A transaction that holds the entry is not rolled back and its
commit cannot be interrupted, one that is lost is not committed, and after the commit nothing
follows. -/
def Submission.permits (phase : Submission) (c : Command) : Prop :=
  match phase with
  | .unwritten => True
  | .pending => c.operation.submits = false ∧ c.operation ≠ .rollback ∧
      (c.operation = .commit → c.interruptible = false)
  | .lost => c.operation.submits = false ∧ c.operation ≠ .commit
  | .committed => False

/-- The monitor of the audit. -/
def audit (r : SubmitRequest) : Monitor Response Submission where
  allows phase c := phase.permits c ∧ (∀ event ∈ c.operation.durable?, r.IsOther event) ∧
    ∀ event, c.operation = .log event → event.action = .querySubmit → r.isSubmission event = true
  advance := Submission.advance

/-- The request has failed, or has not come as far as its submission. -/
def Submission.IsClosed (phase : Submission) : Prop := phase = .unwritten ∨ phase = .lost

/-! ## The table along a run -/

/-- How the table fits what has become of the entry. -/
def Submission.Fits (r : SubmitRequest) (db : AuditDb) : Submission → Prop
  | .unwritten => r.submissions db.pending = 0 ∧ r.submissions db.committed = 0
  | .pending => r.submissions db.pending = 1 ∧ r.submissions db.committed = 0
  | .lost => r.submissions db.committed = 0
  | .committed => r.submissions db.committed = 1

section Table
variable {r : SubmitRequest} {db db' : AuditDb} {c : Command} {phase : Submission}

/-- Only a commit and a durable event reach the committed entries. -/
theorem submissions_committed_execute {operation : Operation}
    (hdurable : ∀ event ∈ operation.durable?, r.IsOther event) (hcommit : operation ≠ .commit) :
    r.submissions (db.execute operation).committed = r.submissions db.committed := by
  cases operation with
  | logDurably event =>
    have hother : r.isSubmission event = false := hdurable event rfl
    simp [AuditDb.execute, SubmitRequest.submissions, hother]
  | commit => exact absurd rfl hcommit
  | _ => rfl

/-- An event of another kind is no submission. -/
theorem not_submits_log {event : LogRequest} (h : Operation.submits (.log event) = false) :
    r.isSubmission event = false := by
  have haction : (event.action == .querySubmit) = false := h
  simp [SubmitRequest.isSubmission, haction]

theorem submissions_pending_execute {operation : Operation} (hsubmits : operation.submits = false)
    (hcommit : operation ≠ .commit) (hrollback : operation ≠ .rollback) :
    r.submissions (db.execute operation).pending = r.submissions db.pending := by
  cases operation with
  | log event => simp [AuditDb.execute, SubmitRequest.submissions, not_submits_log hsubmits]
  | commit => exact absurd rfl hcommit
  | rollback => exact absurd rfl hrollback
  | _ => rfl

/-- Before the submission an operation that does not write the entry leaves none. -/
theorem Fits.unwritten_execute {operation : Operation} (hfits : Submission.unwritten.Fits r db)
    (hdurable : ∀ event ∈ operation.durable?, r.IsOther event)
    (hsubmits : operation.submits = false) :
    Submission.unwritten.Fits r (db.execute operation) := by
  obtain ⟨hpending, hcommitted⟩ := hfits
  by_cases hcommit : operation = .commit
  · subst hcommit
    refine ⟨rfl, ?_⟩
    show r.submissions (db.committed ++ db.pending) = 0
    rw [SubmitRequest.submissions, List.countP_append]
    exact (congrArg₂ (· + ·) hcommitted hpending)
  · refine ⟨?_, (submissions_committed_execute hdurable hcommit).trans hcommitted⟩
    by_cases hrollback : operation = .rollback
    · subst hrollback
      rfl
    · exact (submissions_pending_execute hsubmits hcommit hrollback).trans hpending

/-- The write of the entry. -/
theorem Fits.submit_execute {operation : Operation} (hfits : Submission.unwritten.Fits r db)
    (hlog : ∀ event, operation = .log event → event.action = .querySubmit →
      r.isSubmission event = true)
    (hsubmits : operation.submits = true) :
    Submission.pending.Fits r (db.execute operation) := by
  cases operation with
  | log event =>
    have haction : event.action = .querySubmit := by simpa [Operation.submits] using hsubmits
    have hentry := hlog event rfl haction
    obtain ⟨hpending, hcommitted⟩ := hfits
    refine ⟨?_, hcommitted⟩
    rw [SubmitRequest.submissions] at hpending
    simp [AuditDb.execute, SubmitRequest.submissions, hentry, hpending]
  | _ => cases hsubmits

/-- What an exchange may do to the table: it is executed, or the committed entries stay. -/
theorem AuditDb.Step.cases {reply : Response c} (h : AuditDb.Step db c reply db') :
    db' = db.execute c.operation ∨
      (favourable c reply = false ∧ db'.committed = db.committed ∧
        (db'.pending = db.pending ∨ db'.pending = [])) := by
  cases h with
  | executed h => exact .inl rfl
  | failed h => exact .inr ⟨h, rfl, .inl rfl⟩
  | ended h => exact .inr ⟨h, rfl, .inr rfl⟩
  | interrupted armed h => exact .inl rfl

/-- An exchange that was executed and did not go well was interrupted. -/
theorem AuditDb.Step.interruptible {reply : Response c} (h : AuditDb.Step db c reply db')
    (hfavourable : favourable c reply = false) :
    c.interruptible = true ∨ db'.committed = db.committed := by
  cases h with
  | executed h => cases h.symm.trans hfavourable
  | failed h => exact .inr rfl
  | ended h => exact .inr rfl
  | interrupted armed h => exact .inl armed

theorem fits_unwritten {reply : Response c} (hallowed : (audit r).allows .unwritten c)
    (hstep : AuditDb.Step db c reply db') (hfits : Submission.unwritten.Fits r db) :
    (Submission.unwritten.advance c reply).Fits r db' := by
  obtain ⟨-, hdurable, hlog⟩ := hallowed
  rw [Submission.advance]
  rcases hstep.cases with rfl | ⟨hfavourable, hcommitted, hpending⟩
  · by_cases hsubmits : c.operation.submits = true
    · have hwritten := Fits.submit_execute hfits hlog hsubmits
      rw [if_pos hsubmits]
      split
      · exact hwritten
      · exact hwritten.2
    · rw [if_neg hsubmits]
      exact Fits.unwritten_execute hfits hdurable (by simpa using hsubmits)
  · have hzero : r.submissions db'.committed = 0 := hcommitted ▸ hfits.2
    rw [hfavourable]
    split
    · exact hzero
    · refine ⟨?_, hzero⟩
      rcases hpending with hpending | hpending
      · exact hpending ▸ hfits.1
      · rw [hpending]
        rfl

theorem fits_pending {reply : Response c} (hallowed : (audit r).allows .pending c)
    (hstep : AuditDb.Step db c reply db') (hfits : Submission.pending.Fits r db) :
    (Submission.pending.advance c reply).Fits r db' := by
  obtain ⟨⟨hsubmits, hrollback, hcommit⟩, hdurable, -⟩ := hallowed
  rw [Submission.advance]
  cases hfavourable : favourable c reply with
  | true =>
    obtain rfl : db' = db.execute c.operation := by
      rcases hstep.cases with h | ⟨h, -⟩
      · exact h
      · cases h.symm.trans hfavourable
    rw [if_pos rfl]
    split
    next hop =>
      obtain ⟨hpending, hcommitted⟩ := hfits
      rw [hop]
      show r.submissions (db.committed ++ db.pending) = 1
      rw [SubmitRequest.submissions, List.countP_append]
      exact congrArg₂ (· + ·) hcommitted hpending
    next hop =>
      exact ⟨(submissions_pending_execute hsubmits hop hrollback).trans hfits.1,
        (submissions_committed_execute hdurable hop).trans hfits.2⟩
  | false =>
    rw [if_neg (by simp)]
    show r.submissions db'.committed = 0
    rcases hstep.cases with rfl | ⟨-, hcommitted, -⟩
    · by_cases hop : c.operation = .commit
      · rcases hstep.interruptible hfavourable with harmed | hcommitted
        · cases (hcommit hop).symm.trans harmed
        · exact hcommitted ▸ hfits.2
      · exact (submissions_committed_execute hdurable hop).trans hfits.2
    · exact hcommitted ▸ hfits.2

/-- **One exchange.**  The table keeps fitting. -/
theorem fits_step {reply : Response c} (hallowed : (audit r).allows phase c)
    (hstep : AuditDb.Step db c reply db') (hfits : phase.Fits r db) :
    (phase.advance c reply).Fits r db' := by
  cases phase with
  | unwritten => exact fits_unwritten hallowed hstep hfits
  | pending => exact fits_pending hallowed hstep hfits
  | lost =>
    obtain ⟨⟨-, hcommit⟩, hdurable, -⟩ := hallowed
    show r.submissions db'.committed = 0
    rcases hstep.cases with rfl | ⟨-, hcommitted, -⟩
    · exact (submissions_committed_execute hdurable hcommit).trans hfits
    · exact hcommitted ▸ hfits
  | committed => exact absurd hallowed.1 id

/-- An entry about something else. -/
theorem Fits.concurrent {event : LogRequest} (hother : r.IsOther event) (hfits : phase.Fits r db) :
    phase.Fits r { db with committed := db.committed ++ [event] } := by
  have hcount : r.submissions (db.committed ++ [event]) = r.submissions db.committed := by
    have hnot : r.isSubmission event = false := hother
    simp [SubmitRequest.submissions, hnot]
  cases phase with
  | unwritten => exact ⟨hfits.1, hcount.trans hfits.2⟩
  | pending => exact ⟨hfits.1, hcount.trans hfits.2⟩
  | lost => exact hcount.trans hfits
  | committed => exact hcount.trans hfits

/-- **A whole run.** -/
theorem fits_after {trace : List (Exchange Response)} (hdb : AuditDb.Evolves r.IsOther db trace db')
    (haccepts : (audit r).Accepts phase trace) (hfits : phase.Fits r db) :
    ((audit r).after phase trace).Fits r db' := by
  induction hdb generalizing phase with
  | nil db => exact hfits
  | exchange hstep _ ih =>
    obtain ⟨hallowed, hrest⟩ := haccepts
    exact ih hrest (fits_step hallowed hstep hfits)
  | concurrent event hother _ ih => exact ih haccepts (Fits.concurrent hother hfits)

end Table

/-! ## The entry along a run -/

section Entry
variable {r : SubmitRequest} {later : List (Exchange Response)}

theorem after_lost : (audit r).after .lost later = .lost := by
  induction later with
  | nil => rfl
  | cons e later ih => exact ih

/-- The entry is written and nothing went wrong since. -/
theorem advance_pending {c : Command} {reply : Response c} (hfavourable : favourable c reply = true)
    (hcommit : c.operation ≠ .commit) : Submission.pending.advance c reply = .pending := by
  simp [Submission.advance, hfavourable]

/-- From the entry on: it is committed if and only if everything went well. -/
theorem after_pending (haccepts : (audit r).Accepts .pending later)
    (hclosed : (audit r).after .pending later ≠ .pending) :
    (audit r).after .pending later = .committed ↔
      ∀ e ∈ later, favourable e.command e.reply = true := by
  induction later with
  | nil => exact absurd rfl hclosed
  | cons e later ih =>
    obtain ⟨-, hrest⟩ := haccepts
    rw [List.forall_mem_cons]
    change (audit r).after (Submission.pending.advance e.command e.reply) later ≠ .pending at hclosed
    change (audit r).Accepts (Submission.pending.advance e.command e.reply) later at hrest
    show (audit r).after (Submission.pending.advance e.command e.reply) later = .committed ↔ _
    cases hfavourable : favourable e.command e.reply with
    | false =>
      have hlost : Submission.pending.advance e.command e.reply = .lost := by
        simp [Submission.advance, hfavourable]
      rw [hlost, after_lost]
      simp
    | true =>
      by_cases hop : e.command.operation = .commit
      · have hcommitted : Submission.pending.advance e.command e.reply = .committed := by
          simp [Submission.advance, hfavourable, hop]
        rw [hcommitted] at hrest ⊢
        -- nothing is allowed after the commit
        cases later with
        | nil => simp [Monitor.after]
        | cons f later => exact absurd hrest.1.1 id
      · rw [advance_pending hfavourable hop] at hrest hclosed ⊢
        simpa using ih hrest hclosed

end Entry

/-! ## The request -/

section Request
variable {service : QueryService} {r : SubmitRequest} {chat : String}
variable {operation : Operation}

/-- An operation that is allowed, and changes nothing, once the request has failed. -/
structure Operation.IsHarmless (operation : Operation) : Prop where
  submits : operation.submits = false
  commits : operation ≠ .commit
  durable : ∀ event ∈ operation.durable?, event.action ≠ .querySubmit

theorem isOther_of_action {event : LogRequest} (h : event.action ≠ .querySubmit) :
    r.IsOther event := by
  simp [SubmitRequest.IsOther, SubmitRequest.isSubmission, h]

/-- An operation that does not write the entry writes no other one either. -/
theorem isSubmission_of_submits (hsubmits : operation.submits = false) :
    ∀ event, operation = .log event → event.action = .querySubmit →
      r.isSubmission event = true := by
  rintro event rfl haction
  simp [Operation.submits, haction] at hsubmits

theorem Operation.IsHarmless.allows {phase : Submission} {c : Command}
    (h : c.operation.IsHarmless) (hclosed : phase.IsClosed) : (audit r).allows phase c := by
  refine ⟨?_, fun event hevent => isOther_of_action (h.durable event hevent),
    isSubmission_of_submits h.submits⟩
  rcases hclosed with rfl | rfl
  · trivial
  · exact ⟨h.submits, h.commits⟩

theorem Operation.IsHarmless.advance {phase : Submission} {c : Command}
    (h : c.operation.IsHarmless) (hclosed : phase.IsClosed) (reply : Response c) :
    (phase.advance c reply).IsClosed := by
  rcases hclosed with rfl | rfl
  · simp [Submission.advance, h.submits, Submission.IsClosed]
  · exact .inr rfl

/-- Harmless operations keep a failed request failed. -/
theorem keeps_closed (h : operation.IsHarmless) : Keeps (audit r) Submission.IsClosed operation :=
  fun _ _ hclosed => ⟨h.allows hclosed, fun reply => h.advance hclosed reply⟩

theorem handlersKeep_closed : HandlersKeep (audit r) Submission.IsClosed where
  rollback := keeps_closed ⟨rfl, by simp, by simp [Operation.durable?]⟩
  discardAttempt _ := keeps_closed ⟨rfl, by simp, by simp [Operation.durable?]⟩
  sessionCancelled _ := keeps_closed ⟨rfl, by simp, by simp [Operation.durable?]⟩
  storeAttempt _ _ := keeps_closed ⟨rfl, by simp, by simp [Operation.durable?]⟩
  deleteActiveAttempt _ := keeps_closed ⟨rfl, by simp, by simp [Operation.durable?]⟩
  logDurably event haction := keeps_closed ⟨rfl, by simp, by simp [Operation.durable?, haction]⟩

theorem cleanup_closed :
    Ensures (audit r) (fun phase _ => phase.IsClosed) (cleanup r)
      (fun _ phase _ => phase.IsClosed) (fun _ phase _ => phase.IsClosed) :=
  cleanup_keeps (fun _ => keeps_closed ⟨rfl, by simp, by simp [Operation.durable?]⟩)
    fun _ _ => keeps_closed ⟨rfl, by simp, by simp [Operation.durable?]⟩

/-- Without the timer the `finally` block cannot go wrong. -/
theorem cleanup_pending :
    Ensures (audit r) (fun phase _ => phase = .pending) (cleanup r)
      (fun _ phase s => phase = .pending ∧ s.timerArmed = false) (fun _ _ _ => False) := by
  have hawait : ∀ operation : Operation, operation.submits = false → operation ≠ .rollback →
      operation ≠ .commit → operation.durable? = none →
      (∀ a, favourableAnswer operation a = true) →
      Ensures (audit r) (fun phase s => phase = .pending ∧ s.timerArmed = false) (await operation)
        (fun _ phase s => phase = .pending ∧ s.timerArmed = false) (fun _ _ _ => False) := by
    intro operation hsubmits hrollback hcommit hdurable hfavourable
    refine ensures_await ?_ ?_ ?_
    · rintro phase s ⟨rfl, -⟩
      exact ⟨⟨hsubmits, hrollback, fun h => absurd h hcommit⟩, by simp [hdurable],
        isSubmission_of_submits hsubmits⟩
    · rintro phase s a ⟨rfl, harmed⟩
      exact ⟨advance_pending (hfavourable a) hcommit, harmed⟩
    · rintro phase s armed ⟨rfl, harmed⟩
      cases harmed.symm.trans armed
  refine .bind (show Ensures _ _ _ (fun _ phase s => phase = .pending ∧ s.timerArmed = false) _
    from .update fun _ _ hphase => ⟨hphase, rfl⟩) fun _ => ?_
  refine .bind (show Ensures _ _ _ (fun _ phase s => phase = .pending ∧ s.timerArmed = false) _
    from ?_) fun _ => hawait _ rfl (by simp) (by simp) rfl fun _ => rfl
  refine .bind .readKeep fun locals => ?_
  cases locals.queryOperation with
  | none => exact .ret fun _ _ h => h
  | some operation => exact hawait _ rfl (by simp) (by simp) rfl fun _ => rfl

/-- The entry of a part of the pipeline that comes to an end. -/
def SubmitResult.Audited (phase : Submission) : SubmitResult → Prop
  | .result _ => phase = .pending
  | .rejection _ => phase.IsClosed

/-- The stages keep the entry as long as all goes well. -/
def Progress.submission (g : Progress) : Submission := if g.favourable then .pending else .lost

theorem stages_audit {g : Progress} {phase : Submission} {c : Command}
    (hrel : phase = g.submission) (hc : (stages r chat).allows g c) :
    (audit r).allows phase c ∧
      ∀ reply, (audit r).advance phase c reply = ((stages r chat).advance g c reply).submission := by
  obtain ⟨-, hrollback, hquiet, -⟩ := hc
  have hcommit : c.operation ≠ .commit := by
    intro hop
    simp [hop, Operation.isQuiet] at hquiet
  have hsubmits : c.operation.submits = false := by
    cases hop : c.operation with
    | log event => simpa [hop, Operation.isQuiet, Operation.submits] using hquiet
    | _ => rfl
  have hdurable : ∀ event ∈ c.operation.durable?, r.IsOther event := by
    intro event hevent
    cases hop : c.operation with
    | logDurably e =>
      rw [hop] at hevent hquiet
      obtain rfl := Option.some.inj hevent
      exact isOther_of_action (by simpa [Operation.isQuiet] using hquiet)
    | _ => rw [hop] at hevent; cases hevent
  subst hrel
  refine ⟨⟨?_, hdurable, isSubmission_of_submits hsubmits⟩, fun reply => ?_⟩
  · cases hf : g.favourable with
    | true =>
      rw [Progress.submission, if_pos hf]
      exact ⟨hsubmits, hrollback hf, fun h => absurd h hcommit⟩
    | false =>
      rw [Progress.submission, if_neg (by simp [hf])]
      exact ⟨hsubmits, hcommit⟩
  · show g.submission.advance c reply = (g.advance c reply).submission
    cases hf : g.favourable <;> cases hr : favourable c reply <;>
      simp [Progress.submission, Progress.advance, Submission.advance, hf, hr]

/-- From the submission on. -/
theorem answerQuestion_audit {user : UserRow} {connection connection' : Uuid}
    (hconnection : service.connectionId = some connection') :
    Ensures (audit r) (fun phase s => ∃ g, phase = g.submission ∧ At r chat true false g s)
      (do
        ensureOperationActive chat
        answerQuestion service r chat user connection)
      (fun result phase _ => result.Audited phase) (fun _ phase _ => phase.IsClosed) := by
  have hstages : Ensures (stages r chat) (At r chat true false)
      (do
        ensureOperationActive chat
        answerQuestion service r chat user connection)
      (fun result g s => Answered r chat g s result) (Failing r chat) :=
    .bind (ensureOperationActive_spec.mono (fun _ _ h => h) (fun _ _ _ h => h)
      (fun _ _ _ h => ⟨_, h⟩)) fun _ => answerQuestion_spec hconnection
  have hsim := hstages.simulate (show ∀ g phase c, phase = Progress.submission g →
    (stages r chat).allows g c → _ from fun g phase c hrel hc => stages_audit hrel hc)
  refine hsim.mono (fun _ _ h => h) ?_ ?_
  · rintro result phase s ⟨g, rfl, hanswered⟩
    cases result with
    | result q => exact if_pos hanswered.isFavourable
    | rejection q => exact .inr (if_neg (by simp [hanswered.isFavourable]))
  · rintro e phase s ⟨g, rfl, rejected, hleaving⟩
    exact .inr (if_neg (by simp [hleaving.notFavourable]))

/-- An operation before the submission. -/
theorem keeps_unwritten (hsubmits : operation.submits = false)
    (hdurable : ∀ event ∈ operation.durable?, event.action ≠ .querySubmit) :
    Keeps (audit r) (· = .unwritten) operation := by
  rintro _ interruptible rfl
  refine ⟨⟨trivial, fun event hevent => isOther_of_action (hdurable event hevent),
    isSubmission_of_submits hsubmits⟩, fun reply => ?_⟩
  simp [audit, Submission.advance, hsubmits]

theorem preparation_unwritten (hop : operation.isPreparatory = true) :
    Keeps (audit r) (· = .unwritten) operation := by
  cases operation with
  | log event =>
    exact keeps_unwritten (by simpa [Operation.isPreparatory, Operation.submits] using hop)
      (by simp [Operation.durable?])
  | logDurably event =>
    exact keeps_unwritten rfl (by simpa [Operation.isPreparatory, Operation.durable?] using hop)
  | _ => exact keeps_unwritten rfl (by simp [Operation.durable?])

theorem registration_unwritten {attempt : EphemeralAttempt} (hop : operation.registers r attempt) :
    Keeps (audit r) (· = .unwritten) operation := by
  cases operation with
  | log event | logDurably event => exact absurd hop id
  | _ => exact keeps_unwritten rfl (by simp [Operation.durable?])

theorem tryBody_audit :
    Ensures (audit r) (fun phase s => phase = .unwritten ∧ Idle r.chatSessionId s)
      (tryBody service r) (fun result phase _ => result.Audited phase)
      (fun _ phase _ => phase.IsClosed) := by
  have hprepare : Ensures (audit r) (fun phase s => phase = .unwritten ∧ Idle r.chatSessionId s)
      (prepareAttempt service r)
      (fun p phase s => phase = .unwritten ∧ Submitting service r p.2.1 p.2.2 s)
      (fun _ phase s => phase = .unwritten ∧ Unsubmitted service r s) :=
    prepareAttempt_spec (fun phase c hphase hc => preparation_unwritten hc phase _ hphase)
      fun _ _ _ phase c hphase hc => registration_unwritten hc phase _ hphase
  have hsubmit : ∀ chat connection user, Ensures (audit r)
      (fun phase s => phase = .unwritten ∧ Submitting service r chat connection s)
      (await (.log (submitEvent r service user)))
      (fun done phase s => phase = (if done.isValue then .pending else .lost) ∧
        Submitting service r chat connection s) (fun _ phase _ => phase.IsClosed) := by
    intro chat connection user
    refine ensures_await ?_ ?_ ?_
    · rintro phase s ⟨rfl, -⟩
      refine ⟨trivial, by simp [Operation.durable?], ?_⟩
      rintro event heq -
      obtain rfl := Operation.log.inj heq
      simp [SubmitRequest.isSubmission, submitEvent, attemptEvent]
    · rintro phase s done ⟨rfl, hs⟩
      refine ⟨?_, hs⟩
      cases done with
      | value => rfl
      | raised => rfl
    · rintro phase s armed ⟨rfl, -⟩
      exact .inr rfl
  refine .bind (hprepare.mono (fun _ _ h => h) (fun _ _ _ h => h) fun _ _ _ h => .inl h.1) ?_
  rintro ⟨user, chat, connection⟩
  refine .bind (hsubmit chat connection user) fun done => ?_
  cases done with
  | raised => exact .raise fun _ _ h => .inr h.1
  | value =>
    intro phase s hs
    obtain ⟨hphase, -, hconnection, hand⟩ := hs
    exact answerQuestion_audit hconnection phase s
      ⟨⟨true, false, false⟩, hphase, rfl, rfl, rfl, _, hand, rfl⟩

/-- What is left of the entry when the request has its result: with the timer disarmed, the
commit cannot be interrupted. -/
def SubmitResult.Finished (phase : Submission) (s : Locals) : SubmitResult → Prop
  | .result _ => phase = .pending ∧ s.timerArmed = false
  | .rejection _ => phase.IsClosed

theorem submitQuestion_audit :
    Ensures (audit r) (fun phase s => phase = .unwritten ∧ Idle r.chatSessionId s)
      (submitQuestion service r) (fun result phase s => result.Finished phase s)
      (fun _ phase _ => phase.IsClosed) := by
  have hlock : Ensures (audit r) (fun phase s => phase = .unwritten ∧ Idle r.chatSessionId s)
      (acquireLock r) (fun _ phase s => phase = .unwritten ∧ Idle r.chatSessionId s)
      (fun _ phase _ => phase.IsClosed) := by
    have hkeeps : Keeps (audit r) (· = .unwritten)
        (.acquireLock r.httpSessionId r.lockOwner.text) :=
      keeps_unwritten rfl (by simp [Operation.durable?])
    refine .bind (show Ensures _ _ _
      (fun _ phase s => phase = .unwritten ∧ Idle r.chatSessionId s) _ from ?_) fun acquired => ?_
    · exact ensures_await (fun phase _ h => (hkeeps phase _ h.1).1)
        (fun phase _ _ h => ⟨(hkeeps phase _ h.1).2 _, h.2⟩)
        (fun phase _ _ h => .inl ((hkeeps phase _ h.1).2 _))
    cases acquired with
    | true => exact .ret fun _ _ h => h
    | false => exact .raise fun _ _ h => .inl h.1
  refine .bind hlock fun _ => ?_
  refine .bind (.updateKeep fun _ _ h => ⟨h.1, h.2.chatSessionId, h.2.attempt, h.2.queryOperation,
    h.2.trackedAttempt⟩) fun _ => ?_
  have hhandled : Ensures (audit r) (fun phase s => phase = .unwritten ∧ Idle r.chatSessionId s)
      (tryCatch (tryBody service r) (handle r)) (fun result phase _ => result.Audited phase)
      (fun _ phase _ => phase.IsClosed) :=
    .tryCatch tryBody_audit fun e => handle_keeps handlersKeep_closed e
  refine .ensuring hhandled (fun result => ?_) fun _ => cleanup_closed
  cases result with
  | result q => exact cleanup_pending.mono (fun _ _ h => h) (fun _ _ _ h => h) (fun _ _ _ h => h.elim)
  | rejection q => exact cleanup_closed

/-- The commit of `get_db`. -/
theorem commit_audit :
    Ensures (audit r) (fun phase s => phase = .pending ∧ s.timerArmed = false) (await .commit)
      (fun done phase _ => phase = if done.isValue then .committed else .lost)
      (fun _ phase _ => phase.IsClosed) := by
  refine ensures_await ?_ ?_ ?_
  · rintro phase s ⟨rfl, harmed⟩
    exact ⟨⟨rfl, by simp, fun _ => harmed⟩, by simp [Operation.durable?], by simp⟩
  · rintro phase s done ⟨rfl, -⟩
    cases done with
    | value => rfl
    | raised => rfl
  · rintro phase s armed ⟨rfl, harmed⟩
    cases harmed.symm.trans armed

/-- **The request.**  A result means that the entry was committed, and an exception that it
was not. -/
theorem serveSubmit_audit :
    Ensures (audit r) (fun phase s => phase = .unwritten ∧ Idle r.chatSessionId s)
      (serveSubmit service r) (fun _ phase _ => phase = .committed)
      (fun _ phase _ => phase.IsClosed) := by
  have hendpoint : Ensures (audit r) (fun phase s => phase = .unwritten ∧ Idle r.chatSessionId s)
      (submitEndpoint service r) (fun _ phase s => phase = .pending ∧ s.timerArmed = false)
      (fun _ phase _ => phase.IsClosed) := by
    refine .bind submitQuestion_audit fun result => ?_
    cases result with
    | result q => exact .ret fun _ _ h => h
    | rejection q => exact .raise fun _ _ h => h
  have hbody : Ensures (audit r) (fun phase s => phase = .unwritten ∧ Idle r.chatSessionId s)
      (do
        let result ← submitEndpoint service r
        orRaise (← await .commit)
        pure result)
      (fun _ phase _ => phase = .committed) (fun _ phase _ => phase.IsClosed) := by
    refine .bind hendpoint fun result => .bind commit_audit fun done => ?_
    cases done with
    | value =>
      refine .bind (show Ensures _ _ _ (fun _ phase _ => phase = .committed) _ from
        .ret fun _ _ h => h) fun _ => .ret fun _ _ h => h
    | raised => exact .raise fun _ _ h => .inr h
  refine .tryCatch hbody fun e => ?_
  refine .bind (await_keeps handlersKeep_closed.rollback) fun done => ?_
  exact .bind (ensures_orRaise fun _ _ h => h) fun _ => .raise fun _ _ h => h

end Request

/-! ## Durability -/

section Durability
variable {service : QueryService} {r : SubmitRequest} {db db' : AuditDb}

/-- **The audit of a submission.**  When the entry of a submission was written, it is in the
committed table at the end of the request, exactly once, if and only if everything that
followed went well. -/
theorem submit_audited_iff {earlier later : List (Exchange Response)} {e : Exchange Response}
    {outcome : Except Raised QueryResult × Locals}
    (hruns : (serveSubmit service r r.locals).Runs (earlier ++ e :: later) outcome)
    (hsubmits : e.command.operation.submits = true)
    (hwritten : favourable e.command e.reply = true)
    (hdb : AuditDb.Evolves r.IsOther db (earlier ++ e :: later) db')
    (hpending : db.pending = []) (hfresh : r.submissions db.committed = 0) :
    r.submissions db'.committed = 1 ↔ ∀ x ∈ later, favourable x.command x.reply = true := by
  obtain ⟨haccepts, hended⟩ :=
    (serveSubmit_audit .unwritten r.locals ⟨rfl, ⟨rfl, rfl, rfl, rfl⟩⟩).accepts hruns
  have hfits := fits_after hdb haccepts ⟨by rw [hpending]; rfl, hfresh⟩
  have hclosed : (audit r).after .unwritten (earlier ++ e :: later) ≠ .pending := by
    obtain ⟨raised | result, s⟩ := outcome
    · intro hphase
      rcases hended with h | h
      · cases h.symm.trans hphase
      · cases h.symm.trans hphase
    · intro hphase
      cases hphase.symm.trans hended
  rw [Monitor.accepts_append] at haccepts
  obtain ⟨-, ⟨hpermits, -⟩, hlater⟩ := haccepts
  -- the entry can only be written where it was not written before
  have hunwritten : (audit r).after .unwritten earlier = .unwritten := by
    cases hphase : (audit r).after .unwritten earlier with
    | unwritten => rfl
    | pending | lost =>
      rw [hphase] at hpermits
      cases hpermits.1.symm.trans hsubmits
    | committed =>
      rw [hphase] at hpermits
      exact absurd hpermits id
  have hopened : Submission.unwritten.advance e.command e.reply = .pending := by
    simp [Submission.advance, hsubmits, hwritten]
  have hafter : (audit r).after .unwritten (earlier ++ e :: later) =
      (audit r).after .pending later := by
    rw [Monitor.after_append, hunwritten]
    show (audit r).after (Submission.unwritten.advance e.command e.reply) later = _
    rw [hopened]
  rw [hunwritten] at hlater
  replace hlater : (audit r).Accepts (Submission.unwritten.advance e.command e.reply) later :=
    hlater
  rw [hopened] at hlater
  rw [hafter] at hfits hclosed
  rw [← after_pending hlater hclosed]
  cases hphase : (audit r).after .pending later with
  | unwritten =>
    rw [hphase] at hfits
    simp [hfits.2]
  | pending => exact absurd hphase hclosed
  | lost =>
    rw [hphase] at hfits
    replace hfits : r.submissions db'.committed = 0 := hfits
    simp [hfits]
  | committed =>
    rw [hphase] at hfits
    exact iff_of_true hfits rfl

/-- The table when an operation that fails leaves it as it is. -/
def AuditDb.replay (db : AuditDb) (trace : List (Exchange Response)) : AuditDb :=
  trace.foldl (fun db e => if favourable e.command e.reply then db.execute e.command.operation else db)
    db

theorem AuditDb.evolves_replay (others : LogRequest → Prop) (db : AuditDb)
    (trace : List (Exchange Response)) : AuditDb.Evolves others db trace (db.replay trace) := by
  induction trace generalizing db with
  | nil => exact .nil db
  | cons e trace ih =>
    by_cases hfavourable : favourable e.command e.reply = true
    · refine .exchange (.executed hfavourable) ?_
      rw [replay, List.foldl_cons, if_pos hfavourable]
      exact ih _
    · refine .exchange (.failed (by simpa using hfavourable)) ?_
      rw [replay, List.foldl_cons, if_neg hfavourable]
      exact ih _

end Durability

/-! ## Two requests -/

/-- A request that is answered. -/
def answeredRequest : List (Exchange Response) × (Except Raised QueryResult × Locals) :=
  Program.runWith (fun _ c => .answer (goodAnswer c.operation)) []
    (serveSubmit sampleService sampleRequest sampleRequest.locals)

theorem answered_audited :
    sampleRequest.submissions (AuditDb.replay ⟨[], []⟩ answeredRequest.1).committed = 1 := by
  have hruns : (serveSubmit sampleService sampleRequest sampleRequest.locals).Runs
      answeredRequest.1 answeredRequest.2 := Program.runs_of_runWith rfl
  have hgood : ∀ e ∈ answeredRequest.1, favourable e.command e.reply = true :=
    List.all_eq_true.mp (by decide +kernel)
  have hany : answeredRequest.1.any (·.command.operation.submits) = true := by decide +kernel
  obtain ⟨e, he, hsubmits⟩ := List.any_eq_true.mp hany
  have hdb := AuditDb.evolves_replay sampleRequest.IsOther ⟨[], []⟩ answeredRequest.1
  obtain ⟨earlier, later, hsplit⟩ := List.append_of_mem he
  rw [hsplit] at hruns hgood hdb ⊢
  refine (submit_audited_iff hruns hsubmits (hgood e (by simp)) hdb rfl rfl).mpr ?_
  exact fun x hx => hgood x (by simp [hx])

/-- A role without tables. -/
def denied (_ : List (Exchange Response)) : (c : Command) → Response c
  | ⟨.resolveRolePolicy _ _, _⟩ => .answer (.value (some ⟨false, false, false⟩))
  | ⟨operation, _⟩ => .answer (goodAnswer operation)

/-- A request whose policy denies everything. -/
def deniedRequest : List (Exchange Response) × (Except Raised QueryResult × Locals) :=
  Program.runWith denied [] (serveSubmit sampleService sampleRequest sampleRequest.locals)

/-- The entry is written and rolled back before the denial is audited. -/
theorem denied_not_audited :
    (serveSubmit sampleService sampleRequest sampleRequest.locals).Runs deniedRequest.1
        deniedRequest.2 ∧
      (∃ e ∈ deniedRequest.1, e.command.operation.submits = true ∧
        favourable e.command e.reply = true) ∧
      AuditDb.Evolves sampleRequest.IsOther ⟨[], []⟩ deniedRequest.1
        (AuditDb.replay ⟨[], []⟩ deniedRequest.1) ∧
      sampleRequest.submissions (AuditDb.replay ⟨[], []⟩ deniedRequest.1).committed ≠ 1 := by
  refine ⟨Program.runs_of_runWith rfl, ?_, AuditDb.evolves_replay _ _ _, by decide +kernel⟩
  have hany : deniedRequest.1.any (fun e => e.command.operation.submits &&
      favourable e.command e.reply) = true := by decide +kernel
  obtain ⟨e, he, hboth⟩ := List.any_eq_true.mp hany
  rw [Bool.and_eq_true] at hboth
  exact ⟨e, he, hboth⟩

end QueryPipeline
end QueryCraft
