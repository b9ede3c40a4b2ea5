import QueryCraft.PipelineStages

/-! # Around the stages

What `submit_question` does before the submission is audited, and what its handlers and its
`finally` block do.  The part before needs only a few operations, and the triples here name
them: `preparation` for what comes before the attempt exists, `registration` for the operation
record, the tracked attempt and the first store.  The handlers are looked at through
invariants of a monitor that their operations keep (`Keeps`).
-/
namespace QueryCraft
namespace QueryPipeline

/-! ## Operations that keep an invariant -/

/-- The operation is allowed where the invariant holds, and every reply keeps it. -/
def Keeps {H : Type} (N : Monitor Response H) (inv : H → Prop) (operation : Operation) : Prop :=
  ∀ h interruptible, inv h → N.allows h ⟨operation, interruptible⟩ ∧
    ∀ reply, inv (N.advance h ⟨operation, interruptible⟩ reply)

section Keeps
variable {H : Type} {N : Monitor Response H} {inv : H → Prop} {r : SubmitRequest}

theorem await_keeps {operation : Operation} (h : Keeps N inv operation) :
    Ensures N (fun g _ => inv g) (await operation) (fun _ g _ => inv g) (fun _ g _ => inv g) :=
  ensures_await (fun g _ hg => (h g _ hg).1) (fun g _ _ hg => (h g _ hg).2 _)
    (fun g _ _ hg => (h g _ hg).2 _)

theorem persistAudit_keeps {event : LogRequest} (hrollback : Keeps N inv .rollback)
    (hevent : Keeps N inv (.logDurably event)) :
    Ensures N (fun g _ => inv g) (persistAudit event) (fun _ g _ => inv g)
      (fun _ g _ => inv g) := by
  refine .bind (await_keeps hrollback) fun done => ?_
  refine .bind (ensures_orRaise fun _ _ hg => hg) fun _ => ?_
  exact .bind (await_keeps hevent) fun done' => ensures_orRaise fun _ _ hg => hg

theorem discardInvalidatedAttempt_keeps (hrollback : Keeps N inv .rollback)
    (hdiscard : ∀ tracked, Keeps N inv (.discardAttempt tracked)) :
    Ensures N (fun g _ => inv g) discardInvalidatedAttempt (fun _ g _ => inv g)
      (fun _ g _ => inv g) := by
  refine .bind (await_keeps hrollback) fun done => ?_
  refine .bind (ensures_orRaise fun _ _ hg => hg) fun _ => .bind .readKeep fun locals => ?_
  cases locals.trackedAttempt with
  | none => exact .ret fun _ _ hg => hg
  | some tracked => exact await_keeps (hdiscard tracked)

theorem ensureChatSessionActive_keeps (hmarker : ∀ chat, Keeps N inv (.sessionCancelled chat))
    (named : Option String) :
    Ensures N (fun g _ => inv g) (ensureChatSessionActive named) (fun _ g _ => inv g)
      (fun _ g _ => inv g) := by
  cases named with
  | none => exact .ret fun _ _ hg => hg
  | some chat =>
    refine .bind (await_keeps (hmarker chat)) fun marked => ?_
    cases marked with
    | false => exact .ret fun _ _ hg => hg
    | true => exact .raise fun _ _ hg => hg

theorem cleanup_keeps (hclear : ∀ operation, Keeps N inv (.clearOperation operation))
    (hrelease : ∀ http owner, Keeps N inv (.releaseLock http owner)) :
    Ensures N (fun g _ => inv g) (cleanup r) (fun _ g _ => inv g) (fun _ g _ => inv g) := by
  refine .bind (.updateKeep fun _ _ hg => hg) fun _ => ?_
  refine .bind (show Ensures _ _ _ (fun _ g _ => inv g) _ from ?_) fun _ =>
    await_keeps (hrelease _ _)
  refine .bind .readKeep fun locals => ?_
  cases locals.queryOperation with
  | none => exact .ret fun _ _ hg => hg
  | some operation => exact await_keeps (hclear operation)

/-- The operations of the handlers. -/
structure HandlersKeep (N : Monitor Response H) (inv : H → Prop) : Prop where
  rollback : Keeps N inv .rollback
  discardAttempt : ∀ tracked, Keeps N inv (.discardAttempt tracked)
  sessionCancelled : ∀ chat, Keeps N inv (.sessionCancelled chat)
  storeAttempt : ∀ attempt http, Keeps N inv (.storeAttempt attempt http)
  deleteActiveAttempt : ∀ http, Keeps N inv (.deleteActiveAttempt http)
  logDurably : ∀ event : LogRequest, event.action = .queryExecute →
    Keeps N inv (.logDurably event)

variable (hkeep : HandlersKeep N inv)
include hkeep

theorem storeTimeout_keeps (named : Option String) :
    Ensures N (fun g _ => inv g) (storeTimeout r named) (fun _ g _ => inv g)
      (fun _ g _ => inv g) := by
  refine .bind (ensureChatSessionActive_keeps hkeep.sessionCancelled named) fun _ => ?_
  refine .bind (.updateKeep fun _ _ hg => hg) fun _ => ?_
  refine .bind (show Ensures _ _ _ (fun _ g _ => inv g) _ from ?_) fun _ => ?_
  · refine .bind .readKeep fun locals => ?_
    cases locals.attempt with
    | none => exact .ret fun _ _ hg => hg
    | some attempt => exact await_keeps (hkeep.storeAttempt attempt _)
  refine .bind (await_keeps (hkeep.deleteActiveAttempt _)) fun _ => ?_
  exact ensureChatSessionActive_keeps hkeep.sessionCancelled named

theorem raiseTimeout_keeps {α : Type} {post : α → H → Locals → Prop} :
    Ensures N (fun g _ => inv g) (raiseTimeout r) post (fun _ g _ => inv g) := by
  refine .bind (show Ensures _ _ _ (fun _ g _ => inv g) _ from ?_) fun _ => ?_
  · refine .tryCatch (.bind .readKeep fun locals => storeTimeout_keeps hkeep _) fun e => ?_
    cases e with
    | sessionInvalidated =>
      exact .bind (discardInvalidatedAttempt_keeps hkeep.rollback hkeep.discardAttempt) fun _ =>
        .raise fun _ _ hg => hg
    | _ => exact .raise fun _ _ hg => hg
  · refine .bind .readKeep fun locals => ?_
    exact .bind (persistAudit_keeps hkeep.rollback (hkeep.logDurably _ rfl)) fun _ =>
      .raise fun _ _ hg => hg

/-- The `except` clauses, which always raise. -/
theorem handle_keeps {α : Type} {post : α → H → Locals → Prop} (e : Raised) :
    Ensures N (fun g _ => inv g) (handle r e) post (fun _ g _ => inv g) := by
  cases e with
  | sessionInvalidated =>
    exact .bind (discardInvalidatedAttempt_keeps hkeep.rollback hkeep.discardAttempt) fun _ =>
      .raise fun _ _ hg => hg
  | deadlineExpired =>
    exact .bind (.updateKeep fun _ _ hg => hg) fun _ => raiseTimeout_keeps hkeep
  | cancelled =>
    refine .bind (show Ensures _ _ _ (fun _ g _ => inv g) _ from ?_) fun _ =>
      .bind (.updateKeep fun _ _ hg => hg) fun _ => raiseTimeout_keeps hkeep
    refine .bind .readKeep fun locals => ?_
    cases locals.cancelledTask with
    | true => exact .ret fun _ _ hg => hg
    | false => exact .raise fun _ _ hg => hg
  | _ => exact .raise fun _ _ hg => hg

end Keeps

/-! ## Before the attempt exists -/

/-- The operations of the part before the attempt exists. -/
def Operation.isPreparatory : Operation → Bool
  | .findUser _ | .detect _ | .commit | .rollback | .createSession .. | .findSession ..
  | .latestWithoutFeedback .. | .flush | .updateLastActivity .. | .updatePreviewText ..
  | .checkAndIncrement .. | .deadlineExpired => true
  | .log event | .logDurably event => event.action != .querySubmit
  | _ => false

/-- The monitor of that part. -/
def preparation : Monitor Response Unit where
  allows _ c := c.operation.isPreparatory = true
  advance _ _ _ := ()

/-- There is no attempt yet. -/
structure Idle (chat : Option String) (s : Locals) : Prop where
  chatSessionId : s.chatSessionId = chat
  attempt : s.attempt = none
  queryOperation : s.queryOperation = none
  trackedAttempt : s.trackedAttempt = none

theorem Idle.timerFired {chat : Option String} {s : Locals} (h : Idle chat s) :
    Idle chat s.timerFired :=
  ⟨h.chatSessionId, h.attempt, h.queryOperation, h.trackedAttempt⟩

/-- The chat session of a request: the one it names, or a new one. -/
def SubmitRequest.Opens (r : SubmitRequest) (chat : String) : Prop :=
  match r.chatSessionId with
  | none => isCanonicalUuid chat = true
  | some named => chat = named

section Preparation
variable {service : QueryService} {r : SubmitRequest} {user : UserRow} {chat : Option String}
variable {operation : Operation}

theorem await_idle (hop : operation.isPreparatory = true) :
    Ensures preparation (fun _ => Idle chat) (await operation) (fun _ _ => Idle chat)
      (fun _ _ => Idle chat) :=
  ensures_await (fun _ _ _ => hop) (fun _ _ _ h => h) (fun _ _ _ h => h.timerFired)

theorem ensureActive_idle :
    Ensures preparation (fun _ => Idle chat) ensureActive (fun _ _ => Idle chat)
      (fun _ _ => Idle chat) := by
  have hclock : Ensures preparation (fun _ => Idle chat) (perform .deadlineExpired)
      (fun _ _ => Idle chat) (fun _ _ => Idle chat) :=
    ensures_perform (fun _ _ _ => rfl) (fun _ _ _ h => h)
  refine .bind hclock fun expired => ?_
  cases expired with
  | false => exact .ret fun _ _ h => h
  | true => exact .raise fun _ _ h => h

theorem findUser_idle :
    Ensures preparation (fun _ => Idle chat) (findUser r) (fun _ _ => Idle chat)
      (fun _ _ => Idle chat) := by
  refine .bind (await_idle rfl) fun reply => ?_
  refine .bind (ensures_orRaise fun _ _ h => h) fun row => ?_
  cases row with
  | none => exact .raise fun _ _ h => h
  | some user =>
    refine .bind (show Ensures _ _ _ (fun _ _ => Idle chat) _ from .update fun _ _ h => ?_)
      fun _ => .bind ensureActive_idle fun _ => .ret fun _ _ h => h
    exact ⟨h.chatSessionId, h.attempt, h.queryOperation, h.trackedAttempt⟩

theorem logDetection_idle {action : AuditActionType} {outcome : String} {context : Json}
    (haction : action ≠ .querySubmit) :
    Ensures preparation (fun _ => Idle chat) (logDetection r user action outcome context)
      (fun _ _ => Idle chat) (fun _ _ => Idle chat) := by
  refine .bind (await_idle (by simp [Operation.isPreparatory, haction])) fun done => ?_
  refine .bind (ensures_orRaise fun _ _ h => h) fun _ => ?_
  exact .bind (await_idle rfl) fun done' => ensures_orRaise fun _ _ h => h

theorem detectHostileInput_idle :
    Ensures preparation (fun _ => Idle chat) (detectHostileInput r user) (fun _ _ => Idle chat)
      (fun _ _ => Idle chat) := by
  refine .bind (await_idle rfl) fun reply => ?_
  cases reply with
  | unavailable | raised => exact .raise fun _ _ h => h
  | outcome outcome context =>
    refine .bind ensureActive_idle fun _ => ?_
    refine .bind (show Ensures _ _ _ (fun _ _ => Idle chat) _ from ?_) fun _ => ensureActive_idle
    cases outcome with
    | allowed => exact .ret fun _ _ h => h
    | flagged => exact logDetection_idle (by simp)
    | blocked => exact .bind (logDetection_idle (by simp)) fun _ => .raise fun _ _ h => h

theorem consumeQuota_idle {dimension : QuotaDimension} :
    Ensures preparation (fun _ => Idle chat) (consumeQuota service r user dimension)
      (fun _ _ => Idle chat) (fun _ _ => Idle chat) := by
  rw [consumeQuota]
  by_cases hquota : (service.quotaService && user.hasRole) = true
  · rw [if_pos hquota]
    refine .bind (await_idle rfl) fun reply => ?_
    cases reply with
    | granted => exact .ret fun _ _ h => h
    | exceeded resetAt =>
      refine .bind (show Ensures _ _ _ (fun _ _ => Idle chat) _ from ?_) fun _ =>
        .raise fun _ _ h => h
      refine .bind (await_idle rfl) fun done => ?_
      refine .bind (ensures_orRaise fun _ _ h => h) fun _ => ?_
      exact .bind (await_idle rfl) fun done' => ensures_orRaise fun _ _ h => h
    | unavailable | raised => exact .raise fun _ _ h => h
  · rw [if_neg hquota]
    exact .ret fun _ _ h => h

/-- A follow-up question. -/
theorem followUp_idle {named : String} {hasPreview : Bool} :
    Ensures preparation (fun _ => Idle chat)
      (do
        applyImplicitFeedback r named
        orRaise (← await (.updateLastActivity named r.userId))
        fillPreview r named hasPreview
        pure named)
      (fun opened _ s => opened = named ∧ Idle chat s) (fun _ _ => Idle chat) := by
  refine .bind (show Ensures _ _ _ (fun _ _ => Idle chat) _ from ?_) fun _ => ?_
  · refine .bind (await_idle rfl) fun reply => .bind (ensures_orRaise fun _ _ h => h) fun pending => ?_
    cases pending with
    | false => exact .ret fun _ _ h => h
    | true => exact .bind (await_idle rfl) fun done => ensures_orRaise fun _ _ h => h
  refine .bind (await_idle rfl) fun done => .bind (ensures_orRaise fun _ _ h => h) fun _ => ?_
  refine .bind (show Ensures _ _ _ (fun _ _ => Idle chat) _ from ?_) fun _ =>
    .ret fun _ _ h => ⟨rfl, h⟩
  cases hasPreview with
  | true => exact .ret fun _ _ h => h
  | false => exact .bind (await_idle rfl) fun done => ensures_orRaise fun _ _ h => h

theorem openChatSession_idle :
    Ensures preparation (fun _ => Idle r.chatSessionId) (openChatSession r)
      (fun opened _ s => r.Opens opened ∧ Idle (some opened) s)
      (fun _ _ => Idle r.chatSessionId) := by
  rw [openChatSession]
  cases hchat : r.chatSessionId with
  | none =>
    refine .bind (await_idle rfl) fun reply => .bind (ensures_orRaise fun _ _ h => h) fun session => ?_
    refine .bind (show Ensures _ _ _ (fun _ _ => Idle (some session.text)) _ from
      .update fun _ _ h => ?_) fun _ => .ret fun _ _ h => ⟨?_, h⟩
    · exact ⟨rfl, h.attempt, h.queryOperation, h.trackedAttempt⟩
    · rw [SubmitRequest.Opens, hchat]
      exact session.canonical
  | some named =>
    refine .bind (await_idle rfl) fun reply => .bind (ensures_orRaise fun _ _ h => h) fun session => ?_
    cases session with
    | none => exact .raise fun _ _ h => h
    | some hasPreview =>
      refine followUp_idle.mono (fun _ _ h => h) ?_ (fun _ _ _ h => h)
      rintro _ _ s ⟨rfl, h⟩
      exact ⟨by rw [SubmitRequest.Opens, hchat], h⟩

/-- **Before the attempt.**  The part before the attempt exists opens the chat session. -/
theorem admitQuestion_idle :
    Ensures preparation (fun _ => Idle r.chatSessionId) (admitQuestion service r)
      (fun admitted _ s => r.Opens admitted.2 ∧ Idle (some admitted.2) s)
      (fun _ _ => Idle r.chatSessionId) := by
  refine .bind findUser_idle fun user => ?_
  refine .bind detectHostileInput_idle fun _ => ?_
  refine .bind consumeQuota_idle fun _ => ?_
  refine .bind ensureActive_idle fun _ => ?_
  exact .bind openChatSession_idle fun opened => .ret fun _ _ h => h

/-- The locals once the attempt is created. -/
structure Created (service : QueryService) (r : SubmitRequest) (chat : String) (connection : Uuid)
    (s : Locals) : Prop where
  connectionId : service.connectionId = some connection
  chatSessionId : s.chatSessionId = some chat
  attempt : s.attempt = some (newAttempt service r chat connection)
  queryOperation : s.queryOperation = none
  trackedAttempt : s.trackedAttempt = none

theorem getDatabaseConnectionId_idle :
    Ensures preparation (fun _ => Idle chat) (getDatabaseConnectionId service)
      (fun connection _ s => service.connectionId = some connection ∧ Idle chat s)
      (fun _ _ => Idle chat) := by
  rw [getDatabaseConnectionId]
  cases hconnection : service.connectionId with
  | none => exact .raise fun _ _ h => h
  | some connection => exact .ret fun _ _ h => ⟨rfl, h⟩

theorem createAttempt_created {opened : String} :
    Ensures preparation (fun _ => Idle (some opened)) (createAttempt service r opened)
      (fun connection _ => Created service r opened connection)
      (fun _ _ => Idle (some opened)) := by
  refine .bind ensureActive_idle fun _ => ?_
  refine .bind getDatabaseConnectionId_idle fun connection => ?_
  apply Ensures.assume
  intro hconnection
  refine .bind (show Ensures _ _ _ (fun _ _ => Idle (some opened)) _ from ?_) fun _ => ?_
  · rw [checkConnection]
    by_cases hother : r.connectionId.any (·.text != connection.text) = true
    · rw [if_pos hother]
      exact .raise fun _ _ h => h
    · rw [if_neg hother]
      exact .ret fun _ _ h => h
  · refine .bind (show Ensures _ _ _ (fun _ _ => Created service r opened connection) _ from
      .update fun _ _ h => ?_) fun _ => .ret fun _ _ h => h
    exact ⟨hconnection, h.chatSessionId, rfl, h.queryOperation, h.trackedAttempt⟩

end Preparation

/-! ## Registration -/

/-- The operations that register an attempt. -/
def Operation.registers (r : SubmitRequest) (attempt : EphemeralAttempt) : Operation → Prop
  | .sessionCancelled _ | .deadlineExpired | .registerOperation _ | .trackAttempt _ => True
  | .storeAttempt stored http => stored = attempt ∧ http = r.httpSessionId
  | _ => False

/-- The monitor of the registration. -/
def registration (r : SubmitRequest) (attempt : EphemeralAttempt) : Monitor Response Unit where
  allows _ c := c.operation.registers r attempt
  advance _ _ _ := ()

/-- The attempt of a request that may not have been registered. -/
structure Pending (chat : String) (attempt : EphemeralAttempt) (s : Locals) : Prop where
  chatSessionId : s.chatSessionId = some chat
  attempt : s.attempt = some attempt

theorem Pending.timerFired {chat : String} {attempt : EphemeralAttempt} {s : Locals}
    (h : Pending chat attempt s) : Pending chat attempt s.timerFired :=
  ⟨h.chatSessionId, h.attempt⟩

section Registration
variable {service : QueryService} {r : SubmitRequest} {chat : String} {connection : Uuid}
variable {attempt : EphemeralAttempt}

/-- An operation of the registration keeps what the locals say. -/
theorem await_pending {operation : Operation} {P : Locals → Prop}
    (hop : operation.registers r attempt) (hpending : ∀ s, P s → Pending chat attempt s) :
    Ensures (registration r attempt) (fun _ => P) (await operation) (fun _ _ => P)
      (fun _ _ => Pending chat attempt) :=
  ensures_await (fun _ _ _ => hop) (fun _ _ _ h => h) (fun _ _ _ h => (hpending _ h).timerFired)

theorem ensureOperationActive_pending {P : Locals → Prop}
    (hpending : ∀ s, P s → Pending chat attempt s) :
    Ensures (registration r attempt) (fun _ => P) (ensureOperationActive chat) (fun _ _ => P)
      (fun _ _ => Pending chat attempt) := by
  have hclock : Ensures (registration r attempt) (fun _ => P) (perform .deadlineExpired)
      (fun _ _ => P) (fun _ _ => Pending chat attempt) :=
    ensures_perform (fun _ _ _ => trivial) (fun _ _ _ h => h)
  refine .bind (show Ensures _ _ _ (fun _ _ => P) _ from ?_) fun _ => ?_
  · refine .bind (await_pending trivial hpending) fun marked => ?_
    cases marked with
    | false => exact .ret fun _ _ h => h
    | true => exact .raise fun _ s h => hpending s h
  · refine .bind hclock fun expired => ?_
    cases expired with
    | false => exact .ret fun _ _ h => h
    | true => exact .raise fun _ s h => hpending s h

/-- The attempt of the request as it is created. -/
theorem ofRequest_newAttempt : OfRequest r chat (newAttempt service r chat connection) :=
  ⟨rfl, rfl, rfl, rfl, rfl⟩

theorem consistent_newAttempt : Consistent (newAttempt service r chat connection) :=
  ⟨by simp [newAttempt], by simp [newAttempt]⟩

/-- **Registration.**  Afterwards the operation and the tracked attempt are in the locals. -/
theorem registerAttempt_inHand (hattempt : attempt = newAttempt service r chat connection) :
    Ensures (registration r attempt) (fun _ => Created service r chat connection)
      (registerAttempt r chat) (fun _ _ s => InHand r chat s attempt)
      (fun _ _ => Pending chat attempt) := by
  have hof : OfRequest r chat attempt := hattempt ▸ ofRequest_newAttempt
  have hconsistent : Consistent attempt := hattempt ▸ consistent_newAttempt
  have hpending : ∀ s, InHand r chat s attempt → Pending chat attempt s :=
    fun _ h => ⟨h.chatSessionId, h.current⟩
  have hregister : Ensures (registration r attempt)
      (fun _ => Created service r chat connection) (registerOperation r chat)
      (fun _ _ s => Pending chat attempt s ∧ s.queryOperation = some (r.operation chat))
      (fun _ _ => Pending chat attempt) := by
    refine .bind (show Ensures _ _ _ (fun _ _ s => Pending chat attempt s ∧
      s.queryOperation = some (r.operation chat)) _ from .update fun _ s h => ?_) fun _ => ?_
    · exact ⟨⟨h.chatSessionId, hattempt ▸ h.attempt⟩, rfl⟩
    refine .bind (await_pending trivial fun _ h => h.1) fun registered => ?_
    cases registered with
    | false => exact .raise fun _ _ h => h.1
    | true => exact .ret fun _ _ h => h
  refine .bind (ensureOperationActive_pending fun s h => ⟨h.chatSessionId, hattempt ▸ h.attempt⟩)
    fun _ => ?_
  refine .bind hregister fun _ => ?_
  refine .bind (show Ensures _ _ _ (fun _ _ s => InHand r chat s attempt) _ from
    .update fun _ s h => ?_) fun _ => ?_
  · exact ⟨h.1.chatSessionId, h.2, rfl, h.1.attempt, hof, hconsistent⟩
  refine .bind (await_pending trivial hpending) fun _ => ?_
  refine .bind (ensureOperationActive_pending hpending) fun _ => ?_
  refine .bind (show Ensures _ _ _ (fun _ _ s => InHand r chat s attempt) _ from ?_)
    fun _ => ensureOperationActive_pending hpending
  intro g s h
  have hstores : Operation.registers r attempt (.storeAttempt attempt r.httpSessionId) := ⟨rfl, rfl⟩
  rw [storeAttempt_eq h.current]
  exact await_pending hstores hpending g s h

/-- The locals when the submission is audited. -/
structure Submitting (service : QueryService) (r : SubmitRequest) (chat : String)
    (connection : Uuid) (s : Locals) : Prop where
  opens : r.Opens chat
  connectionId : service.connectionId = some connection
  inHand : InHand r chat s (newAttempt service r chat connection)

/-- The locals of a request that ends before its submission: its attempt, if there is one,
is as it was created. -/
def Unsubmitted (service : QueryService) (r : SubmitRequest) (s : Locals) : Prop :=
  ∀ attempt ∈ s.attempt, ∃ chat connection, r.Opens chat ∧
    attempt = newAttempt service r chat connection

theorem Idle.unsubmitted {named : Option String} {s : Locals} (h : Idle named s) :
    Unsubmitted service r s := by
  intro attempt hattempt
  rw [h.attempt] at hattempt
  cases hattempt

/-- **Before the submission.**  The part before the audit of the submission keeps every
invariant that its two kinds of operations keep. -/
theorem prepareAttempt_spec {H : Type} {N : Monitor Response H} {inv : H → Prop}
    (hprepare : ∀ h c, inv h → preparation.allows () c →
      N.allows h c ∧ ∀ reply, inv (N.advance h c reply))
    (hregister : ∀ chat connection, r.Opens chat → ∀ h c, inv h →
      (registration r (newAttempt service r chat connection)).allows () c →
      N.allows h c ∧ ∀ reply, inv (N.advance h c reply)) :
    Ensures N (fun h s => inv h ∧ Idle r.chatSessionId s) (prepareAttempt service r)
      (fun p h s => inv h ∧ Submitting service r p.2.1 p.2.2 s)
      (fun _ h s => inv h ∧ Unsubmitted service r s) := by
  refine .bind ((admitQuestion_idle.simulateInvariant hprepare).mono (fun _ _ h => h)
    (fun _ _ _ h => h) (fun _ _ _ h => ⟨h.1, h.2.unsubmitted⟩)) ?_
  rintro ⟨user, opened⟩
  refine Ensures.mono (show Ensures N (fun h s => r.Opens opened ∧ inv h ∧ Idle (some opened) s)
    _ _ _ from ?_) (fun _ _ h => ⟨h.2.1, h.1, h.2.2⟩) (fun _ _ _ h => h) (fun _ _ _ h => h)
  apply Ensures.assume
  intro hopens
  refine .bind ((createAttempt_created.simulateInvariant hprepare).mono (fun _ _ h => h)
    (fun _ _ _ h => h) (fun _ _ _ h => ⟨h.1, h.2.unsubmitted⟩)) fun connection => ?_
  refine Ensures.mono (show Ensures N (fun h s => service.connectionId = some connection ∧ inv h ∧
    Created service r opened connection s) _ _ _ from ?_) (fun _ _ h => ⟨h.2.connectionId, h⟩)
    (fun _ _ _ h => h) (fun _ _ _ h => h)
  apply Ensures.assume
  intro hconnection
  have hregistered := (registerAttempt_inHand rfl).simulateInvariant
    (hregister opened connection hopens)
  refine .bind (hregistered.mono (fun _ _ h => h) (fun _ _ _ h => h) ?_) fun _ => .ret ?_
  · rintro _ h s ⟨hinv, hpending⟩
    refine ⟨hinv, fun attempt hattempt => ?_⟩
    rw [hpending.attempt] at hattempt
    obtain rfl := Option.some.inj hattempt
    exact ⟨opened, connection, hopens, rfl⟩
  · rintro h s ⟨hinv, hand⟩
    exact ⟨hinv, hopens, hconnection, hand⟩

end Registration

/-! ## A request -/

/-- A UUID. -/
def sampleUuid : Uuid := ⟨"11111111-1111-1111-1111-111111111111", by decide⟩

/-- A service with its quotas. -/
def sampleService : QueryService := ⟨some sampleUuid, "openai", some "postgres", true⟩

/-- A question in an existing chat session. -/
def sampleRequest : SubmitRequest where
  httpSessionId := "4f2a"
  httpSessionId_ne := by decide
  userId := sampleUuid
  question := "How many orders are open?"
  chatSessionId := some "22222222-2222-2222-2222-222222222222"
  connectionId := some sampleUuid
  attemptId := sampleUuid
  lockOwner := sampleUuid
  operationToken := sampleUuid

end QueryPipeline
end QueryCraft
