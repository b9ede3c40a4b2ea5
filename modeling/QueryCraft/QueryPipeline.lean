import QueryCraft.AttemptStore
import QueryCraft.Programs
import QueryCraft.QuotaCounter

/-! # The query pipeline

`submit_question` takes a question through detection, quotas, the role policy, the
language model, the evaluator and the source database to a result.  Here it is a program
over the operations it awaits: commands and scripts in Redis, statements in the request's
database transaction, audit events in a transaction of their own, and the stages that
run as cancellable tasks.  What any of them answers is left open.

Two things can end the pipeline between any two lines.  A read of the cancellation marker
or of the clock may raise, and while the deadline's timer is armed it may cancel the task
at any `await`.  A cancelled operation may have taken place or not.  The locals that the
handlers and the `finally` block look at keep their values when an exception is raised.

Redis is taken to answer: a connection to it that fails is not modelled.  What a policy
contains, how SQL is evaluated and rewritten and how rows are masked is modelled in other
modules; the pipeline only needs whether these steps succeed.
-/
namespace QueryCraft
namespace QueryPipeline

/-! ## Requests -/

/-- What `QueryService` is built with. -/
structure QueryService where
  connectionId : Option Uuid
  llmProvider : String
  targetDialect : Option String
  /-- `self._quota_service is not None`. -/
  quotaService : Bool

/-- The arguments of `submit_question`, and the random ids it draws. -/
structure SubmitRequest where
  httpSessionId : String
  httpSessionId_ne : httpSessionId ≠ ""
  userId : Uuid
  question : String
  chatSessionId : Option String
  connectionId : Option Uuid
  attemptId : Uuid
  lockOwner : Uuid
  operationToken : Uuid

/-- `QueryOperation`. -/
structure QueryOperation where
  sessionId : String
  userId : String
  httpSessionId : String
  attemptId : String
  lockOwner : String
  token : String
deriving DecidableEq, Repr

/-- `TrackedAttempt`. -/
structure TrackedAttempt where
  sessionId : String
  userId : String
  httpSessionId : String
  attemptId : String
deriving DecidableEq, Repr

/-- An `HTTPException` with its detail. -/
structure HttpError where
  status : Nat
  error : String
  messageKey : String
  resetAt : Option String := none
deriving DecidableEq, Repr

/-- `EvaluatorRejection`. -/
structure EvaluatorRejection where
  messageKey : String
  violations : List Violation
deriving DecidableEq, Repr

/-- Columns and rows of a source database. -/
structure ResultTable where
  columns : List String
  rows : List (List Json)

/-- `QueryResult`. -/
structure QueryResult where
  attemptId : Uuid
  sessionId : String
  question : String
  generatedSql : String
  table : ResultTable
  attemptNumber : Nat := 1
  isLastAutoRetry : Bool := false
  acceptedQueryId : String

/-- What `submit_question` returns. -/
inductive SubmitResult where
  | result (r : QueryResult)
  | rejection (r : EvaluatorRejection)

/-- The failures of a source database that the pipeline tells apart. -/
inductive SourceFailure where
  | permissionDenied | connectionFailed | executionFailed
deriving DecidableEq, Repr

/-- The exceptions of the pipeline. -/
inductive Raised where
  | http (error : HttpError)
  /-- The `HTTPException` with a rejection as its detail, raised by the endpoint. -/
  | rejected (rejection : EvaluatorRejection)
  | sessionInvalidated
  | deadlineExpired
  /-- `asyncio.CancelledError`. -/
  | cancelled
  /-- `LLMTimeout`, `TimeoutError` or `SourceDBTimeout`. -/
  | timedOut
  | source (failure : SourceFailure)
  /-- Any other exception. -/
  | failure
deriving DecidableEq, Repr

/-! ## Operations -/

/-- The answer of an operation that may raise. -/
inductive Tried (α : Type) where
  | value (a : α)
  | raised

/-- The row of the user. -/
structure UserRow where
  username : Option String
  /-- `role_id is not None`. -/
  hasRole : Bool

/-- The outcome of hostile input detection. -/
inductive DetectionOutcome where
  | allowed | flagged | blocked
deriving DecidableEq, Repr

/-- Detection with its redacted audit context. -/
inductive DetectionReply where
  | outcome (outcome : DetectionOutcome) (context : Json)
  | unavailable
  | raised

/-- `check_and_increment`. -/
inductive QuotaReply where
  | granted
  | exceeded (resetAt : String)
  | unavailable
  | raised

/-- Of a `RolePolicy`, which of its lists are empty. -/
structure RolePolicy where
  allowsTables : Bool
  filtersRows : Bool
  masksColumns : Bool

/-- The rules of the evaluator. -/
inductive EvaluatorRule where
  | emptySql | dialectValidation | readOnly | singleStatement | schemaValidation | unsafePattern
deriving DecidableEq, Repr

/-- The answer of a stage: its task may be cancelled, also by `cancel_local_session_work`,
or run out of time. -/
inductive StageReply (α : Type) where
  | value (a : α)
  | cancelled
  | timedOut
  | raised (failure : SourceFailure)

/-- `apply_row_filters`. -/
inductive FilterReply where
  | bound (sql : String)
  | conflict
  | raised

/-- What the pipeline asks of its surroundings. -/
inductive Operation where
  -- the processing lock
  | acquireLock (http : String) (owner : String)
  | releaseLock (http : String) (owner : String)
  -- the request's transaction, and audit events committed on their own
  | findUser (user : Uuid)
  | detect (question : String)
  | log (event : LogRequest)
  | commit
  | rollback
  | logDurably (event : LogRequest)
  | createSession (user : Uuid) (previewText : String)
  | findSession (chat : String) (user : Uuid)
  | latestWithoutFeedback (chat : String) (user : Uuid)
  | flush
  | updateLastActivity (chat : String) (user : Uuid)
  | updatePreviewText (chat : String) (user : Uuid) (text : String)
  | resolveRolePolicy (user connection : Uuid)
  | llmContextCap
  | listBySession (chat : String) (user : Uuid) (limit : Int)
  | getByAttemptId (attempt user : Uuid)
  | createAccepted (attempt user connection : Uuid) (chat question sql : String)
      (table : ResultTable)
  | checkAndIncrement (user : Uuid) (dimension : QuotaDimension)
  -- the clock
  | deadlineExpired
  -- keys of the chat session
  | sessionCancelled (chat : String)
  | registerOperation (operation : QueryOperation)
  | clearOperation (operation : QueryOperation)
  | trackAttempt (tracked : TrackedAttempt)
  | discardAttempt (tracked : TrackedAttempt)
  | storeAttempt (attempt : EphemeralAttempt) (http : String)
  | setActiveAttempt (http attempt : String)
  | deleteActiveAttempt (http : String)
  -- stages
  | generateSql (question : String) (history : List (String × String))
  | evaluate (sql : String)
  | execute (sql : String)
  -- the policy, without awaiting anything
  | authorizeRole (sql : String)
  | applyRowFilters (sql : String)
  | applyColumnMasks (table : ResultTable)

/-- The type of the answers to an operation. -/
abbrev Answer : Operation → Type
  | .acquireLock .. => Bool
  | .releaseLock .. => Unit
  | .findUser _ => Tried (Option UserRow)
  | .detect _ => DetectionReply
  | .log _ | .commit | .rollback | .logDurably _ | .flush => Tried Unit
  | .createSession .. => Tried Uuid
  | .findSession .. => Tried (Option Bool)
  | .latestWithoutFeedback .. => Tried Bool
  | .updateLastActivity .. | .updatePreviewText .. => Tried Unit
  | .resolveRolePolicy .. => Tried (Option RolePolicy)
  | .llmContextCap => Tried Int
  | .listBySession .. => Tried (List (String × String))
  | .getByAttemptId .. => Tried (Option String)
  | .createAccepted .. => Tried String
  | .checkAndIncrement .. => QuotaReply
  | .deadlineExpired => Bool
  | .sessionCancelled _ => Bool
  | .registerOperation _ => Bool
  | .clearOperation _ | .trackAttempt _ | .discardAttempt _ => Unit
  | .storeAttempt .. | .setActiveAttempt .. | .deleteActiveAttempt _ => Unit
  | .generateSql .. => StageReply String
  | .evaluate _ => StageReply (Option EvaluatorRule)
  | .execute _ => StageReply ResultTable
  | .authorizeRole _ => Tried Bool
  | .applyRowFilters _ => FilterReply
  | .applyColumnMasks _ => Tried ResultTable

/-- An operation, and whether the deadline's timer can cancel it. -/
structure Command where
  operation : Operation
  interruptible : Bool

/-- The reply to an operation: its answer, or a cancellation by the timer. -/
inductive Reply (interruptible : Bool) (α : Type) where
  | answer (a : α)
  | cancelled (armed : interruptible = true)

/-- The type of the replies to a command. -/
abbrev Response (c : Command) : Type := Reply c.interruptible (Answer c.operation)

/-! ## Locals -/

/-- The locals that outlive an exception, with the deadline's flags. -/
structure Locals where
  chatSessionId : Option String
  actorIdentity : Option String := none
  attempt : Option EphemeralAttempt := none
  queryOperation : Option QueryOperation := none
  trackedAttempt : Option TrackedAttempt := none
  timerArmed : Bool := false
  /-- `deadline.cancelled_current_task`. -/
  cancelledTask : Bool := false

/-- The locals once the timer has cancelled the task.  It fires once. -/
def Locals.timerFired (locals : Locals) : Locals :=
  { locals with timerArmed := false, cancelledTask := true }

/-- A part of the pipeline. -/
abbrev Pipeline : Type → Type := Routine Command Response Locals Raised

/-- Awaits an operation. -/
def await (operation : Operation) : Pipeline (Answer operation) := do
  let locals ← get
  match ← Routine.issue ⟨operation, locals.timerArmed⟩ with
  | .answer a => pure a
  | .cancelled _ =>
    modify Locals.timerFired
    throw .cancelled

/-- A step that awaits nothing. -/
def perform (operation : Operation) : Pipeline (Answer operation) := do
  match ← Routine.issue ⟨operation, false⟩ with
  | .answer a => pure a
  | .cancelled armed => nomatch armed

/-- Propagates an exception of an operation. -/
def orRaise {α : Type} : Tried α → Pipeline α
  | .value a => pure a
  | .raised => throw .failure

/-- Changes the attempt, if there is one yet. -/
def updateAttempt (f : EphemeralAttempt → EphemeralAttempt) : Pipeline Unit :=
  modify fun locals => { locals with attempt := locals.attempt.map f }

/-- `store_attempt(attempt, http_session_id, self._redis)`. -/
def storeAttempt (r : SubmitRequest) : Pipeline Unit := do
  match (← get).attempt with
  | some attempt => await (.storeAttempt attempt r.httpSessionId)
  | none => pure ()

/-- `deadline.ensure_active()` and `deadline.remaining_seconds()`. -/
def ensureActive : Pipeline Unit := do
  if ← perform .deadlineExpired then throw .deadlineExpired

/-- `ensure_session_active`. -/
def ensureSessionActive (chat : String) : Pipeline Unit := do
  if ← await (.sessionCancelled chat) then throw .sessionInvalidated

/-- `_ensure_operation_active`. -/
def ensureOperationActive (chat : String) : Pipeline Unit := do
  ensureSessionActive chat
  ensureActive

/-- `_ensure_chat_session_active`. -/
def ensureChatSessionActive : Option String → Pipeline Unit
  | none => pure ()
  | some chat => ensureSessionActive chat

/-! ## Audit events -/

section Audit
variable (r : SubmitRequest)

/-- An event about the attempt. -/
def attemptEvent (action : AuditActionType) (actorIdentity : Option String) (outcome : String)
    (context : Json) : LogRequest where
  action := action
  actorId := some r.userId.text
  actorIdentity := actorIdentity
  resourceType := some "query_attempt"
  resourceId := some r.attemptId.text
  outcome := outcome
  context := context

/-- `query.submit`. -/
def submitEvent (service : QueryService) (user : UserRow) : LogRequest :=
  attemptEvent r .querySubmit user.username "success" (.obj
    [("question_length", .int r.question.length),
     ("dialect", .str (service.targetDialect.getD "postgres"))])

/-- `_persist_audit_without_request_side_effects`: rolls the request's work back and commits
one event on its own. -/
def persistAudit (event : LogRequest) : Pipeline Unit := do
  orRaise (← await .rollback)
  orRaise (← await (.logDurably event))

/-- `_persist_quota_exceeded_audit`. -/
def quotaExceededEvent (dimension : String) (resetAt : String) : LogRequest where
  action := .quotaExceeded
  actorId := some r.userId.text
  outcome := "blocked"
  context := .obj [("dimension", .str dimension), ("reset_at", .str resetAt)]

/-- The event of `_persist_execution_failure_audit`. -/
def failureEvent (actorIdentity : Option String) (reason : String) : LogRequest :=
  attemptEvent r .queryExecute actorIdentity "failure" (.obj [("reason", .str reason)])

end Audit

/-! ## Before the attempt exists -/

/-- A service that cannot be reached. -/
def serviceUnavailable : HttpError := ⟨503, "service_unavailable", "error.service_unavailable", none⟩

/-- A second request of the same session. -/
def concurrent : HttpError := ⟨409, "concurrent", "error.concurrent", none⟩

section Stages
variable (service : QueryService) (r : SubmitRequest)

/-- The user of the session still exists. -/
def findUser : Pipeline UserRow := do
  match ← orRaise (← await (.findUser r.userId)) with
  | none => throw (.http ⟨401, "unauthorized", "error.unauthorized", none⟩)
  | some user =>
    modify fun locals => { locals with actorIdentity := user.username }
    ensureActive
    pure user

/-- An audit event of detection, committed at once. -/
def logDetection (user : UserRow) (action : AuditActionType) (outcome : String) (context : Json) :
    Pipeline Unit := do
  orRaise (← await (.log
    { action := action, actorId := some r.userId.text, actorIdentity := user.username,
      resourceType := some "query_attempt", outcome := outcome, context := context }))
  orRaise (← await .commit)

/-- What follows from the outcome of detection. -/
def recordDetection (user : UserRow) (context : Json) : DetectionOutcome → Pipeline Unit
  | .blocked => do
    logDetection r user .hostileInputBlocked "blocked" context
    throw (.http ⟨400, "hostile_input_blocked", "error.hostile_input_blocked", none⟩)
  | .flagged => logDetection r user .hostileInputFlagged "flagged" context
  | .allowed => pure ()

/-- Hostile input detection. -/
def detectHostileInput (user : UserRow) : Pipeline Unit := do
  match ← await (.detect r.question) with
  | .unavailable => throw (.http serviceUnavailable)
  | .raised => throw .failure
  | .outcome outcome context =>
    ensureActive
    recordDetection r user context outcome
    ensureActive

/-- The name of a dimension. -/
def dimensionText : QuotaDimension → String
  | .queries => "queries"
  | .executions => "executions"
  | .exports => "exports"

/-- A quota check. -/
def consumeQuota (user : UserRow) (dimension : QuotaDimension) : Pipeline Unit := do
  if service.quotaService && user.hasRole then
    match ← await (.checkAndIncrement r.userId dimension) with
    | .granted => pure ()
    | .exceeded resetAt =>
      persistAudit (quotaExceededEvent r (dimensionText dimension) resetAt)
      throw (.http ⟨429, "quota_exceeded", "error.quota_exceeded", some resetAt⟩)
    | .unavailable => throw (.http serviceUnavailable)
    | .raised => throw .failure

/-- The implicit feedback of a follow-up question. -/
def applyImplicitFeedback (chat : String) : Pipeline Unit := do
  if ← orRaise (← await (.latestWithoutFeedback chat r.userId)) then orRaise (← await .flush)

/-- The preview text of a session that has none. -/
def fillPreview (chat : String) (hasPreview : Bool) : Pipeline Unit := do
  if !hasPreview then orRaise (← await (.updatePreviewText chat r.userId r.question))

/-- The chat session, created on the first question. -/
def openChatSession : Pipeline String := do
  match r.chatSessionId with
  | none =>
    let session ← orRaise (← await (.createSession r.userId r.question))
    modify fun locals => { locals with chatSessionId := some session.text }
    pure session.text
  | some chat =>
    match ← orRaise (← await (.findSession chat r.userId)) with
    | none => throw (.http ⟨404, "not_found", "error.notFound", none⟩)
    | some hasPreview =>
      applyImplicitFeedback r chat
      orRaise (← await (.updateLastActivity chat r.userId))
      fillPreview r chat hasPreview
      pure chat

/-- `_get_database_connection_id`. -/
def getDatabaseConnectionId : Pipeline Uuid :=
  match service.connectionId with
  | none => throw (.http ⟨500, "config_error", "error.sourceDbNotConfigured", none⟩)
  | some connection => pure connection

/-- The attempt as it is created. -/
def newAttempt (chat : String) (connection : Uuid) : EphemeralAttempt where
  attemptId := r.attemptId.text
  sessionId := r.httpSessionId
  chatSessionId := some chat
  userId := r.userId.text
  databaseConnectionId := connection
  question := r.question
  state := .pending
  llmProvider := service.llmProvider

/-- The request names the connection of the service. -/
def checkConnection (connection : Uuid) : Pipeline Unit := do
  if r.connectionId.any (·.text != connection.text) then
    throw (.http ⟨422, "attempt_invalid", "error.attemptInvalid", none⟩)

/-- The attempt is created. -/
def createAttempt (chat : String) : Pipeline Uuid := do
  ensureActive
  let connection ← getDatabaseConnectionId service
  checkConnection r connection
  modify fun locals => { locals with attempt := some (newAttempt service r chat connection) }
  pure connection

/-- The operation record of the request. -/
def SubmitRequest.operation (r : SubmitRequest) (chat : String) : QueryOperation :=
  ⟨chat, r.userId.text, r.httpSessionId, r.attemptId.text, r.lockOwner.text,
    r.operationToken.text⟩

/-- The tracked attempt of the request. -/
def SubmitRequest.tracked (r : SubmitRequest) (chat : String) : TrackedAttempt :=
  ⟨chat, r.userId.text, r.httpSessionId, r.attemptId.text⟩

/-- `register_query_operation`, which fails when the session has an operation. -/
def registerOperation (chat : String) : Pipeline Unit := do
  modify fun locals => { locals with queryOperation := some (r.operation chat) }
  if !(← await (.registerOperation (r.operation chat))) then throw (.http concurrent)

/-- The operation is registered and the attempt tracked and stored. -/
def registerAttempt (chat : String) : Pipeline Unit := do
  ensureOperationActive chat
  registerOperation r chat
  modify fun locals => { locals with trackedAttempt := some (r.tracked chat) }
  await (.trackAttempt (r.tracked chat))
  ensureOperationActive chat
  storeAttempt r
  ensureOperationActive chat

/-! ## From the submission to the result -/

/-- The text of a rule. -/
def EvaluatorRule.name : EvaluatorRule → String
  | .emptySql => "empty_sql"
  | .dialectValidation => "dialect_validation"
  | .readOnly => "read_only"
  | .singleStatement => "single_statement"
  | .schemaValidation => "schema_validation"
  | .unsafePattern => "unsafe_pattern"

/-- `_MESSAGE_KEY_MAP`. -/
def EvaluatorRule.messageKey : EvaluatorRule → String
  | .emptySql => "evaluator.violation.emptySql"
  | .dialectValidation => "evaluator.violation.dialectMismatch"
  | .readOnly => "evaluator.violation.dataModifying"
  | .singleStatement => "evaluator.violation.multiStatement"
  | .schemaValidation => "evaluator.violation.unknownTable"
  | .unsafePattern => "evaluator.violation.unsafePattern"

/-- `_role_auth_rejection`. -/
def roleAuthRejection : EvaluatorRejection :=
  ⟨"error.queryBlockedPolicy", [⟨"role_authorization", "error.queryBlockedPolicy"⟩]⟩

/-- The rejection of the evaluator, which stops at the first rule that fails. -/
def evaluatorRejection (rule : EvaluatorRule) : EvaluatorRejection :=
  ⟨"query.evaluator.rejected", [⟨rule.name, rule.messageKey⟩]⟩

/-- The attempt is stored as rejected, the event is committed on its own, and the rejection
returned. -/
def rejectAttempt (chat : String) (rejection : EvaluatorRejection) (event : LogRequest) :
    Pipeline SubmitResult := do
  updateAttempt fun attempt =>
    { attempt with state := .rejected, evaluatorResult := some ⟨false, rejection.violations⟩ }
  storeAttempt r
  persistAudit event
  ensureOperationActive chat
  pure (.rejection rejection)

/-- The earlier questions of the session. -/
def loadHistory (chat : String) : Pipeline (List (String × String)) := do
  let cap ← orRaise (← await .llmContextCap)
  if 0 < cap then
    let prior ← orRaise (← await (.listBySession chat r.userId cap))
    pure prior.reverse
  else pure []

/-- Runs a stage: its outcomes as exceptions. -/
def stageValue {α : Type} : StageReply α → Pipeline α
  | .value a => pure a
  | .cancelled => throw .cancelled
  | .timedOut => throw .timedOut
  | .raised failure => throw (.source failure)

/-- A cancelled stage of a deleted session counts as invalidated. -/
def reraiseCancelled {α : Type} (chat : String) : Pipeline α := do
  ensureSessionActive chat
  throw .cancelled

/-- The language model.  Everything but a timeout becomes a bad gateway, also a deadline
found expired when its timeout is computed. -/
def generateSql (chat : String) (history : List (String × String)) : Pipeline String := do
  ensureOperationActive chat
  let sql ← tryCatch (do
      ensureActive
      stageValue (← await (.generateSql r.question history)))
    fun
    | .cancelled => reraiseCancelled chat
    | .timedOut => throw .deadlineExpired
    | _ => throw (.http ⟨502, "llm_unavailable", "error.llmUnavailable", none⟩)
  ensureOperationActive chat
  updateAttempt fun attempt => { attempt with sql := sql, state := .generated }
  storeAttempt r
  ensureOperationActive chat
  pure sql

/-- The evaluator: the rule that failed, if any. -/
def evaluateSql (chat sql : String) : Pipeline (Option EvaluatorRule) := do
  let failed ← tryCatch (do stageValue (← await (.evaluate sql)))
    fun
    | .cancelled => reraiseCancelled chat
    | e => throw e
  ensureOperationActive chat
  pure failed

/-- `_enforce_role_authorization`: whether the SQL stays within the policy. -/
def enforceRoleAuthorization (policy : Option RolePolicy) (sql : String) : Pipeline Bool := do
  if policy.any (·.allowsTables) then orRaise (← perform (.authorizeRole sql)) else pure true

/-- The audit of SQL that passed the evaluator, and the role's policy. -/
def authorizeRole (chat : String) (user : UserRow) (policy : Option RolePolicy) (sql : String) :
    Pipeline Bool := do
  orRaise (← await (.log (attemptEvent r .queryValidatePass user.username "success" (.obj []))))
  ensureOperationActive chat
  let passed ← enforceRoleAuthorization policy sql
  ensureOperationActive chat
  pure passed

/-- The SQL with its row filters, if the policy has any. -/
def injectRowFilters (policy : Option RolePolicy) (sql : String) : Pipeline String := do
  if policy.any (·.filtersRows) then
    match ← perform (.applyRowFilters sql) with
    | .bound bound => pure bound
    | .conflict =>
      throw (.http ⟨409, "policy_schema_conflict", "error.policySchemaConflict", none⟩)
    | .raised => throw .failure
  else pure sql

/-- The attempt is stored as evaluated, and its SQL gets its row filters. -/
def applyRowFilters (chat : String) (policy : Option RolePolicy) (sql : String) :
    Pipeline String := do
  updateAttempt fun attempt => { attempt with state := .evaluated }
  storeAttempt r
  ensureOperationActive chat
  let effective ← injectRowFilters policy sql
  ensureOperationActive chat
  pure effective

/-- `_source_failure_response`. -/
def sourceFailureResponse : Raised → HttpError × String
  | .source .permissionDenied => (⟨403, "forbidden", "error.forbidden", none⟩, "permission_denied")
  | .source .connectionFailed =>
    (⟨502, "source_db_connection_failed", "error.sourceDbConnectionFailed", none⟩,
      "connection_failed")
  | _ =>
    (⟨502, "source_db_execution_failed", "error.sourceDbExecutionFailed", none⟩,
      "execution_failed")

/-- The attempt is stored as failed. -/
def storeFailed : Pipeline Unit := do
  updateAttempt fun attempt => { attempt with state := .failed }
  storeAttempt r

/-- The source database. -/
def executeSql (chat : String) (user : UserRow) (sql : String) : Pipeline ResultTable := do
  ensureOperationActive chat
  ensureOperationActive chat
  let table ← tryCatch (do
      ensureActive
      stageValue (← await (.execute sql)))
    fun
    | .cancelled => do
      ensureSessionActive chat
      storeFailed r
      throw .cancelled
    | .timedOut => throw .deadlineExpired
    | e => do
      let (error, reason) := sourceFailureResponse e
      storeFailed r
      persistAudit (failureEvent r user.username reason)
      throw (.http error)
  ensureOperationActive chat
  pure table

/-- The table with its masks, if the policy has any. -/
def applyColumnMasks (policy : Option RolePolicy) (table : ResultTable) : Pipeline ResultTable := do
  if policy.any (·.masksColumns) then orRaise (← perform (.applyColumnMasks table))
  else pure table

/-- The masked result, with the attempt stored as executed. -/
def maskColumns (chat : String) (policy : Option RolePolicy) (table : ResultTable) :
    Pipeline ResultTable := do
  ensureOperationActive chat
  let masked ← applyColumnMasks policy table
  ensureOperationActive chat
  updateAttempt fun attempt => { attempt with state := .executed }
  storeAttempt r
  ensureOperationActive chat
  pure masked

/-- The accepted query of the attempt, created unless it exists. -/
def createOnce (connection : Uuid) (chat sql : String) (table : ResultTable) : Pipeline String := do
  match ← orRaise (← await (.getByAttemptId r.attemptId r.userId)) with
  | some accepted => pure accepted
  | none =>
    orRaise (← await (.createAccepted r.attemptId r.userId connection chat r.question sql table))

/-- The auto-save. -/
def saveQuery (chat sql : String) (table : ResultTable) : Pipeline String := do
  ensureOperationActive chat
  let connection ← getDatabaseConnectionId service
  let saved ← createOnce r connection chat sql table
  ensureOperationActive chat
  pure saved

/-- The last steps: the active attempt of the session and the audit of the execution. -/
def finishQuery (chat sql : String) (table : ResultTable) (accepted : String) :
    Pipeline SubmitResult := do
  await (.setActiveAttempt r.httpSessionId r.attemptId.text)
  ensureOperationActive chat
  orRaise (← await (.log (attemptEvent r .queryExecute (← get).actorIdentity "success"
    (.obj [("row_count", .int table.rows.length)]))))
  ensureOperationActive chat
  pure (.result
    { attemptId := r.attemptId, sessionId := chat, question := r.question, generatedSql := sql,
      table := table, acceptedQueryId := accepted })

/-- Execution of SQL that passed the evaluator and the role's policy. -/
def runQuery (chat : String) (user : UserRow) (policy : Option RolePolicy) (sql : String) :
    Pipeline SubmitResult := do
  let effective ← applyRowFilters r chat policy sql
  consumeQuota service r user .executions
  let table ← executeSql r chat user effective
  let masked ← maskColumns r chat policy table
  let accepted ← saveQuery service r chat sql masked
  finishQuery r chat sql masked accepted

/-- The policy, the language model, the evaluator and what follows them. -/
def answerQuestion (chat : String) (user : UserRow) (connection : Uuid) :
    Pipeline SubmitResult := do
  let policy ← orRaise (← await (.resolveRolePolicy r.userId connection))
  ensureOperationActive chat
  if policy.any (!·.allowsTables) then
    rejectAttempt r chat roleAuthRejection
      (attemptEvent r .accessDenied user.username "denied" (.obj [("reason", .str "deny_all")]))
  else
    let history ← loadHistory r chat
    let sql ← generateSql r chat history
    match ← evaluateSql chat sql with
    | some rule =>
      rejectAttempt r chat (evaluatorRejection rule)
        (attemptEvent r .queryValidateFail user.username "failure"
          (.obj [("rules", .arr [.str rule.name])]))
    | none =>
      if ← authorizeRole r chat user policy sql then runQuery service r chat user policy sql
      else
        rejectAttempt r chat roleAuthRejection
          (attemptEvent r .accessDenied user.username "denied"
            (.obj [("reason", .str "role_authorization")]))

/-! ## The whole of `submit_question` -/

/-- The part before the attempt exists. -/
def admitQuestion : Pipeline (UserRow × String) := do
  let user ← findUser r
  detectHostileInput r user
  consumeQuota service r user .queries
  ensureActive
  let chat ← openChatSession r
  pure (user, chat)

/-- The part before the audit of the submission. -/
def prepareAttempt : Pipeline (UserRow × String × Uuid) := do
  let (user, chat) ← admitQuestion service r
  let connection ← createAttempt service r chat
  registerAttempt r chat
  pure (user, chat, connection)

/-- The body of the `try` statement. -/
def tryBody : Pipeline SubmitResult := do
  let (user, chat, connection) ← prepareAttempt service r
  orRaise (← await (.log (submitEvent r service user)))
  ensureOperationActive chat
  answerQuestion service r chat user connection

/-- `discard_session_attempt_if_owned`, for an attempt that was tracked. -/
def discardTracked : Pipeline Unit := do
  match (← get).trackedAttempt with
  | some tracked => await (.discardAttempt tracked)
  | none => pure ()

/-- `_discard_invalidated_attempt`. -/
def discardInvalidatedAttempt : Pipeline Unit := do
  orRaise (← await .rollback)
  discardTracked

/-- `deadline.disarm()`. -/
def disarm : Pipeline Unit := modify fun locals => { locals with timerArmed := false }

/-- The attempt is stored as timed out and is no longer the active one. -/
def storeTimeout (chat : Option String) : Pipeline Unit := do
  ensureChatSessionActive chat
  updateAttempt fun attempt => { attempt with state := .timeout }
  storeAttempt r
  await (.deleteActiveAttempt r.httpSessionId)
  ensureChatSessionActive chat

/-- `_raise_timeout`. -/
def raiseTimeout {α : Type} : Pipeline α := do
  tryCatch (do storeTimeout r (← get).chatSessionId)
    fun
    | .sessionInvalidated => do
      discardInvalidatedAttempt
      throw .sessionInvalidated
    | e => throw e
  persistAudit (failureEvent r (← get).actorIdentity "timeout")
  throw (.http ⟨504, "timeout", "error.timeout", none⟩)

/-- A cancellation that did not come from the timer is raised again. -/
def requireTimer : Pipeline Unit := do
  if !(← get).cancelledTask then throw .cancelled

/-- The `except` clauses. -/
def handle {α : Type} : Raised → Pipeline α
  | .sessionInvalidated => do
    discardInvalidatedAttempt
    throw .sessionInvalidated
  | .deadlineExpired => do
    disarm
    raiseTimeout r
  | .cancelled => do
    requireTimer
    disarm
    raiseTimeout r
  | e => throw e

/-- `clear_query_operation_if_owned`, if the operation was registered. -/
def clearOperation : Pipeline Unit := do
  match (← get).queryOperation with
  | some operation => await (.clearOperation operation)
  | none => pure ()

/-- The `finally` block. -/
def cleanup : Pipeline Unit := do
  disarm
  clearOperation
  await (.releaseLock r.httpSessionId r.lockOwner.text)

/-- The processing lock of the HTTP session. -/
def acquireLock : Pipeline Unit := do
  if !(← await (.acquireLock r.httpSessionId r.lockOwner.text)) then throw (.http concurrent)

/-- `submit_question`. -/
def submitQuestion : Pipeline SubmitResult := do
  acquireLock r
  modify fun locals => { locals with timerArmed := true }
  (tryCatch (tryBody service r) (handle r)).ensuring (cleanup r)

/-- The locals at the start. -/
def SubmitRequest.locals (r : SubmitRequest) : Locals := { chatSessionId := r.chatSessionId }

/-- The endpoint `POST /query/submit` after the service is built: a rejection becomes an
`HTTPException`. -/
def submitEndpoint : Pipeline QueryResult := do
  match ← submitQuestion service r with
  | .result result => pure result
  | .rejection rejection => throw (.rejected rejection)

/-- `get_db` around the endpoint: commits when it returns and rolls back when it raises. -/
def serveSubmit : Pipeline QueryResult :=
  tryCatch (do
      let result ← submitEndpoint service r
      orRaise (← await .commit)
      pure result)
    fun e => do
      orRaise (← await .rollback)
      throw e

end Stages

/-! ## Triples for single operations -/

section Rules
variable {G : Type} {M : Monitor Response G} {pre : G → Locals → Prop} {operation : Operation}
variable {post : Answer operation → G → Locals → Prop} {raises : Raised → G → Locals → Prop}

theorem ensures_await
    (hallowed : ∀ g s, pre g s → M.allows g ⟨operation, s.timerArmed⟩)
    (hanswer : ∀ g s a, pre g s → post a (M.advance g ⟨operation, s.timerArmed⟩ (.answer a)) s)
    (hcancelled : ∀ g s armed, pre g s →
      raises .cancelled (M.advance g ⟨operation, s.timerArmed⟩ (.cancelled armed)) s.timerFired) :
    Ensures M pre (await operation) post raises := by
  intro g s hg
  refine ⟨hallowed g s hg, fun reply => ?_⟩
  cases reply with
  | answer a => exact hanswer g s a hg
  | cancelled armed => exact hcancelled g s armed hg

theorem ensures_perform
    (hallowed : ∀ g s, pre g s → M.allows g ⟨operation, false⟩)
    (hanswer : ∀ g s a, pre g s → post a (M.advance g ⟨operation, false⟩ (.answer a)) s) :
    Ensures M pre (perform operation) post raises := by
  intro g s hg
  refine ⟨hallowed g s hg, fun reply => ?_⟩
  cases reply with
  | answer a => exact hanswer g s a hg
  | cancelled armed => cases armed

theorem ensures_orRaise {α : Type} {t : Tried α} (h : ∀ g s, pre g s → raises .failure g s) :
    Ensures M pre (orRaise t) (fun _ => pre) raises := by
  cases t with
  | value a => exact .ret fun _ _ hpre => hpre
  | raised => exact .raise h

end Rules

end QueryPipeline
end QueryCraft
