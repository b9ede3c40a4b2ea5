import Mathlib.Logic.Equiv.List
import QueryCraft.SessionRecord

/-! # Stored attempts

An attempt at answering a question is kept in Redis while its pipeline runs and until
its user decides on it.  `store_attempt` dumps the attempt with its texts sealed, and
`get_attempt` takes a record only if it belongs to the caller and passes a strict
validation.  One rule of the validation looks at two fields: an evaluator result is
there exactly when the state is `REJECTED`.  A record that fails is deleted.

A stored record is the JSON value of its text, and so is the text of an evaluator
result.  The cipher is a parameter, of which only that decryption undoes encryption is
used.
-/
namespace QueryCraft

/-! ## Attempts -/

/-- `AttemptState`. -/
inductive AttemptState where
  | pending | generated | evaluated | executed | rejected | timeout | failed
deriving DecidableEq, Repr

/-- The text of a state. -/
def AttemptState.text : AttemptState → String
  | .pending => "PENDING"
  | .generated => "GENERATED"
  | .evaluated => "EVALUATED"
  | .executed => "EXECUTED"
  | .rejected => "REJECTED"
  | .timeout => "TIMEOUT"
  | .failed => "FAILED"

/-- One rule that failed. -/
structure Violation where
  rule : String
  messageKey : String
deriving DecidableEq, Repr

/-- The `evaluator_result` of an attempt. -/
structure EvaluatorResult where
  passed : Bool
  violations : List Violation
deriving DecidableEq, Repr

/-- `EphemeralAttempt`. -/
structure EphemeralAttempt where
  attemptId : String
  sessionId : String
  chatSessionId : Option String
  userId : String
  databaseConnectionId : Uuid
  sql : String := ""
  question : String := ""
  attemptNumber : Int := 1
  state : AttemptState := .pending
  llmProvider : String := ""
  evaluatorResult : Option EvaluatorResult := none
  createdAt : String := ""
  expiresAt : String := ""

/-! ## Sealed texts -/

/-- What a sealed text is for. -/
inductive SealPurpose where
  | question | sql | evaluatorResult
deriving DecidableEq, Repr

/-- A text that is sealed: user text, or the JSON text of an evaluator result. -/
inductive SealedText where
  | plain (text : String)
  | evaluatorResult (result : EvaluatorResult)
deriving DecidableEq, Repr

/-- `_EncryptedAttemptText`. -/
structure EncryptedAttemptText where
  purpose : SealPurpose
  version : Nat
  text : SealedText
deriving DecidableEq, Repr

/-- The cipher under the platform key; `iv` is the nonce that `encrypt` draws. -/
structure AttemptCipher where
  encrypt (iv : Nat) : EncryptedAttemptText → String
  decrypt : String → Option EncryptedAttemptText
  decrypt_encrypt : ∀ iv payload, decrypt (encrypt iv payload) = some payload

section Store
variable (cipher : AttemptCipher)

/-- `_seal_attempt_text`. -/
def sealAttemptText (iv : Nat) (text : SealedText) (purpose : SealPurpose) : String :=
  cipher.encrypt iv ⟨purpose, 1, text⟩

/-- `_open_attempt_text`; `none` stands for `AttemptContextInvalid`. -/
def openAttemptText (ciphertext : String) (purpose : SealPurpose) : Option SealedText := do
  let payload ← cipher.decrypt ciphertext
  if payload.version = 1 ∧ payload.purpose = purpose then some payload.text else none

/-- The nonces of one `store_attempt`. -/
structure SealNonces where
  question : Nat
  sql : Nat
  evaluatorResult : Nat

/-- A field that may be `None`. -/
def Json.ofOption : Option String → Json
  | none => .null
  | some s => .str s

/-- The record that `store_attempt` writes. -/
def serializedAttempt (ivs : SealNonces) (attempt : EphemeralAttempt) (sessionId : String) : Json :=
  .obj
    [("attempt_id", .str attempt.attemptId),
     ("session_id", .str sessionId),
     ("chat_session_id", Json.ofOption attempt.chatSessionId),
     ("user_id", .str attempt.userId),
     ("database_connection_id", .str attempt.databaseConnectionId.text),
     ("sql", .str (sealAttemptText cipher ivs.sql (.plain attempt.sql) .sql)),
     ("question", .str (sealAttemptText cipher ivs.question (.plain attempt.question) .question)),
     ("attempt_number", .int attempt.attemptNumber),
     ("state", .str attempt.state.text),
     ("llm_provider", .str attempt.llmProvider),
     ("evaluator_result", Json.ofOption (attempt.evaluatorResult.map fun result =>
       sealAttemptText cipher ivs.evaluatorResult (.evaluatorResult result) .evaluatorResult)),
     ("created_at", .str attempt.createdAt),
     ("expires_at", .str attempt.expiresAt)]

/-! ## Reading -/

namespace Json

/-- `str`. -/
def string? : Json → Option String
  | .str s => some s
  | _ => none

/-- `StrictInt` with `ge=1`. -/
def positiveInt? : Json → Option Int
  | .int n => if 1 ≤ n then some n else none
  | _ => none

/-- `AttemptState`. -/
def attemptState? : Json → Option AttemptState
  | .str "PENDING" => some .pending
  | .str "GENERATED" => some .generated
  | .str "EVALUATED" => some .evaluated
  | .str "EXECUTED" => some .executed
  | .str "REJECTED" => some .rejected
  | .str "TIMEOUT" => some .timeout
  | .str "FAILED" => some .failed
  | _ => none

end Json

/-- `_StoredAttemptRecord`. -/
structure StoredAttemptRecord where
  attemptId : String
  sessionId : String
  chatSessionId : Option String
  userId : String
  databaseConnectionId : String
  sql : String
  question : String
  attemptNumber : Int
  state : AttemptState
  llmProvider : String
  evaluatorResult : Option String
  createdAt : String
  expiresAt : String

/-- The fields of the record; `extra="forbid"`. -/
def attemptFields : List String :=
  ["attempt_id", "session_id", "chat_session_id", "user_id", "database_connection_id", "sql",
   "question", "attempt_number", "state", "llm_provider", "evaluator_result", "created_at",
   "expires_at"]

/-- The fields of a record, validated one by one. -/
def readAttemptFields (get : String → Option Json) : Option StoredAttemptRecord := do
  let attemptId ← (get "attempt_id").bind Json.canonicalUuid?
  let sessionId ← (get "session_id").bind Json.nonEmptyString?
  let chatSessionId ← (get "chat_session_id").bind (Json.nullable Json.canonicalUuid?)
  let userId ← (get "user_id").bind Json.canonicalUuid?
  let databaseConnectionId ← (get "database_connection_id").bind Json.canonicalUuid?
  let sql ← (get "sql").bind Json.string?
  let question ← (get "question").bind Json.string?
  let attemptNumber ← (get "attempt_number").bind Json.positiveInt?
  let state ← (get "state").bind Json.attemptState?
  let llmProvider ← (get "llm_provider").bind Json.string?
  let evaluatorResult ← (get "evaluator_result").bind (Json.nullable Json.string?)
  let createdAt ← (get "created_at").bind Json.string?
  let expiresAt ← (get "expires_at").bind Json.string?
  return { attemptId, sessionId, chatSessionId, userId, databaseConnectionId, sql, question,
           attemptNumber, state, llmProvider, evaluatorResult, createdAt, expiresAt }

/-- `evaluator_matches_state`. -/
def StoredAttemptRecord.evaluatorMatchesState (record : StoredAttemptRecord) : Bool :=
  record.evaluatorResult.isSome == (record.state == .rejected)

/-- `_validate_stored_attempt`; `none` stands for `AttemptContextInvalid`. -/
def validateStoredAttempt (fields : List (String × Json)) (attemptId : String) :
    Option StoredAttemptRecord :=
  if fields.all (fun field => attemptFields.contains field.1) then
    (readAttemptFields (fields.lookup ·)).filter fun record =>
      record.evaluatorMatchesState && record.attemptId == attemptId
  else none

/-- `_StoredEvaluatorResult`: not passed, and at least one violation with its rule and its
message key. -/
def EvaluatorResult.isStored (result : EvaluatorResult) : Bool :=
  !result.passed && !result.violations.isEmpty &&
    result.violations.all fun violation => violation.rule != "" && violation.messageKey != ""

/-- A sealed text that must be user text. -/
def SealedText.plain? : SealedText → Option String
  | .plain text => some text
  | .evaluatorResult _ => none

/-- A sealed text that must be an evaluator result. -/
def SealedText.evaluatorResult? : SealedText → Option EvaluatorResult
  | .plain _ => none
  | .evaluatorResult result => if result.isStored then some result else none

/-- The evaluator result of a stored record, if it has one. -/
def restoreEvaluatorResult : Option String → Option (Option EvaluatorResult)
  | none => some none
  | some ciphertext =>
    ((openAttemptText cipher ciphertext .evaluatorResult).bind SealedText.evaluatorResult?).map some

/-- `_restore_attempt_fields`; `none` stands for any of its exceptions. -/
def restoreAttemptFields (record : StoredAttemptRecord) : Option EphemeralAttempt := do
  let question ← (openAttemptText cipher record.question .question).bind SealedText.plain?
  let sql ← (openAttemptText cipher record.sql .sql).bind SealedText.plain?
  let evaluatorResult ← restoreEvaluatorResult cipher record.evaluatorResult
  if canonical : isCanonicalUuid record.databaseConnectionId = true then
    return {
      attemptId := record.attemptId
      sessionId := record.sessionId
      chatSessionId := record.chatSessionId
      userId := record.userId
      databaseConnectionId := ⟨record.databaseConnectionId, canonical⟩
      sql := sql
      question := question
      attemptNumber := record.attemptNumber
      state := record.state
      llmProvider := record.llmProvider
      evaluatorResult := evaluatorResult
      createdAt := record.createdAt
      expiresAt := record.expiresAt }
  else none

/-- What `get_attempt` raises. -/
inductive AttemptError where
  | notFound | ownershipViolation | contextInvalid
deriving DecidableEq, Repr

/-- `_parse_owned_attempt`. -/
def parseOwnedAttempt (raw : Json) (sessionId userId : String) :
    Except AttemptError (List (String × Json)) :=
  match raw with
  | .obj fields =>
    match (fields.lookup "session_id").bind Json.nonEmptyString?,
        (fields.lookup "user_id").bind Json.canonicalUuid? with
    | some session, some user =>
      if session ≠ sessionId ∨ user ≠ userId then .error .ownershipViolation else .ok fields
    | _, _ => .error .contextInvalid
  | _ => .error .contextInvalid

/-- `get_attempt` on what the key of the attempt holds: the attempt or the exception, and
what the key holds afterwards. -/
def getAttempt (stored : Option Json) (attemptId sessionId userId : String) :
    Except AttemptError EphemeralAttempt × Option Json :=
  match stored with
  | none => (.error .notFound, none)
  | some raw =>
    match parseOwnedAttempt raw sessionId userId with
    | .error e => (.error e, some raw)
    | .ok fields =>
      match (validateStoredAttempt fields attemptId).bind (restoreAttemptFields cipher) with
      | some attempt => (.ok attempt, some raw)
      -- `_delete_corrupt_attempt`
      | none => (.error .contextInvalid, none)

end Store

/-! ## Reading back what was stored -/

/-- The record of an attempt. -/
def EphemeralAttempt.record (cipher : AttemptCipher) (ivs : SealNonces) (a : EphemeralAttempt) :
    StoredAttemptRecord where
  attemptId := a.attemptId
  sessionId := a.sessionId
  chatSessionId := a.chatSessionId
  userId := a.userId
  databaseConnectionId := a.databaseConnectionId.text
  sql := sealAttemptText cipher ivs.sql (.plain a.sql) .sql
  question := sealAttemptText cipher ivs.question (.plain a.question) .question
  attemptNumber := a.attemptNumber
  state := a.state
  llmProvider := a.llmProvider
  evaluatorResult := a.evaluatorResult.map fun result =>
    sealAttemptText cipher ivs.evaluatorResult (.evaluatorResult result) .evaluatorResult
  createdAt := a.createdAt
  expiresAt := a.expiresAt

@[simp] theorem Json.canonicalUuid?_str (s : String) :
    Json.canonicalUuid? (.str s) = if isCanonicalUuid s = true then some s else none := by
  by_cases h : isCanonicalUuid s = true
  · rw [if_pos h, Json.canonicalUuid?_eq_some]
    exact ⟨rfl, Uuid.text_ne_empty ⟨s, h⟩, h⟩
  · rw [if_neg h, Option.eq_none_iff_forall_ne_some]
    intro t ht
    obtain ⟨hst, -, hcanonical⟩ := Json.canonicalUuid?_eq_some.mp ht
    obtain rfl := Json.str.inj hst
    exact h hcanonical

@[simp] theorem Json.attemptState?_text (state : AttemptState) :
    Json.attemptState? (.str state.text) = some state := by
  cases state <;> rfl

theorem Json.positiveInt?_eq_some {j : Json} {n : Int} :
    j.positiveInt? = some n ↔ 1 ≤ n ∧ j = .int n := by
  cases j with
  | int m =>
    rw [Json.positiveInt?]
    split <;> grind
  | _ => simp [Json.positiveInt?]

/-- Each field is read from its key. -/
structure AttemptReadsAs (get : String → Option Json) (r : StoredAttemptRecord) : Prop where
  attemptId : (get "attempt_id").bind Json.canonicalUuid? = some r.attemptId
  sessionId : (get "session_id").bind Json.nonEmptyString? = some r.sessionId
  chatSessionId : (get "chat_session_id").bind (Json.nullable Json.canonicalUuid?) =
    some r.chatSessionId
  userId : (get "user_id").bind Json.canonicalUuid? = some r.userId
  databaseConnectionId : (get "database_connection_id").bind Json.canonicalUuid? =
    some r.databaseConnectionId
  sql : (get "sql").bind Json.string? = some r.sql
  question : (get "question").bind Json.string? = some r.question
  attemptNumber : (get "attempt_number").bind Json.positiveInt? = some r.attemptNumber
  state : (get "state").bind Json.attemptState? = some r.state
  llmProvider : (get "llm_provider").bind Json.string? = some r.llmProvider
  evaluatorResult : (get "evaluator_result").bind (Json.nullable Json.string?) =
    some r.evaluatorResult
  createdAt : (get "created_at").bind Json.string? = some r.createdAt
  expiresAt : (get "expires_at").bind Json.string? = some r.expiresAt

theorem readAttemptFields_eq_some {get : String → Option Json} {r : StoredAttemptRecord} :
    readAttemptFields get = some r ↔ AttemptReadsAs get r := by
  constructor
  · intro h
    unfold readAttemptFields at h
    obtain ⟨_, h1, h⟩ := Option.bind_eq_some_iff.mp h
    obtain ⟨_, h2, h⟩ := Option.bind_eq_some_iff.mp h
    obtain ⟨_, h3, h⟩ := Option.bind_eq_some_iff.mp h
    obtain ⟨_, h4, h⟩ := Option.bind_eq_some_iff.mp h
    obtain ⟨_, h5, h⟩ := Option.bind_eq_some_iff.mp h
    obtain ⟨_, h6, h⟩ := Option.bind_eq_some_iff.mp h
    obtain ⟨_, h7, h⟩ := Option.bind_eq_some_iff.mp h
    obtain ⟨_, h8, h⟩ := Option.bind_eq_some_iff.mp h
    obtain ⟨_, h9, h⟩ := Option.bind_eq_some_iff.mp h
    obtain ⟨_, h10, h⟩ := Option.bind_eq_some_iff.mp h
    obtain ⟨_, h11, h⟩ := Option.bind_eq_some_iff.mp h
    obtain ⟨_, h12, h⟩ := Option.bind_eq_some_iff.mp h
    obtain ⟨_, h13, h⟩ := Option.bind_eq_some_iff.mp h
    obtain rfl := Option.some.inj h
    exact ⟨h1, h2, h3, h4, h5, h6, h7, h8, h9, h10, h11, h12, h13⟩
  · rintro ⟨h1, h2, h3, h4, h5, h6, h7, h8, h9, h10, h11, h12, h13⟩
    simp only [readAttemptFields, h1, h2, h3, h4, h5, h6, h7, h8, h9, h10, h11, h12, h13, bind,
      Option.bind_some, pure]

section Roundtrip
variable {cipher : AttemptCipher} {ivs : SealNonces} {a : EphemeralAttempt}

theorem openAttemptText_seal (iv : Nat) (text : SealedText) (purpose : SealPurpose) :
    openAttemptText cipher (sealAttemptText cipher iv text purpose) purpose = some text := by
  simp [openAttemptText, sealAttemptText, cipher.decrypt_encrypt]

theorem restoreEvaluatorResult_record (o : Option EvaluatorResult) (iv : Nat) :
    restoreEvaluatorResult cipher
        (o.map fun result => sealAttemptText cipher iv (.evaluatorResult result) .evaluatorResult) =
      if ∀ result ∈ o, result.isStored = true then some o else none := by
  cases o with
  | none => simp [restoreEvaluatorResult]
  | some result =>
    simp only [restoreEvaluatorResult, Option.map_some, openAttemptText_seal, Option.bind_some,
      SealedText.evaluatorResult?, Option.mem_some_iff, forall_eq']
    split <;> rfl

theorem restore_record :
    restoreAttemptFields cipher (a.record cipher ivs) =
      if ∀ result ∈ a.evaluatorResult, result.isStored = true then some a else none := by
  simp only [restoreAttemptFields, EphemeralAttempt.record, openAttemptText_seal,
    SealedText.plain?, restoreEvaluatorResult_record, Option.bind_some, bind]
  split
  · exact dif_pos a.databaseConnectionId.canonical
  · rfl

/-- The fields that are checked one by one are in order. -/
structure EphemeralAttempt.FieldsReadable (a : EphemeralAttempt) : Prop where
  attemptId : isCanonicalUuid a.attemptId = true
  sessionId : a.sessionId ≠ ""
  chatSessionId : ∀ chat ∈ a.chatSessionId, isCanonicalUuid chat = true
  userId : isCanonicalUuid a.userId = true
  attemptNumber : 1 ≤ a.attemptNumber

theorem nullable_canonicalUuid?_ofOption {o p : Option String} :
    Json.nullable Json.canonicalUuid? (Json.ofOption o) = some p ↔
      (∀ s ∈ o, isCanonicalUuid s = true) ∧ o = p := by
  cases o with
  | none => simp [Json.ofOption, Json.nullable]
  | some s =>
    by_cases h : isCanonicalUuid s = true <;> simp [Json.ofOption, Json.nullable, h]

/-- What is read from the document of an attempt is its record. -/
theorem serialized_readsAs {r : StoredAttemptRecord} {fields : List (String × Json)}
    (hfields : serializedAttempt cipher ivs a a.sessionId = .obj fields) :
    AttemptReadsAs (fields.lookup ·) r ↔ a.FieldsReadable ∧ r = a.record cipher ivs := by
  obtain rfl := Json.obj.inj hfields
  have hevaluator : Json.nullable Json.string? (Json.ofOption (a.record cipher ivs).evaluatorResult) =
      some (a.record cipher ivs).evaluatorResult := by
    cases (a.record cipher ivs).evaluatorResult <;> rfl
  constructor
  · rintro ⟨h1, h2, h3, h4, h5, h6, h7, h8, h9, h10, h11, h12, h13⟩
    obtain ⟨hattempt, -, hcanonical⟩ :=
      (Json.canonicalUuid?_eq_some (j := .str a.attemptId)).mp h1
    obtain ⟨hsession, hne⟩ := (Json.nonEmptyString?_eq_some (j := .str a.sessionId)).mp h2
    obtain ⟨hchats, hchat⟩ := nullable_canonicalUuid?_ofOption.mp h3
    obtain ⟨huser, -, hcanonical'⟩ := (Json.canonicalUuid?_eq_some (j := .str a.userId)).mp h4
    obtain ⟨hconnection, -, -⟩ :=
      (Json.canonicalUuid?_eq_some (j := .str a.databaseConnectionId.text)).mp h5
    obtain ⟨hpositive, hnumber⟩ := (Json.positiveInt?_eq_some (j := .int a.attemptNumber)).mp h8
    have hstate := Option.some.inj ((Json.attemptState?_text a.state).symm.trans h9)
    have hresult := Option.some.inj (hevaluator.symm.trans h11)
    obtain ⟨⟩ := r
    obtain ⟨⟩ := h6
    obtain ⟨⟩ := h7
    obtain ⟨⟩ := h10
    obtain ⟨⟩ := h12
    obtain ⟨⟩ := h13
    cases hattempt
    cases hsession
    cases hchat
    cases huser
    cases hconnection
    cases hnumber
    cases hstate
    cases hresult
    exact ⟨⟨hcanonical, hne, hchats, hcanonical', hpositive⟩, rfl⟩
  · rintro ⟨⟨h1, h2, h3, h4, h5⟩, rfl⟩
    exact ⟨(Json.canonicalUuid?_str _).trans (if_pos h1), Json.nonEmptyString?_str h2,
      nullable_canonicalUuid?_ofOption.mpr ⟨h3, rfl⟩,
      (Json.canonicalUuid?_str _).trans (if_pos h4),
      (Json.canonicalUuid?_str _).trans (if_pos a.databaseConnectionId.canonical), rfl, rfl,
      Json.positiveInt?_eq_some.mpr ⟨h5, rfl⟩, Json.attemptState?_text _, rfl, hevaluator, rfl, rfl⟩

/-- The attempt passes the validation of stored records. -/
structure EphemeralAttempt.Readable (a : EphemeralAttempt) : Prop extends a.FieldsReadable where
  evaluatorMatchesState : a.evaluatorResult.isSome = true ↔ a.state = .rejected
  evaluatorResult : ∀ result ∈ a.evaluatorResult, result.isStored = true

theorem evaluatorMatchesState_record :
    (a.record cipher ivs).evaluatorMatchesState = true ↔
      (a.evaluatorResult.isSome = true ↔ a.state = .rejected) := by
  simp only [StoredAttemptRecord.evaluatorMatchesState, EphemeralAttempt.record, Option.isSome_map,
    beq_iff_eq]
  rw [Bool.eq_iff_iff, beq_iff_eq]

theorem validateStoredAttempt_serialized {fields : List (String × Json)} {r : StoredAttemptRecord}
    (hfields : serializedAttempt cipher ivs a a.sessionId = .obj fields) :
    validateStoredAttempt fields a.attemptId = some r ↔
      a.FieldsReadable ∧ (a.evaluatorResult.isSome = true ↔ a.state = .rejected) ∧
        r = a.record cipher ivs := by
  have hknown : fields.all (fun field => attemptFields.contains field.1) = true := by
    obtain rfl := Json.obj.inj hfields
    rfl
  rw [validateStoredAttempt, if_pos hknown, Option.filter_eq_some_iff, readAttemptFields_eq_some,
    serialized_readsAs hfields]
  constructor
  · rintro ⟨⟨hreadable, rfl⟩, hmatches⟩
    rw [Bool.and_eq_true, evaluatorMatchesState_record] at hmatches
    exact ⟨hreadable, hmatches.1, rfl⟩
  · rintro ⟨hreadable, hmatches, rfl⟩
    refine ⟨⟨hreadable, rfl⟩, ?_⟩
    rw [Bool.and_eq_true, evaluatorMatchesState_record]
    exact ⟨hmatches, beq_self_eq_true _⟩

theorem parseOwnedAttempt_serialized (hsession : a.sessionId ≠ "")
    (huser : isCanonicalUuid a.userId = true) {fields : List (String × Json)}
    (hfields : serializedAttempt cipher ivs a a.sessionId = .obj fields) :
    parseOwnedAttempt (.obj fields) a.sessionId a.userId = .ok fields := by
  have hlookup : (fields.lookup "session_id").bind Json.nonEmptyString? = some a.sessionId := by
    obtain rfl := Json.obj.inj hfields
    exact Json.nonEmptyString?_str hsession
  have hlookup' : (fields.lookup "user_id").bind Json.canonicalUuid? = some a.userId := by
    obtain rfl := Json.obj.inj hfields
    exact (Json.canonicalUuid?_str _).trans (if_pos huser)
  simp [parseOwnedAttempt, hlookup, hlookup']

/-- **Reading back.**  For an attempt of a session and a user, `get_attempt` returns what
`store_attempt` was given exactly when the attempt passes the validation. -/
theorem getAttempt_serialized_iff (hsession : a.sessionId ≠ "")
    (huser : isCanonicalUuid a.userId = true) :
    (getAttempt cipher (some (serializedAttempt cipher ivs a a.sessionId)) a.attemptId a.sessionId
      a.userId).1 = .ok a ↔ a.Readable := by
  obtain ⟨fields, hfields⟩ : ∃ fields, serializedAttempt cipher ivs a a.sessionId = .obj fields :=
    ⟨_, rfl⟩
  rw [hfields, getAttempt]
  simp only [parseOwnedAttempt_serialized hsession huser hfields]
  constructor
  · intro h
    split at h
    · rename_i b hb
      obtain ⟨r, hr, hrestore⟩ := Option.bind_eq_some_iff.mp hb
      obtain ⟨hreadable, hmatches, rfl⟩ := (validateStoredAttempt_serialized hfields).mp hr
      rw [restore_record] at hrestore
      split at hrestore
      · exact ⟨hreadable, hmatches, ‹_›⟩
      · cases hrestore
    · cases h
  · intro h
    have hvalid := (validateStoredAttempt_serialized hfields).mpr
      ⟨h.toFieldsReadable, h.evaluatorMatchesState, rfl⟩
    simp only [hvalid, Option.bind_some, restore_record, if_pos h.evaluatorResult]

end Roundtrip

/-! ## A cipher -/

/-- A text by its code points. -/
def codePoints (s : String) : List Nat := s.toList.map Char.toNat

/-- The text with these code points. -/
def ofCodePoints (ns : List Nat) : String := String.ofList (ns.map Char.ofNat)

theorem ofCodePoints_codePoints (s : String) : ofCodePoints (codePoints s) = s := by
  have hchar : Char.ofNat ∘ Char.toNat = id := funext Char.ofNat_toNat
  rw [ofCodePoints, codePoints, List.map_map, hchar, List.map_id, String.ofList_toList]

/-- A payload as numbers. -/
def EncryptedAttemptText.numbers (payload : EncryptedAttemptText) :
    Nat × Nat × (List Nat ⊕ (Bool × List (List Nat × List Nat))) :=
  (match payload.purpose with
    | .question => 0
    | .sql => 1
    | .evaluatorResult => 2,
   payload.version,
   match payload.text with
    | .plain text => .inl (codePoints text)
    | .evaluatorResult result => .inr (result.passed,
        result.violations.map fun v => (codePoints v.rule, codePoints v.messageKey)))

/-- The payload back from its numbers. -/
def EncryptedAttemptText.ofNumbers
    (numbers : Nat × Nat × (List Nat ⊕ (Bool × List (List Nat × List Nat)))) :
    EncryptedAttemptText where
  purpose := match numbers.1 with
    | 0 => .question
    | 1 => .sql
    | _ => .evaluatorResult
  version := numbers.2.1
  text := match numbers.2.2 with
    | .inl text => .plain (ofCodePoints text)
    | .inr (passed, violations) => .evaluatorResult ⟨passed,
        violations.map fun v => ⟨ofCodePoints v.1, ofCodePoints v.2⟩⟩

theorem EncryptedAttemptText.ofNumbers_numbers (payload : EncryptedAttemptText) :
    ofNumbers payload.numbers = payload := by
  obtain ⟨purpose, version, text⟩ := payload
  cases purpose <;> cases text <;>
    simp [numbers, ofNumbers, ofCodePoints_codePoints, Function.comp_def]

/-- A cipher that writes a payload in unary. -/
def unaryCipher : AttemptCipher where
  encrypt _ payload := String.ofList (List.replicate (Encodable.encode payload.numbers) '*')
  decrypt ciphertext := (Encodable.decode ciphertext.length).map EncryptedAttemptText.ofNumbers
  decrypt_encrypt iv payload := by
    simp [EncryptedAttemptText.ofNumbers_numbers]

end QueryCraft
