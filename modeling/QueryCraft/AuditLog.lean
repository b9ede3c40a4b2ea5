import Mathlib.Data.List.Pairwise
import Mathlib.Data.List.Infix
import QueryCraft.CanonicalJson

/-! # The audit table and its writers

`AuditService` keeps an append-only table whose rows are chained by hash: each
row stores the hash of the row before it and a hash of its own payload.  Rows
are written by `AuditService.log`, and `AuditService.purge_expired_entries`
removes the rows older than a retention cutoff after logging an `audit.purge`
marker that records the boundary.

The table is a finite set of rows whose sequence numbers are distinct (a unique
constraint); it is kept as the list of its rows in sequence order, so that
`ORDER BY sequence_number` is the list itself.  Sequence numbers are unbounded
integers.  SHA-256 and the redaction of contexts are parameters.
-/
namespace QueryCraft

/-! ## JSON contexts -/

namespace Json

/-- The digits of a decimal numeral, least significant last. -/
def digits? : List Char → Option Nat
  | [] => none
  | cs => if cs.all Char.isDigit then some (cs.foldl (fun n c => 10 * n + (c.toNat - '0'.toNat)) 0)
    else none

/-- PostgreSQL's conversion of text to an integer: surrounding blanks, a sign
and decimal digits. -/
def parseInteger (s : String) : Option Int :=
  let cs := (((s.toList.dropWhile Char.isWhitespace).reverse).dropWhile Char.isWhitespace).reverse
  match cs with
  | '-' :: ds => (digits? ds).map (fun n => -(n : Int))
  | '+' :: ds => (digits? ds).map Int.ofNat
  | ds => (digits? ds).map Int.ofNat

/-- The greatest `INTEGER` of PostgreSQL. -/
def integerMax : Int := 2147483647

/-- The number is an `INTEGER` of PostgreSQL. -/
def inIntegerRange (n : Int) : Bool := -integerMax - 1 ≤ n && n ≤ integerMax

/-- `CAST(context ->> key AS INTEGER)` on the value at the key: SQL `NULL` for an
absent key or JSON `null`, and `none` where the cast raises, because the text is not
an integer or is out of range. -/
def asInteger : Json → Option (Option Int)
  | null => some none
  | int n => if inIntegerRange n then some (some n) else none
  | str s => ((parseInteger s).filter inIntegerRange).map some
  | _ => none

theorem inIntegerRange_iff {n : Int} :
    inIntegerRange n = true ↔ -integerMax - 1 ≤ n ∧ n ≤ integerMax := by
  simp [inIntegerRange]

end Json

/-! ## Rows -/

/-- `AuditActionType`. -/
inductive AuditActionType where
  | authLoginSuccess | authLoginFailure | authLogout | authSsoValidation
  | querySubmit | queryValidatePass | queryValidateFail | queryExecute | queryAccept
  | queryReject | queryHistoryView | queryRerun
  | roleCreate | roleUpdate | roleDelete | roleMappingChange
  | ssoConfigChange | connectionCreate | connectionUpdate | connectionDelete
  | adminConfigChange | accessDenied | auditVerify | policySchemaMismatch
  | quotaConfigChange | quotaExceeded | quotaWarning
  | hostileInputBlocked | hostileInputFlagged | detectionConfigChange
  | auditSearch | auditExport | auditPurge
deriving DecidableEq, Repr

/-- `str(action)`: the value of the string enumeration. -/
def AuditActionType.value : AuditActionType → String
  | authLoginSuccess => "auth.login.success"
  | authLoginFailure => "auth.login.failure"
  | authLogout => "auth.logout"
  | authSsoValidation => "auth.sso.validation"
  | querySubmit => "query.submit"
  | queryValidatePass => "query.validate.pass"
  | queryValidateFail => "query.validate.fail"
  | queryExecute => "query.execute"
  | queryAccept => "query.accept"
  | queryReject => "query.reject"
  | queryHistoryView => "query.history.view"
  | queryRerun => "query.rerun"
  | roleCreate => "role.create"
  | roleUpdate => "role.update"
  | roleDelete => "role.delete"
  | roleMappingChange => "role.mapping.change"
  | ssoConfigChange => "sso.config.change"
  | connectionCreate => "connection.create"
  | connectionUpdate => "connection.update"
  | connectionDelete => "connection.delete"
  | adminConfigChange => "admin.config.change"
  | accessDenied => "access.denied"
  | auditVerify => "audit.verify"
  | policySchemaMismatch => "policy.schema_mismatch"
  | quotaConfigChange => "quota.config.change"
  | quotaExceeded => "quota.exceeded"
  | quotaWarning => "quota.warning"
  | hostileInputBlocked => "hostile.input.blocked"
  | hostileInputFlagged => "hostile.input.flagged"
  | detectionConfigChange => "detection.config.change"
  | auditSearch => "audit.search"
  | auditExport => "audit.export"
  | auditPurge => "audit.purge"

theorem AuditActionType.value_eq_purge {a : AuditActionType}
    (h : a.value = AuditActionType.auditPurge.value) : a = .auditPurge := by
  cases a <;> first | rfl | exact absurd h (by decide)

/-- The hashed columns of a row. -/
structure Payload where
  sequenceNumber : Int
  timestamp : DateTime
  actorId : Option String
  actorIdentity : Option String
  actionType : String
  resourceType : Option String
  resourceId : Option String
  outcome : String
  context : Json

/-- A nullable text column as a JSON value. -/
def nullableText (s : Option String) : Json := (s.map Json.str).getD .null

/-- `_audit_entry_payload`. -/
def Payload.json (p : Payload) : Json :=
  .obj
    [("sequence_number", .int p.sequenceNumber),
     ("timestamp", .str (String.ofList p.timestamp.isoformat)),
     ("actor_id", nullableText p.actorId),
     ("actor_identity", nullableText p.actorIdentity),
     ("action_type", .str p.actionType),
     ("resource_type", nullableText p.resourceType),
     ("resource_id", nullableText p.resourceId),
     ("outcome", .str p.outcome),
     ("context", p.context)]

/-- A row of `audit_log_entries`: its payload, the hash of the row before it and
its own hash. -/
structure AuditLogEntry extends Payload where
  prevHash : String
  rowHash : String

/-- The marker's key in the context that `verify_chain` looks rows up by. -/
def AuditLogEntry.firstSurvivingSeq (e : AuditLogEntry) : Option (Option Int) :=
  (e.context.get "first_surviving_seq").asInteger

/-- `action_type = 'audit.purge'`. -/
def AuditLogEntry.isPurge (e : AuditLogEntry) : Bool :=
  e.actionType == AuditActionType.auditPurge.value

/-- Two rows with the same payload and hashes are the same row. -/
theorem AuditLogEntry.ext_payload {a b : AuditLogEntry} (hp : a.toPayload = b.toPayload)
    (hprev : a.prevHash = b.prevHash) (hrow : a.rowHash = b.rowHash) : a = b := by
  cases a; cases b; simp_all

/-! ## The table -/

/-- The rows in sequence order.  The unique constraint on `sequence_number` is
the strictness of the order. -/
@[ext]
structure AuditTable where
  rows : List AuditLogEntry
  ascending : rows.Pairwise (fun a b => a.sequenceNumber < b.sequenceNumber)

namespace AuditTable

/-- The empty table. -/
def empty : AuditTable := ⟨[], List.Pairwise.nil⟩

@[simp] theorem empty_rows : empty.rows = [] := rfl

/-- `SELECT sequence_number ... ORDER BY sequence_number DESC LIMIT 1`, which is
also `max(sequence_number)`. -/
def lastSequence? (T : AuditTable) : Option Int := T.rows.getLast?.map (·.sequenceNumber)

/-- The row with a given sequence number. -/
def rowAt? (T : AuditTable) (n : Int) : Option AuditLogEntry :=
  T.rows.find? (·.sequenceNumber == n)

/-- `DELETE` of the rows a predicate selects. -/
def delete (T : AuditTable) (p : AuditLogEntry → Bool) : AuditTable :=
  ⟨T.rows.filter (fun e => !p e), T.ascending.filter _⟩

@[simp] theorem delete_rows (T : AuditTable) (p : AuditLogEntry → Bool) :
    (T.delete p).rows = T.rows.filter (fun e => !p e) := rfl

theorem insert_ascending {rows : List AuditLogEntry} (e : AuditLogEntry)
    (h : rows.Pairwise (fun a b => a.sequenceNumber < b.sequenceNumber)) :
    (rows.filter (·.sequenceNumber < e.sequenceNumber) ++
      e :: rows.filter (e.sequenceNumber < ·.sequenceNumber)).Pairwise
      (fun a b => a.sequenceNumber < b.sequenceNumber) := by
  refine List.pairwise_append.mpr ⟨h.filter _, List.pairwise_cons.mpr ⟨?_, h.filter _⟩, ?_⟩
  · intro b hb
    simpa using (List.mem_filter.mp hb).2
  · intro a ha b hb
    have ha' : a.sequenceNumber < e.sequenceNumber := by simpa using (List.mem_filter.mp ha).2
    rcases List.mem_cons.mp hb with rfl | hb
    · exact ha'
    · have hb' : e.sequenceNumber < b.sequenceNumber := by simpa using (List.mem_filter.mp hb).2
      omega

/-- `INSERT` of one row; `none` where it violates the unique constraint. -/
def insert (T : AuditTable) (e : AuditLogEntry) : Option AuditTable :=
  if ∀ r ∈ T.rows, r.sequenceNumber ≠ e.sequenceNumber then
    some ⟨_, insert_ascending e T.ascending⟩
  else none

/-- A row numbered above every other is appended. -/
theorem insert_rows_of_lt {T : AuditTable} {e : AuditLogEntry}
    (h : ∀ r ∈ T.rows, r.sequenceNumber < e.sequenceNumber) :
    ∃ T', T.insert e = some T' ∧ T'.rows = T.rows ++ [e] := by
  have hne : ∀ r ∈ T.rows, r.sequenceNumber ≠ e.sequenceNumber := fun r hr => by
    have := h r hr; omega
  refine ⟨_, if_pos hne, ?_⟩
  have h1 : T.rows.filter (·.sequenceNumber < e.sequenceNumber) = T.rows :=
    List.filter_eq_self.mpr fun r hr => by simpa using h r hr
  have h2 : T.rows.filter (e.sequenceNumber < ·.sequenceNumber) = [] :=
    List.filter_eq_nil_iff.mpr fun r hr => by have := h r hr; simp; omega
  simp only [h1, h2]

/-- Rows are determined by their sequence numbers. -/
theorem eq_of_sequenceNumber_eq (T : AuditTable) {a b : AuditLogEntry} (ha : a ∈ T.rows)
    (hb : b ∈ T.rows) (h : a.sequenceNumber = b.sequenceNumber) : a = b := by
  obtain ⟨i, hi, rfl⟩ := List.getElem_of_mem ha
  obtain ⟨j, hj, rfl⟩ := List.getElem_of_mem hb
  have hasc := List.pairwise_iff_getElem.mp T.ascending
  rcases Nat.lt_trichotomy i j with hij | rfl | hij
  · have := hasc i j hi hj hij
    omega
  · rfl
  · have := hasc j i hj hi hij
    omega

theorem rowAt?_eq_some_iff (T : AuditTable) {n : Int} {e : AuditLogEntry} :
    T.rowAt? n = some e ↔ e ∈ T.rows ∧ e.sequenceNumber = n := by
  unfold rowAt?
  constructor
  · intro h
    exact ⟨List.mem_of_find?_eq_some h, by simpa using List.find?_some h⟩
  · rintro ⟨he, hn⟩
    cases hf : T.rows.find? (·.sequenceNumber == n) with
    | none => exact absurd hn (by simpa using List.find?_eq_none.mp hf e he)
    | some d =>
      have hd : d.sequenceNumber = n := by simpa using List.find?_some hf
      rw [T.eq_of_sequenceNumber_eq he (List.mem_of_find?_eq_some hf) (hn.trans hd.symm)]

/-- `(last_seq or 0) + 1`. -/
def nextSequence (T : AuditTable) : Int := T.lastSequence?.getD 0 + 1

theorem lt_nextSequence (T : AuditTable) {r : AuditLogEntry} (hr : r ∈ T.rows) :
    r.sequenceNumber < T.nextSequence := by
  rcases List.eq_nil_or_concat T.rows with h | ⟨xs, x, h⟩
  · rw [h] at hr; cases hr
  · have hlast : T.nextSequence = x.sequenceNumber + 1 := by
      simp [nextSequence, lastSequence?, h]
    rw [hlast]
    have hasc := T.ascending
    rw [h, List.concat_eq_append] at hasc hr
    rcases List.mem_append.mp hr with hr | hr
    · have := (List.pairwise_append.mp hasc).2.2 r hr x (by simp)
      omega
    · rw [List.mem_singleton.mp hr]; omega

end AuditTable

/-! ## Writers -/

/-- The link of the first row ever written. -/
abbrev genesis : String := "GENESIS"

/-- The boundary `purge_expired_entries` records in its marker. -/
structure PurgeBoundary where
  purgedFromSeq : Int
  purgedToSeq : Int
  purgedCount : Int
  retentionMonths : Int
  lastRetainedHash : String
  lastRetainedSeq : Int
  firstSurviving : Option (Int × String)

/-- The marker's context, with its keys in order; both survivor fields are `null` when
nothing survived. -/
def PurgeBoundary.context (b : PurgeBoundary) : Json :=
  .obj
    [("first_surviving_prev_hash", (b.firstSurviving.map (fun s => Json.str s.2)).getD .null),
     ("first_surviving_seq", (b.firstSurviving.map (fun s => Json.int s.1)).getD .null),
     ("last_retained_hash", .str b.lastRetainedHash),
     ("last_retained_seq", .int b.lastRetainedSeq),
     ("purged_count", .int b.purgedCount),
     ("purged_from_seq", .int b.purgedFromSeq),
     ("purged_to_seq", .int b.purgedToSeq),
     ("retention_months", .int b.retentionMonths)]

/-- The hashes a boundary records. -/
def PurgeBoundary.hashes (b : PurgeBoundary) : List String :=
  b.lastRetainedHash :: (b.firstSurviving.map (·.2)).toList

/-- What the service takes from outside this file: `sha256(text.encode("utf-8")).hexdigest()`
and the redaction `redact_audit_value`.  A call whose context cannot be redacted
raises before it reads the table. -/
structure AuditEnv where
  sha256 : List Char → String
  redactAuditValue : Json → Json

/-- `_compute_row_hash`. -/
def AuditEnv.computeRowHash (env : AuditEnv) (p : Payload) (prevHash : String) : String :=
  env.sha256 (canonicalJson p.json ++ prevHash.toList)

/-- The redaction leaves the context of the boundary's marker as it is. -/
def AuditEnv.KeepsMarker (env : AuditEnv) (b : PurgeBoundary) : Prop :=
  env.redactAuditValue b.context = b.context

/-- The text is the hash of a row. -/
def AuditEnv.IsRowHash (env : AuditEnv) (h : String) : Prop :=
  ∃ payload prevHash, env.computeRowHash payload prevHash = h

/-- The redaction leaves the contexts of purge markers as they are, whichever rows
their hashes come from. -/
def AuditEnv.KeepsMarkers (env : AuditEnv) : Prop :=
  ∀ b : PurgeBoundary, (∀ h ∈ b.hashes, env.IsRowHash h) → env.KeepsMarker b

/-- The arguments of `AuditService.log` after the session. -/
structure LogRequest where
  action : AuditActionType
  actorId : Option String := none
  actorIdentity : Option String := none
  resourceType : Option String := none
  resourceId : Option String := none
  outcome : String := "success"
  context : Json := .obj []

namespace AuditTable
variable (env : AuditEnv)

/-- `_get_prev_hash`; `none` stands for `NoResultFound`. -/
def getPrevHash (T : AuditTable) (n : Int) : Option String := (T.rowAt? n).map (·.rowHash)

/-- The row `AuditService.log` builds under the sequence lock. -/
def nextEntry (T : AuditTable) (now : DateTime) (req : LogRequest) : Option AuditLogEntry :=
  let payload : Payload :=
    { sequenceNumber := T.nextSequence
      timestamp := now
      actorId := req.actorId
      actorIdentity := req.actorIdentity
      actionType := req.action.value
      resourceType := req.resourceType
      resourceId := req.resourceId
      outcome := req.outcome
      context := env.redactAuditValue req.context }
  (if T.nextSequence = 1 then some genesis else T.getPrevHash (T.nextSequence - 1)).map
    fun prevHash =>
      { payload with prevHash := prevHash, rowHash := env.computeRowHash payload prevHash }

/-- `AuditService.log`. -/
def log (T : AuditTable) (now : DateTime) (req : LogRequest) : Option AuditTable :=
  (T.nextEntry env now req).bind T.insert

/-- The rows with `timestamp < cutoff`, in sequence order. -/
def expired (T : AuditTable) (cutoff : DateTime) : List AuditLogEntry :=
  T.rows.filter (·.timestamp < cutoff)

/-- The first row with `timestamp >= cutoff`. -/
def firstSurvivor? (T : AuditTable) (cutoff : DateTime) : Option AuditLogEntry :=
  T.rows.find? (cutoff ≤ ·.timestamp)

end AuditTable

/-- The boundary computed from the rows that were read; `none` when nothing has
expired. -/
def purgeBoundary? (expired : List AuditLogEntry) (firstSurvivor : Option AuditLogEntry)
    (retentionMonths : Int) : Option PurgeBoundary :=
  match expired.head?, expired.getLast? with
  | some firstPurged, some lastPurged => some
      { purgedFromSeq := firstPurged.sequenceNumber
        purgedToSeq := lastPurged.sequenceNumber
        purgedCount := expired.length
        retentionMonths := retentionMonths
        lastRetainedHash := lastPurged.rowHash
        lastRetainedSeq := lastPurged.sequenceNumber
        firstSurviving := firstSurvivor.map (fun s => (s.sequenceNumber, s.prevHash)) }
  | _, _ => none

/-- The request with which a purge logs its marker. -/
def PurgeBoundary.request (b : PurgeBoundary) : LogRequest :=
  { action := .auditPurge, context := b.context }

namespace AuditTable
variable (env : AuditEnv)

/-- `AuditService.purge_expired_entries`: the clock is read once for the cutoff and
once more for the marker's timestamp.  `none` where the cutoff does not exist. -/
def purgeExpiredEntries (T : AuditTable) (now nowMarker : DateTime) (retentionMonths : Int) :
    Option AuditTable :=
  (computeRetentionCutoff retentionMonths now).bind fun cutoff =>
    match purgeBoundary? (T.expired cutoff) (T.firstSurvivor? cutoff) retentionMonths with
    | none => some T
    | some b => (T.log env nowMarker b.request).map (·.delete (·.timestamp < cutoff))

/-! ### What the writers write -/

/-- What is known of the row `log` builds for a table. -/
structure IsNextEntry (T : AuditTable) (now : DateTime) (req : LogRequest)
    (e : AuditLogEntry) : Prop where
  sequenceNumber : e.sequenceNumber = T.nextSequence
  timestamp : e.timestamp = now
  actionType : e.actionType = req.action.value
  outcome : e.outcome = req.outcome
  context : e.context = env.redactAuditValue req.context
  rowHash : e.rowHash = env.computeRowHash e.toPayload e.prevHash
  first : T.nextSequence = 1 → e.prevHash = genesis
  linked : ∀ xs last, T.rows = xs ++ [last] → T.nextSequence ≠ 1 → e.prevHash = last.rowHash

theorem nextSequence_concat {T : AuditTable} {xs : List AuditLogEntry} {last : AuditLogEntry}
    (h : T.rows = xs ++ [last]) : T.nextSequence = last.sequenceNumber + 1 := by
  simp [nextSequence, lastSequence?, h]

/-- `log` always finds the row it links to, so it always builds a row. -/
theorem nextEntry_spec (T : AuditTable) (now : DateTime) (req : LogRequest) :
    ∃ e, T.nextEntry env now req = some e ∧ IsNextEntry env T now req e := by
  by_cases h1 : T.nextSequence = 1
  · refine ⟨_, by rw [nextEntry, if_pos h1]; rfl, ?_⟩
    exact ⟨rfl, rfl, rfl, rfl, rfl, rfl, fun _ => rfl, fun _ _ _ h => absurd h1 h⟩
  · rcases List.eq_nil_or_concat T.rows with h | ⟨xs, last, h⟩
    · exact absurd (by simp [nextSequence, lastSequence?, h]) h1
    · rw [List.concat_eq_append] at h
      have hrow : T.rowAt? (T.nextSequence - 1) = some last := by
        refine (T.rowAt?_eq_some_iff).mpr ⟨by rw [h]; simp, ?_⟩
        rw [nextSequence_concat h]
        omega
      refine ⟨_, by rw [nextEntry, if_neg h1, getPrevHash, hrow]; rfl, ?_⟩
      refine ⟨rfl, rfl, rfl, rfl, rfl, rfl, fun h' => absurd h' h1, fun ys l hl _ => ?_⟩
      rw [h] at hl
      have := (List.append_inj' hl rfl).2
      rw [List.cons.inj this |>.1]

/-- `log` appends the row it builds. -/
theorem log_spec (T : AuditTable) (now : DateTime) (req : LogRequest) :
    ∃ T' e, T.log env now req = some T' ∧ IsNextEntry env T now req e ∧
      T'.rows = T.rows ++ [e] := by
  obtain ⟨e, he, hspec⟩ := nextEntry_spec env T now req
  obtain ⟨T', hT', hrows⟩ := insert_rows_of_lt (T := T) (e := e) fun r hr => by
    rw [hspec.sequenceNumber]
    exact T.lt_nextSequence hr
  exact ⟨T', e, by rw [log, he]; exact hT', hspec, hrows⟩

end AuditTable

end QueryCraft
