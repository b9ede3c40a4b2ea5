import QueryCraft.QueryPipeline
import QueryCraft.RedisScript

/-! # The state of a cancelled chat session

A query leaves a record of itself in Redis while it runs, and one of each attempt that it
stores, as texts that join ids with `|`.  When the chat session is deleted, a script takes
these records apart again and removes what they name, as far as it belongs to the user who
deletes the session.

`cleanup_exact` says which keys are gone afterwards and that all others are as they were.
-/
namespace QueryCraft

open Redis
open QueryPipeline (QueryOperation TrackedAttempt)

/-! ## Records -/

/-- `"|".join(parts)`. -/
def joinFields (parts : List String) : String :=
  String.ofList (['|'].intercalate (parts.map String.toList))

/-- The script's `fields`: the runs of characters other than `|`. -/
def fields (raw : String) : List String :=
  ((raw.toList.splitOn '|').filter (· ≠ [])).map String.ofList

/-- An id that `fields` does not take apart. -/
def IsIdentifier (id : String) : Prop := id ≠ "" ∧ '|' ∉ id.toList

/-- `CancellationMarker`. -/
structure CancellationMarker where
  sessionId : String
  userId : String
  token : String
deriving DecidableEq, Repr

/-- `CancellationMarker.redis_value`. -/
def CancellationMarker.redisValue (m : CancellationMarker) : String := m.userId ++ ":" ++ m.token

/-- The fields of a `QueryOperation` that are stored. -/
def operationFields (op : QueryOperation) : List String :=
  [op.userId, op.httpSessionId, op.attemptId, op.lockOwner, op.token]

/-- `QueryOperation.redis_value`. -/
def operationValue (op : QueryOperation) : String := joinFields (operationFields op)

/-- The fields of a `TrackedAttempt` that are stored. -/
def trackedFields (t : TrackedAttempt) : List String := [t.userId, t.httpSessionId, t.attemptId]

/-- `TrackedAttempt.redis_value`. -/
def trackedValue (t : TrackedAttempt) : String := joinFields (trackedFields t)

/-- `_cancellation_key`. -/
def cancellationKey (sessionId : String) : String := "session_cancelled:" ++ sessionId

/-- `_operation_key`. -/
def operationKey (sessionId : String) : String := "session_operation:" ++ sessionId

/-- `_attempt_state_key`. -/
def attemptStateKey (sessionId : String) : String := "session_attempts:" ++ sessionId

/-! ## The script -/

/-- The text and the field joined; a field that is missing is an error. -/
def concat (text : String) : Option String → Script String
  | some part => pure (text ++ part)
  | none => Script.fail

/-- The reply is a string and equals the field. -/
def isReply (reply field : Option String) : Bool := reply.isSome && reply = field

/-- Deletes the key with this prefix and field if it holds the expected value. -/
def deleteIfHolds (text : String) (field expected : Option String) : Script Unit := do
  let key ← concat text field
  let reply ← get key
  if isReply reply expected then del key else pure ()

/-- The part of the script about the operation record. -/
def cleanOperation (operationKey userId : String) : Script Unit := do
  let operation ← get operationKey
  match operation with
  | none => pure ()
  | some operation =>
    let op := fields operation
    if op[0]? = some userId then do
      deleteIfHolds "processing_lock:" op[1]? op[3]?
      deleteIfHolds "active_attempt:" op[1]? op[2]?
      let attemptKey ← concat "attempt:" op[2]?
      del attemptKey
      del operationKey
    else pure ()

/-- The loop of the script over the tracked attempts. -/
def cleanTracked (attemptsKey userId : String) : List String → Script Unit
  | [] => pure ()
  | tracked :: rest => do
    let state := fields tracked
    if state[0]? = some userId then do
      deleteIfHolds "active_attempt:" state[1]? state[2]?
      let attemptKey ← concat "attempt:" state[2]?
      del attemptKey
      srem attemptsKey tracked
    else pure ()
    cleanTracked attemptsKey userId rest

/-- `_CLEAN_CANCELLED_STATE_SCRIPT`. -/
def cleanCancelledState (markerKey operationKey attemptsKey markerValue userId : String) :
    Script Nat := do
  let marker ← get markerKey
  if marker ≠ some markerValue then pure 0
  else do
    cleanOperation operationKey userId
    let tracked ← smembers attemptsKey
    cleanTracked attemptsKey userId tracked
    let left ← scard attemptsKey
    if left = 0 then del attemptsKey else pure ()
    pure 1

/-- `cleanup_cancelled_session_state`. -/
def cleanupCancelledSessionState (marker : CancellationMarker) : Script Bool := do
  let cleaned ← cleanCancelledState (cancellationKey marker.sessionId)
    (operationKey marker.sessionId) (attemptStateKey marker.sessionId) marker.redisValue
    marker.userId
  pure (cleaned = 1)

/-! ## What the records say -/

section
variable (store : Store) (sessionId : String)

/-- The operation is recorded for the session. -/
def Recorded (op : QueryOperation) : Prop :=
  store (operationKey sessionId) = some (.string (operationValue op)) ∧
    op.sessionId = sessionId ∧ ∀ part ∈ operationFields op, IsIdentifier part

/-- The attempt is tracked for the session. -/
def Tracked (t : TrackedAttempt) : Prop :=
  trackedValue t ∈ members (store (attemptStateKey sessionId)) ∧
    t.sessionId = sessionId ∧ ∀ part ∈ trackedFields t, IsIdentifier part

/-- The keys hold what the functions that write them put there. -/
structure StateOf : Prop where
  marker : IsString (store (cancellationKey sessionId))
  operation : store (operationKey sessionId) = none ∨ ∃ op, Recorded store sessionId op
  attempts : IsSet (store (attemptStateKey sessionId))
  tracked : ∀ x ∈ members (store (attemptStateKey sessionId)),
    ∃ t, x = trackedValue t ∧ Tracked store sessionId t
  locks : ∀ http, IsString (store ("processing_lock:" ++ http))
  active : ∀ http, IsString (store ("active_attempt:" ++ http))

/-- The keys that the deletion of a session by a user removes. -/
inductive Removed (userId : String) : String → Prop where
  | operation {op : QueryOperation} (h : Recorded store sessionId op) (hu : op.userId = userId) :
    Removed userId (operationKey sessionId)
  | operationAttempt {op : QueryOperation} (h : Recorded store sessionId op)
    (hu : op.userId = userId) : Removed userId ("attempt:" ++ op.attemptId)
  | lock {op : QueryOperation} (h : Recorded store sessionId op) (hu : op.userId = userId)
    (hlock : store ("processing_lock:" ++ op.httpSessionId) = some (.string op.lockOwner)) :
    Removed userId ("processing_lock:" ++ op.httpSessionId)
  | operationActive {op : QueryOperation} (h : Recorded store sessionId op)
    (hu : op.userId = userId)
    (hactive : store ("active_attempt:" ++ op.httpSessionId) = some (.string op.attemptId)) :
    Removed userId ("active_attempt:" ++ op.httpSessionId)
  | attempt {t : TrackedAttempt} (h : Tracked store sessionId t) (hu : t.userId = userId) :
    Removed userId ("attempt:" ++ t.attemptId)
  | active {t : TrackedAttempt} (h : Tracked store sessionId t) (hu : t.userId = userId)
    (hactive : store ("active_attempt:" ++ t.httpSessionId) = some (.string t.attemptId)) :
    Removed userId ("active_attempt:" ++ t.httpSessionId)

end

/-! ## Taking records apart -/

theorem fields_joinFields {parts : List String} (hne : parts ≠ [])
    (h : ∀ part ∈ parts, IsIdentifier part) : fields (joinFields parts) = parts := by
  have hsplit : (['|'].intercalate (parts.map String.toList)).splitOn '|' =
      parts.map String.toList := by
    apply List.splitOn_intercalate
    · intro l hl
      obtain ⟨part, hpart, rfl⟩ := List.mem_map.mp hl
      exact (h part hpart).2
    · simpa using hne
  have hfilter : (parts.map String.toList).filter (· ≠ []) = parts.map String.toList := by
    rw [List.filter_eq_self]
    intro l hl
    obtain ⟨part, hpart, rfl⟩ := List.mem_map.mp hl
    simpa using (h part hpart).1
  rw [fields, joinFields, String.toList_ofList, hsplit, hfilter, List.map_map]
  conv_rhs => rw [← List.map_id parts]
  exact List.map_congr_left fun part _ => String.ofList_toList

theorem fields_operationValue {op : QueryOperation}
    (h : ∀ part ∈ operationFields op, IsIdentifier part) :
    fields (operationValue op) = operationFields op :=
  fields_joinFields (List.cons_ne_nil _ _) h

theorem fields_trackedValue {t : TrackedAttempt}
    (h : ∀ part ∈ trackedFields t, IsIdentifier part) :
    fields (trackedValue t) = trackedFields t :=
  fields_joinFields (List.cons_ne_nil _ _) h

/-! ## Running the script -/

section Run
variable {s s' : Store} {P : String → Prop} {sessionId userId : String}

theorem deleteIfHolds_run {apart text id : String} (expected : String)
    (h : Cleared s apart P s') (hkey : text ++ id ≠ apart) (hs : IsString (s (text ++ id))) :
    ∃ s'', deleteIfHolds text (some id) (some expected) s' = (some (), s'') ∧
      s'' apart = s' apart ∧
      Cleared s apart
        (fun k => P k ∨ k = text ++ id ∧ s (text ++ id) = some (.string expected)) s'' := by
  have hstep : deleteIfHolds text (some id) (some expected) s' =
      (do
        let reply ← get (text ++ id)
        if isReply reply (some expected) then del (text ++ id) else pure () : Script Unit) s' := rfl
  rw [hstep]
  rcases h.isString hkey hs with hnone | ⟨found, hsome⟩
  · refine ⟨s', by rw [bind_run (get_run_none hnone)]; rfl, rfl, h.congr ?_⟩
    intro k
    constructor
    · exact .inl
    · rintro (hP | ⟨rfl, hexpected⟩)
      · exact hP
      · by_contra hP
        rw [(h.eq_some_iff hkey _).mpr ⟨hexpected, hP⟩] at hnone
        cases hnone
  · obtain ⟨hbefore, hnot⟩ := (h.eq_some_iff hkey _).mp hsome
    rw [bind_run (get_run_string hsome)]
    by_cases hfound : found = expected
    · refine ⟨Function.update s' (text ++ id) none, ?_, ?_, (h.del (text ++ id)).congr ?_⟩
      · rw [if_pos (by simp [isReply, hfound]), del_run]
      · rw [Function.update_of_ne (Ne.symm hkey)]
      · intro k
        rw [hbefore, hfound]
        simp
    · refine ⟨s', ?_, rfl, h.congr ?_⟩
      · rw [if_neg (by simp [isReply, hfound])]
        rfl
      · intro k
        rw [hbefore]
        simp [hfound]

/-- The two keys of an attempt, before the rest of a script. -/
theorem dropAttempt_run {α : Type} {apart http attemptId : String} (rest : Script α)
    (h : Cleared s apart P s') (hactive : "active_attempt:" ++ http ≠ apart)
    (hattempt : "attempt:" ++ attemptId ≠ apart)
    (hs : IsString (s ("active_attempt:" ++ http))) :
    ∃ s'', (do
        deleteIfHolds "active_attempt:" (some http) (some attemptId)
        let attemptKey ← concat "attempt:" (some attemptId)
        del attemptKey
        rest : Script α) s' = rest s'' ∧ s'' apart = s' apart ∧
      Cleared s apart
        (fun k => (P k ∨ k = "active_attempt:" ++ http ∧
          s ("active_attempt:" ++ http) = some (.string attemptId)) ∨
          k = "attempt:" ++ attemptId) s'' := by
  obtain ⟨s₁, hrun, hapart, hcleared⟩ := deleteIfHolds_run attemptId h hactive hs
  refine ⟨_, ?_, ?_, hcleared.del ("attempt:" ++ attemptId)⟩
  · rw [bind_run hrun]
    rfl
  · rw [Function.update_of_ne (Ne.symm hattempt), hapart]

theorem lock_ne (http : String) : "processing_lock:" ++ http ≠ attemptStateKey sessionId := by
  show "processing_lock:" ++ http ≠ "session_attempts:" ++ sessionId
  intro h
  have hlist := congrArg String.toList h
  simp at hlist

theorem active_ne (http : String) : "active_attempt:" ++ http ≠ attemptStateKey sessionId := by
  show "active_attempt:" ++ http ≠ "session_attempts:" ++ sessionId
  intro h
  have hlist := congrArg String.toList h
  simp at hlist

theorem attempt_ne (attemptId : String) :
    "attempt:" ++ attemptId ≠ attemptStateKey sessionId := by
  show "attempt:" ++ attemptId ≠ "session_attempts:" ++ sessionId
  intro h
  have hlist := congrArg String.toList h
  simp at hlist

theorem operationKey_ne (other : String) :
    operationKey other ≠ attemptStateKey sessionId := by
  show "session_operation:" ++ other ≠ "session_attempts:" ++ sessionId
  intro h
  have hlist := congrArg String.toList h
  simp at hlist

/-- There is one operation record. -/
theorem Recorded.unique {op op' : QueryOperation} (h : Recorded s sessionId op)
    (h' : Recorded s sessionId op') : op = op' := by
  obtain ⟨hvalue, hsession, hids⟩ := h
  obtain ⟨hvalue', hsession', hids'⟩ := h'
  rw [hvalue] at hvalue'
  have hfields : operationFields op = operationFields op' := by
    rw [← fields_operationValue hids, ← fields_operationValue hids']
    simp only [Option.some.injEq, Value.string.injEq] at hvalue'
    rw [hvalue']
  cases op
  cases op'
  simp only [operationFields, List.cons.injEq] at hfields
  simp only at hsession hsession'
  simp_all

/-- What the record of an operation names. -/
def OperationKeys (s : Store) (sessionId : String) (op : QueryOperation) (k : String) : Prop :=
  k = operationKey sessionId ∨ k = "attempt:" ++ op.attemptId ∨
    k = "processing_lock:" ++ op.httpSessionId ∧ s k = some (.string op.lockOwner) ∨
    k = "active_attempt:" ++ op.httpSessionId ∧ s k = some (.string op.attemptId)

variable (userId) in
/-- The operation record is removed with what it names, if it is the user's. -/
theorem cleanOperation_run (h : StateOf s sessionId) :
    ∃ s', cleanOperation (operationKey sessionId) userId s = (some (), s') ∧
      s' (attemptStateKey sessionId) = s (attemptStateKey sessionId) ∧
      Cleared s (attemptStateKey sessionId)
        (fun k => ∃ op, Recorded s sessionId op ∧ op.userId = userId ∧
          OperationKeys s sessionId op k) s' := by
  rcases h.operation with hnone | ⟨op, hop⟩
  · refine ⟨s, by rw [cleanOperation, bind_run (get_run_none hnone)]; rfl, rfl,
      Cleared.refl.congr ?_⟩
    intro k
    simp [Recorded, hnone]
  · rw [cleanOperation, bind_run (get_run_string hop.1)]
    have hfields : fields (operationValue op) = operationFields op := fields_operationValue hop.2.2
    simp only [hfields, operationFields, List.getElem?_cons_zero, List.getElem?_cons_succ,
      Option.some.injEq]
    by_cases huser : op.userId = userId
    · rw [if_pos huser]
      obtain ⟨s₁, hlock, hapart₁, hcleared₁⟩ :=
        deleteIfHolds_run op.lockOwner Cleared.refl (lock_ne op.httpSessionId)
          (h.locks op.httpSessionId)
      obtain ⟨s₂, hdrop, hapart₂, hcleared₂⟩ := dropAttempt_run (del (operationKey sessionId))
        hcleared₁ (active_ne op.httpSessionId) (attempt_ne op.attemptId)
        (h.active op.httpSessionId)
      refine ⟨Function.update s₂ (operationKey sessionId) none, ?_, ?_,
        (hcleared₂.del (operationKey sessionId)).congr ?_⟩
      · rw [bind_run hlock, hdrop, del_run]
      · rw [Function.update_of_ne (Ne.symm (operationKey_ne sessionId)), hapart₂, hapart₁]
      · intro k
        constructor
        · intro hk
          refine ⟨op, hop, huser, ?_⟩
          rcases hk with (((hk | hk) | hk) | hk) | hk
          · exact hk.elim
          · exact .inr (.inr (.inl ⟨hk.1, by rw [hk.1]; exact hk.2⟩))
          · exact .inr (.inr (.inr ⟨hk.1, by rw [hk.1]; exact hk.2⟩))
          · exact .inr (.inl hk)
          · exact .inl hk
        · rintro ⟨op', hop', -, hk⟩
          rw [hop'.unique hop] at hk
          rcases hk with hk | hk | hk | hk
          · exact .inr hk
          · exact .inl (.inr hk)
          · exact .inl (.inl (.inl (.inr ⟨hk.1, hk.1 ▸ hk.2⟩)))
          · exact .inl (.inl (.inr ⟨hk.1, hk.1 ▸ hk.2⟩))
    · rw [if_neg huser]
      refine ⟨s, rfl, rfl, Cleared.refl.congr ?_⟩
      intro k
      constructor
      · exact False.elim
      · rintro ⟨op', hop', huser', -⟩
        rw [hop'.unique hop] at huser'
        exact huser huser'

/-- What the record of an attempt names. -/
def AttemptKeys (s : Store) (t : TrackedAttempt) (k : String) : Prop :=
  k = "attempt:" ++ t.attemptId ∨
    k = "active_attempt:" ++ t.httpSessionId ∧ s k = some (.string t.attemptId)

/-- Attempts with the same record are the same. -/
theorem Tracked.unique {t t' : TrackedAttempt} (h : Tracked s sessionId t)
    (h' : Tracked s sessionId t') (hvalue : trackedValue t = trackedValue t') : t = t' := by
  have hfields : trackedFields t = trackedFields t' := by
    rw [← fields_trackedValue h.2.2, ← fields_trackedValue h'.2.2, hvalue]
  have hsession : t.sessionId = t'.sessionId := by rw [h.2.1, h'.2.1]
  cases t
  cases t'
  simp only [trackedFields, List.cons.injEq] at hfields
  simp_all

variable (userId) in
/-- One turn of the loop. -/
theorem cleanTracked_cons {t : TrackedAttempt} (rest : List String) (h : StateOf s sessionId)
    (ht : Tracked s sessionId t) (hcleared : Cleared s (attemptStateKey sessionId) P s')
    (hset : IsSet (s' (attemptStateKey sessionId))) :
    ∃ s'', cleanTracked (attemptStateKey sessionId) userId (trackedValue t :: rest) s' =
        cleanTracked (attemptStateKey sessionId) userId rest s'' ∧
      IsSet (s'' (attemptStateKey sessionId)) ∧
      (∀ x, x ∈ members (s'' (attemptStateKey sessionId)) ↔
        x ∈ members (s' (attemptStateKey sessionId)) ∧
          ¬ (x = trackedValue t ∧ t.userId = userId)) ∧
      Cleared s (attemptStateKey sessionId)
        (fun k => P k ∨ t.userId = userId ∧ AttemptKeys s t k) s'' := by
  have hfields : fields (trackedValue t) = trackedFields t := fields_trackedValue ht.2.2
  rw [cleanTracked]
  simp only [hfields, trackedFields, List.getElem?_cons_zero, List.getElem?_cons_succ,
    Option.some.injEq]
  by_cases huser : t.userId = userId
  · rw [if_pos huser]
    obtain ⟨s₁, hdrop, hapart, hcleared₁⟩ :=
      dropAttempt_run (do
          srem (attemptStateKey sessionId) (trackedValue t)
          cleanTracked (attemptStateKey sessionId) userId rest) hcleared
        (active_ne t.httpSessionId) (attempt_ne t.attemptId) (h.active t.httpSessionId)
    rw [← hapart] at hset
    obtain ⟨s₂, hsrem, hother, hset₂, hmembers⟩ := srem_run hset (trackedValue t)
    refine ⟨s₂, ?_, hset₂, ?_, (hcleared₁.change hother).congr ?_⟩
    · exact hdrop.trans (bind_run hsrem)
    · intro x
      rw [hmembers, hapart]
      simp [huser]
    · intro k
      constructor
      · rintro ((hk | hk) | hk)
        · exact .inl hk
        · exact .inr ⟨huser, .inr ⟨hk.1, by rw [hk.1]; exact hk.2⟩⟩
        · exact .inr ⟨huser, .inl hk⟩
      · rintro (hk | ⟨-, hk | hk⟩)
        · exact .inl (.inl hk)
        · exact .inr hk
        · exact .inl (.inr ⟨hk.1, hk.1 ▸ hk.2⟩)
  · rw [if_neg huser]
    refine ⟨s', rfl, hset, ?_, hcleared.congr ?_⟩
    · intro x
      simp [huser]
    · intro k
      simp [huser]

variable (userId) in
/-- The loop removes the entries of the user with what they name. -/
theorem cleanTracked_run (h : StateOf s sessionId) (entries : List String)
    (hentries : ∀ x ∈ entries, ∃ t, x = trackedValue t ∧ Tracked s sessionId t) :
    ∀ {P : String → Prop} {s' : Store}, Cleared s (attemptStateKey sessionId) P s' →
      IsSet (s' (attemptStateKey sessionId)) →
    ∃ s'', cleanTracked (attemptStateKey sessionId) userId entries s' = (some (), s'') ∧
      IsSet (s'' (attemptStateKey sessionId)) ∧
      (∀ x, x ∈ members (s'' (attemptStateKey sessionId)) ↔
        x ∈ members (s' (attemptStateKey sessionId)) ∧
          ¬ ∃ t, x = trackedValue t ∧ trackedValue t ∈ entries ∧ Tracked s sessionId t ∧
            t.userId = userId) ∧
      Cleared s (attemptStateKey sessionId)
        (fun k => P k ∨ ∃ t, trackedValue t ∈ entries ∧ Tracked s sessionId t ∧
          t.userId = userId ∧ AttemptKeys s t k) s'' := by
  induction entries with
  | nil =>
    intro P s' hcleared hset
    refine ⟨s', rfl, hset, ?_, hcleared.congr ?_⟩
    · simp
    · simp
  | cons x rest ih =>
    intro P s' hcleared hset
    obtain ⟨t, rfl, ht⟩ := hentries x (List.mem_cons_self ..)
    obtain ⟨s₁, hturn, hset₁, hmembers₁, hcleared₁⟩ :=
      cleanTracked_cons userId rest h ht hcleared hset
    obtain ⟨s₂, hrun, hset₂, hmembers₂, hcleared₂⟩ :=
      ih (fun y hy => hentries y (List.mem_cons_of_mem _ hy)) hcleared₁ hset₁
    refine ⟨s₂, by rw [hturn, hrun], hset₂, ?_, hcleared₂.congr ?_⟩
    · intro y
      rw [hmembers₂, hmembers₁, and_assoc]
      refine and_congr_right fun _ => ?_
      constructor
      · rintro ⟨hfirst, hrest⟩ ⟨t', rfl, hmem, ht', huser⟩
        rcases List.mem_cons.mp hmem with heq | hmem
        · rw [ht'.unique ht heq] at huser
          exact hfirst ⟨heq, huser⟩
        · exact hrest ⟨t', rfl, hmem, ht', huser⟩
      · intro hnone
        refine ⟨?_, ?_⟩
        · rintro ⟨rfl, huser⟩
          exact hnone ⟨t, rfl, List.mem_cons_self .., ht, huser⟩
        · rintro ⟨t', rfl, hmem, ht', huser⟩
          exact hnone ⟨t', rfl, List.mem_cons_of_mem _ hmem, ht', huser⟩
    · intro k
      constructor
      · rintro ((hk | ⟨huser, hk⟩) | ⟨t', hmem, ht', huser, hk⟩)
        · exact .inl hk
        · exact .inr ⟨t, List.mem_cons_self .., ht, huser, hk⟩
        · exact .inr ⟨t', List.mem_cons_of_mem _ hmem, ht', huser, hk⟩
      · rintro (hk | ⟨t', hmem, ht', huser, hk⟩)
        · exact .inl (.inl hk)
        · rcases List.mem_cons.mp hmem with heq | hmem
          · rw [ht'.unique ht heq] at huser hk
            exact .inl (.inr ⟨huser, hk⟩)
          · exact .inr ⟨t', hmem, ht', huser, hk⟩

/-- The keys that are removed are those that the records of the user name. -/
theorem removed_iff {k : String} : Removed s sessionId userId k ↔
    (∃ op, Recorded s sessionId op ∧ op.userId = userId ∧ OperationKeys s sessionId op k) ∨
      ∃ t, Tracked s sessionId t ∧ t.userId = userId ∧ AttemptKeys s t k := by
  constructor
  · intro h
    cases h with
    | operation h hu => exact .inl ⟨_, h, hu, .inl rfl⟩
    | operationAttempt h hu => exact .inl ⟨_, h, hu, .inr (.inl rfl)⟩
    | lock h hu hlock => exact .inl ⟨_, h, hu, .inr (.inr (.inl ⟨rfl, hlock⟩))⟩
    | operationActive h hu hactive => exact .inl ⟨_, h, hu, .inr (.inr (.inr ⟨rfl, hactive⟩))⟩
    | attempt h hu => exact .inr ⟨_, h, hu, .inl rfl⟩
    | active h hu hactive => exact .inr ⟨_, h, hu, .inr ⟨rfl, hactive⟩⟩
  · rintro (⟨op, h, hu, hk⟩ | ⟨t, h, hu, hk⟩)
    · rcases hk with rfl | rfl | ⟨rfl, hlock⟩ | ⟨rfl, hactive⟩
      · exact .operation h hu
      · exact .operationAttempt h hu
      · exact .lock h hu hlock
      · exact .operationActive h hu hactive
    · rcases hk with rfl | ⟨rfl, hactive⟩
      · exact .attempt h hu
      · exact .active h hu hactive

theorem Removed.ne_attemptStateKey {k : String} (h : Removed s sessionId userId k) :
    k ≠ attemptStateKey sessionId := by
  cases h with
  | operation => exact operationKey_ne sessionId
  | operationAttempt => exact attempt_ne _
  | lock => exact lock_ne _
  | operationActive => exact active_ne _
  | attempt => exact attempt_ne _
  | active => exact active_ne _

end Run

/-- The script does nothing once the marker is gone or another one is in its place. -/
theorem cleanup_unchanged {s : Store} {marker : CancellationMarker}
    (h : StateOf s marker.sessionId)
    (hmarker : s (cancellationKey marker.sessionId) ≠ some (.string marker.redisValue)) :
    cleanupCancelledSessionState marker s = (some false, s) := by
  rcases h.marker with hnone | ⟨text, hsome⟩
  · rw [cleanupCancelledSessionState, bind_run (a := 0) (t := s)]
    · rfl
    · rw [cleanCancelledState, bind_run (get_run_none hnone), if_pos (by simp)]
      rfl
  · have hne : text ≠ marker.redisValue := by
      intro heq
      rw [hsome, heq] at hmarker
      exact hmarker rfl
    rw [cleanupCancelledSessionState, bind_run (a := 0) (t := s)]
    · rfl
    · rw [cleanCancelledState, bind_run (get_run_string hsome), if_pos (by simpa using hne)]
      rfl

/-- What the script does while the marker is there. -/
theorem cleanup_cleans {s : Store} {marker : CancellationMarker}
    (h : StateOf s marker.sessionId)
    (hmarker : s (cancellationKey marker.sessionId) = some (.string marker.redisValue)) :
    ∃ s', cleanupCancelledSessionState marker s = (some true, s') ∧
      Cleared s (attemptStateKey marker.sessionId) (Removed s marker.sessionId marker.userId) s' ∧
      IsSet (s' (attemptStateKey marker.sessionId)) ∧
      ∀ x, x ∈ members (s' (attemptStateKey marker.sessionId)) ↔
        x ∈ members (s (attemptStateKey marker.sessionId)) ∧
          ¬ ∃ t, x = trackedValue t ∧ Tracked s marker.sessionId t ∧
            t.userId = marker.userId := by
  obtain ⟨s₁, hrun₁, hapart₁, hcleared₁⟩ := cleanOperation_run marker.userId h
  have hset₁ : IsSet (s₁ (attemptStateKey marker.sessionId)) := by
    rw [hapart₁]
    exact h.attempts
  obtain ⟨s₂, hrun₂, hset₂, hmembers₂, hcleared₂⟩ :=
    cleanTracked_run marker.userId h _ h.tracked hcleared₁ hset₁
  have hremoved : Cleared s (attemptStateKey marker.sessionId)
      (Removed s marker.sessionId marker.userId) s₂ := by
    refine hcleared₂.congr fun k => ?_
    rw [removed_iff]
    refine or_congr_right ?_
    constructor
    · rintro ⟨t, -, ht⟩
      exact ⟨t, ht⟩
    · rintro ⟨t, ht⟩
      exact ⟨t, ht.1.1, ht⟩
  have hmembers : ∀ x, x ∈ members (s₂ (attemptStateKey marker.sessionId)) ↔
      x ∈ members (s (attemptStateKey marker.sessionId)) ∧
        ¬ ∃ t, x = trackedValue t ∧ Tracked s marker.sessionId t ∧
          t.userId = marker.userId := by
    intro x
    rw [hmembers₂, hapart₁]
    refine and_congr_right fun _ => not_congr ?_
    constructor
    · rintro ⟨t, hx, -, ht⟩
      exact ⟨t, hx, ht⟩
    · rintro ⟨t, hx, ht⟩
      exact ⟨t, hx, ht.1.1, ht⟩
  have hstart : cleanCancelledState (cancellationKey marker.sessionId)
      (operationKey marker.sessionId) (attemptStateKey marker.sessionId) marker.redisValue
      marker.userId s = (do
        let left ← scard (attemptStateKey marker.sessionId)
        if left = 0 then del (attemptStateKey marker.sessionId) else pure ()
        pure 1 : Script Nat) s₂ := by
    rw [cleanCancelledState, bind_run (get_run_string hmarker), if_neg (by simp), bind_run hrun₁,
      bind_run (smembers_run hset₁), hapart₁, bind_run hrun₂]
  by_cases hleft : (members (s₂ (attemptStateKey marker.sessionId))).length = 0
  · -- the last member took the key with it, and deleting it again changes nothing
    have hsame : Function.update s₂ (attemptStateKey marker.sessionId) none = s₂ := by
      rw [← eq_none_of_members hset₂ (List.length_eq_zero_iff.mp hleft), Function.update_eq_self]
    refine ⟨s₂, ?_, hremoved, hset₂, hmembers⟩
    rw [cleanupCancelledSessionState, bind_run (a := 1) (t := s₂)]
    · rfl
    · rw [hstart, bind_run (scard_run hset₂), if_pos hleft, bind_run del_run, hsame]
      rfl
  · refine ⟨s₂, ?_, hremoved, hset₂, hmembers⟩
    rw [cleanupCancelledSessionState, bind_run (a := 1) (t := s₂)]
    · rfl
    · rw [hstart, bind_run (scard_run hset₂), if_neg hleft]
      rfl

/-- **The cleanup is exact.**  While the marker is there, the keys that the user's records name
are removed, the entries of other users stay in the set, and every other key is as it was;
otherwise nothing changes.  The records are taken apart into the ids they were made of. -/
theorem cleanup_exact {s : Store} {marker : CancellationMarker}
    (h : StateOf s marker.sessionId) :
    (s (cancellationKey marker.sessionId) ≠ some (.string marker.redisValue) →
      cleanupCancelledSessionState marker s = (some false, s)) ∧
    (s (cancellationKey marker.sessionId) = some (.string marker.redisValue) →
      ∃ s', cleanupCancelledSessionState marker s = (some true, s') ∧
        (∀ k, Removed s marker.sessionId marker.userId k → s' k = none) ∧
        (∀ k, k ≠ attemptStateKey marker.sessionId →
          ¬ Removed s marker.sessionId marker.userId k → s' k = s k) ∧
        (∀ x, x ∈ members (s' (attemptStateKey marker.sessionId)) ↔
          x ∈ members (s (attemptStateKey marker.sessionId)) ∧
            ¬ ∃ t, x = trackedValue t ∧ Tracked s marker.sessionId t ∧
              t.userId = marker.userId) ∧
        (s' (attemptStateKey marker.sessionId) = none ↔
          ∀ t, Tracked s marker.sessionId t → t.userId = marker.userId)) ∧
    (∀ op, (∀ part ∈ operationFields op, IsIdentifier part) →
      fields (operationValue op) = operationFields op) ∧
    ∀ t, (∀ part ∈ trackedFields t, IsIdentifier part) →
      fields (trackedValue t) = trackedFields t := by
  refine ⟨cleanup_unchanged h, ?_, fun op => fields_operationValue, fun t => fields_trackedValue⟩
  intro hmarker
  obtain ⟨s', hrun, hcleared, hset, hmembers⟩ := cleanup_cleans h hmarker
  refine ⟨s', hrun, fun k hk => hcleared.removed k hk.ne_attemptStateKey hk, hcleared.kept,
    hmembers, ?_⟩
  constructor
  · intro hnone t ht
    by_contra huser
    have hmem : trackedValue t ∈ members (s' (attemptStateKey marker.sessionId)) := by
      rw [hmembers]
      refine ⟨ht.1, ?_⟩
      rintro ⟨t', hvalue, ht', huser'⟩
      rw [ht'.unique ht hvalue.symm] at huser'
      exact huser huser'
    rw [hnone] at hmem
    cases hmem
  · intro hall
    refine eq_none_of_members hset (List.eq_nil_iff_forall_not_mem.mpr fun x hx => ?_)
    obtain ⟨hx, hother⟩ := (hmembers x).mp hx
    obtain ⟨t, rfl, ht⟩ := h.tracked x hx
    exact hother ⟨t, rfl, ht, hall t ht⟩

/-- A store with a set at one key and strings at others. -/
def storeOf (strings : List (String × String)) (key : String) (m : Members) : Store := fun k =>
  if k = key then some (.set m) else (strings.lookup k).map .string

theorem isString_storeOf {strings : List (String × String)} {key k : String} {m : Members}
    (hk : k ≠ key) : IsString (storeOf strings key m k) := by
  rw [storeOf, if_neg hk]
  cases strings.lookup k with
  | none => exact .inl rfl
  | some text => exact .inr ⟨text, rfl⟩

/-- A query of Ann runs in a chat session that is being deleted, and an attempt of Bob is
tracked there. -/
def cancelledStore : Store :=
  storeOf [("session_cancelled:chat", "ann:m1"), ("session_operation:chat", "ann|web|a1|o1|t1"),
    ("attempt:a1", "a"), ("attempt:a2", "b"), ("active_attempt:web", "a1"),
    ("processing_lock:web", "o1")] (attemptStateKey "chat")
    ⟨["ann|web|a1", "bob|tab|a2"], by decide, by decide⟩

theorem recorded_cancelledStore :
    Recorded cancelledStore "chat" ⟨"chat", "ann", "web", "a1", "o1", "t1"⟩ :=
  ⟨rfl, rfl, by simp [operationFields, IsIdentifier]⟩

theorem stateOf_cancelledStore : StateOf cancelledStore "chat" where
  marker := isString_storeOf (by decide)
  operation := .inr ⟨_, recorded_cancelledStore⟩
  attempts := .inr ⟨_, rfl⟩
  tracked := by
    intro x hx
    have hx' : x ∈ ["ann|web|a1", "bob|tab|a2"] := hx
    rcases List.mem_cons.mp hx' with rfl | hx'
    · exact ⟨⟨"chat", "ann", "web", "a1"⟩, by decide, hx, rfl, by
        simp [trackedFields, IsIdentifier]⟩
    · rw [List.mem_singleton] at hx'
      subst hx'
      exact ⟨⟨"chat", "bob", "tab", "a2"⟩, by decide, hx, rfl, by
        simp [trackedFields, IsIdentifier]⟩
  locks http := isString_storeOf (lock_ne http)
  active http := isString_storeOf (active_ne http)

theorem cleanup_exact_cancelledStore : StateOf cancelledStore "chat" ∧
    ∃ s', cleanupCancelledSessionState ⟨"chat", "ann", "m1"⟩ cancelledStore = (some true, s') ∧
      s' (operationKey "chat") = none := by
  refine ⟨stateOf_cancelledStore, ?_⟩
  obtain ⟨-, hcleans, -⟩ := @cleanup_exact _ ⟨"chat", "ann", "m1"⟩ stateOf_cancelledStore
  obtain ⟨s', hrun, hremoved, -⟩ := hcleans rfl
  exact ⟨s', hrun, hremoved _ (.operation recorded_cancelledStore rfl)⟩

end QueryCraft
