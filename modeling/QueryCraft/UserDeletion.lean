import QueryCraft.AuditTamper

/-! # Deleting a user

`UserRepository.delete` removes the row of a user, and the foreign key of
`audit_log_entries.actor_id` sets the actor of every entry of the user to `NULL`.  The actor
is part of what the row hash covers, so an entry that named the user no longer carries the
hash of its payload.  `delete_accepts_iff` says that the chain survives a deletion exactly
when none of the entries that `verify_chain` reads names the user.

The guard on the ORM class refuses every update of an entry, but the referential action
takes place in the database, where the guard is not asked.
-/
namespace QueryCraft

/-- What `UserRepository.delete` reads of a row of `users`. -/
structure UserAccount where
  id : String
  isBuiltin : Bool
deriving DecidableEq, Repr

/-- `BuiltinProtectedError`. -/
structure BuiltinProtectedError where
  resourceType : String
  resourceId : String
deriving DecidableEq, Repr

/-- `ON DELETE SET NULL` on one entry. -/
def AuditLogEntry.clearActor (user : String) (e : AuditLogEntry) : AuditLogEntry :=
  if e.actorId = some user then { e with actorId := none } else e

section Entry
variable {user : String} {e : AuditLogEntry}

theorem AuditLogEntry.clearActor_of_ne (h : e.actorId ≠ some user) : e.clearActor user = e :=
  if_neg h

theorem AuditLogEntry.clearActor_of_eq (h : e.actorId = some user) :
    e.clearActor user = { e with actorId := none } :=
  if_pos h

/-- Everything but the actor stays. -/
@[simp] theorem AuditLogEntry.clearActor_sequenceNumber :
    (e.clearActor user).sequenceNumber = e.sequenceNumber := by
  unfold clearActor
  split <;> rfl

@[simp] theorem AuditLogEntry.clearActor_prevHash : (e.clearActor user).prevHash = e.prevHash := by
  unfold clearActor
  split <;> rfl

@[simp] theorem AuditLogEntry.clearActor_rowHash : (e.clearActor user).rowHash = e.rowHash := by
  unfold clearActor
  split <;> rfl

@[simp] theorem AuditLogEntry.clearActor_isPurge : (e.clearActor user).isPurge = e.isPurge := by
  unfold clearActor
  split <;> rfl

@[simp] theorem AuditLogEntry.clearActor_firstSurvivingSeq :
    (e.clearActor user).firstSurvivingSeq = e.firstSurvivingSeq := by
  unfold clearActor
  split <;> rfl

end Entry

namespace AuditTable

/-- `ON DELETE SET NULL` on the table. -/
def clearActor (T : AuditTable) (user : String) : AuditTable where
  rows := T.rows.map (·.clearActor user)
  ascending := by
    rw [List.pairwise_map]
    simpa using T.ascending

/-- `UserRepository.delete`: whether there was such a user, the users that are left, and the
audit table after the foreign key's action. -/
def deleteUser (users : List UserAccount) (T : AuditTable) (userId : String) :
    Except BuiltinProtectedError (Bool × List UserAccount × AuditTable) :=
  match users.find? (·.id == userId) with
  | none => .ok (false, users, T)
  | some user =>
    if user.isBuiltin then .error ⟨"user", userId⟩
    else .ok (true, users.filter (·.id != userId), T.clearActor userId)

variable {env : AuditEnv} {T : AuditTable} {user : String}

theorem clearActor_of_deleteUser {users users' : List UserAccount} {T' : AuditTable}
    (h : deleteUser users T user = .ok (true, users', T')) : T' = T.clearActor user := by
  rw [deleteUser] at h
  split at h
  · cases h
  · split at h
    · cases h
    · cases h
      rfl

/-! ## What the walk reads -/

@[simp] theorem clearActor_rows : (T.clearActor user).rows = T.rows.map (·.clearActor user) := rfl

theorem upper_clearActor : (T.clearActor user).upper = T.upper := by
  simp [upper, lastSequence?, Option.map_map, Function.comp_def]

theorem visited_clearActor :
    (T.clearActor user).visited = T.visited.map (·.clearActor user) := by
  simp [visited, positive, List.filter_map, Function.comp_def]

theorem purgeRows_clearActor (u : Int) :
    (T.clearActor user).purgeRows u = (T.purgeRows u).map (·.clearActor user) := by
  simp [purgeRows, List.filter_map, Function.comp_def]

theorem rowAt?_clearActor (n : Int) :
    (T.clearActor user).rowAt? n = (T.rowAt? n).map (·.clearActor user) := by
  show (T.rows.map (·.clearActor user)).find? (·.sequenceNumber == n) = _
  rw [List.find?_map]
  refine congrArg _ (congrFun (congrArg List.find? (funext fun row => ?_)) T.rows)
  exact congrArg (· == n) row.clearActor_sequenceNumber

theorem markerPredecessorLinkIsValid_clearActor (marker : AuditLogEntry) :
    (T.clearActor user).markerPredecessorLinkIsValid (marker.clearActor user) =
      T.markerPredecessorLinkIsValid marker := by
  rw [markerPredecessorLinkIsValid, markerPredecessorLinkIsValid, rowAt?_clearActor]
  cases h : T.rowAt? (marker.sequenceNumber - 1) with
  | none => simp [h]
  | some row => simp [h]

theorem purgeMarkerForGap_clearActor (n u : Int) :
    (T.clearActor user).purgeMarkerForGap n u =
      (T.purgeMarkerForGap n u).map (Option.map (·.clearActor user)) := by
  rw [purgeMarkerForGap, purgeMarkerForGap, purgeRows_clearActor]
  simp only [List.any_map, Function.comp_def, AuditLogEntry.clearActor_firstSurvivingSeq]
  split
  · rfl
  · simp [List.filter_map, Function.comp_def, Except.map]

/-- No entry that the walk reads names the user. -/
def ReadsNoActor (T : AuditTable) (user : String) : Prop :=
  ∀ e ∈ T.rows, 0 < e.sequenceNumber → e.actorId ≠ some user

/-- A marker that counts has a positive number too, so it is among the entries read. -/
theorem markerMatchesGap_clearActor (hreads : T.ReadsNoActor user) {entry marker : AuditLogEntry}
    (hmarker : marker ∈ T.rows) (hpos : 0 < entry.sequenceNumber) :
    markerMatchesGap env entry (marker.clearActor user) = markerMatchesGap env entry marker := by
  by_cases hactor : marker.actorId = some user
  · have hnot : ¬ entry.sequenceNumber < marker.sequenceNumber := by
      intro hlt
      exact hreads marker hmarker (by omega) hactor
    simp [markerMatchesGap, hnot]
  · rw [AuditLogEntry.clearActor_of_ne hactor]

theorem purgeMarkerCoversGap_clearActor (hreads : T.ReadsNoActor user) {entry : AuditLogEntry}
    (hpos : 0 < entry.sequenceNumber) (u : Int) :
    (T.clearActor user).purgeMarkerCoversGap env entry u = T.purgeMarkerCoversGap env entry u := by
  rw [purgeMarkerCoversGap, purgeMarkerCoversGap, purgeMarkerForGap_clearActor]
  cases hgap : T.purgeMarkerForGap entry.sequenceNumber u with
  | error err => rfl
  | ok marker? =>
    cases marker? with
    | none => rfl
    | some marker =>
      have hmarker : marker ∈ T.rows := by
        rw [purgeMarkerForGap] at hgap
        split at hgap
        · cases hgap
        · have hlast := List.mem_of_getLast? (Except.ok.inj hgap)
          exact List.mem_of_mem_filter (List.mem_of_mem_filter hlast)
      simp only [Except.map, Option.map_some, Option.any_some,
        markerMatchesGap_clearActor hreads hmarker hpos, markerPredecessorLinkIsValid_clearActor]

theorem verifyEntry_clearActor (hreads : T.ReadsNoActor user) {entry : AuditLogEntry}
    (hpos : 0 < entry.sequenceNumber) (u : Int) (prevHash : String) :
    (T.clearActor user).verifyEntry env u prevHash entry = T.verifyEntry env u prevHash entry := by
  rw [verifyEntry, verifyEntry, purgeMarkerCoversGap_clearActor hreads hpos]

theorem visited_clearActor_of_reads (hreads : T.ReadsNoActor user) :
    (T.clearActor user).visited = T.visited := by
  rw [visited_clearActor]
  have hid : ∀ e ∈ T.visited, e.clearActor user = e := by
    intro e he
    obtain ⟨hrow, hpos⟩ := mem_positive.mp he
    exact AuditLogEntry.clearActor_of_ne (hreads e hrow hpos)
  rw [List.map_congr_left hid, List.map_id']

/-- A table whose readable entries do not name the user is walked as before. -/
theorem accepts_clearActor (hreads : T.ReadsNoActor user) (hacc : T.Accepts env) :
    (T.clearActor user).Accepts env := by
  rw [accepts_iff] at hacc ⊢
  rw [visited_clearActor_of_reads hreads, upper_clearActor]
  refine hacc.imp fun prevHash e he hok => ?_
  rw [verifyEntry_clearActor hreads (mem_positive.mp he).2]
  exact hok

/-- An entry that the walk reads and that named the user no longer has its hash. -/
theorem readsNoActor_of_accepts
    (hactor : ∀ p p' h, env.computeRowHash p h = env.computeRowHash p' h → p.actorId = p'.actorId)
    (hacc : T.Accepts env) (hacc' : (T.clearActor user).Accepts env) : T.ReadsNoActor user := by
  intro e he hpos hnamed
  have hcleared : e.clearActor user ∈ (T.clearActor user).rows := List.mem_map_of_mem he
  have hvalid := Accepts.hashValid hacc he hpos
  have hvalid' := Accepts.hashValid hacc' hcleared (by simpa using hpos)
  rw [AuditLogEntry.clearActor_rowHash, AuditLogEntry.clearActor_prevHash, hvalid] at hvalid'
  have hsame := hactor _ _ _ hvalid'
  rw [AuditLogEntry.clearActor_of_eq hnamed, hnamed] at hsame
  cases hsame

/-- **Deleting a user.**  Where payloads with different actors hash differently, an accepted table
is still accepted once a user is deleted, if and only if no entry with a positive number names the
user as its actor. -/
theorem delete_accepts_iff
    (hactor : ∀ p p' h, env.computeRowHash p h = env.computeRowHash p' h → p.actorId = p'.actorId)
    {users users' : List UserAccount} {T' : AuditTable} (hacc : T.Accepts env)
    (hdelete : deleteUser users T user = .ok (true, users', T')) :
    T'.Accepts env ↔ ∀ e ∈ T.rows, 0 < e.sequenceNumber → e.actorId ≠ some user := by
  obtain rfl := clearActor_of_deleteUser hdelete
  constructor
  · exact readsNoActor_of_accepts hactor hacc
  · intro hreads
    exact accepts_clearActor hreads hacc

/-! ## A user with one entry -/

/-- A table with one entry, of the given actor. -/
def loginTable (env : AuditEnv) (actor : String) : AuditTable where
  rows :=
    let payload : Payload :=
      ⟨1, januaryNoon 1, some actor, some "ann", AuditActionType.authLoginSuccess.value, none, none,
        "success", .obj []⟩
    [{ payload with prevHash := genesis, rowHash := env.computeRowHash payload genesis }]
  ascending := by simp

theorem loginTable_accepts (env : AuditEnv) (actor : String) :
    (loginTable env actor).Accepts env := by
  rw [accepts_iff]
  exact ⟨(verifyEntry_iff ..).mpr ⟨hashValid_of_eq env rfl, .inl rfl⟩, trivial⟩

/-- The deletion of another user. -/
theorem delete_other_accepts :
    (loginTable spelledHash "u1").Accepts spelledHash ∧
      ((loginTable spelledHash "u1").clearActor "u2").Accepts spelledHash := by
  have hacc := loginTable_accepts spelledHash "u1"
  have hdelete : deleteUser [⟨"u2", false⟩] (loginTable spelledHash "u1") "u2" =
      .ok (true, [], (loginTable spelledHash "u1").clearActor "u2") := rfl
  refine ⟨hacc, (delete_accepts_iff (fun _ _ _ heq =>
    computeRowHash_actorId sha256_spelledHash_injective heq) hacc hdelete).mpr ?_⟩
  intro e he _
  obtain rfl := List.mem_singleton.mp he
  decide

/-- The deletion of the user who has logged in breaks the chain. -/
theorem delete_actor_not_accepted :
    ¬ ∀ env : AuditEnv,
      (∀ p p' h, env.computeRowHash p h = env.computeRowHash p' h → p.actorId = p'.actorId) →
      ∀ (users users' : List UserAccount) (T T' : AuditTable) (user : String), T.Accepts env →
        deleteUser users T user = .ok (true, users', T') → T'.Accepts env := by
  intro h
  have hactor : ∀ p p' link, spelledHash.computeRowHash p link =
      spelledHash.computeRowHash p' link → p.actorId = p'.actorId :=
    fun _ _ _ heq => computeRowHash_actorId sha256_spelledHash_injective heq
  have hacc := loginTable_accepts spelledHash "u1"
  have hacc' := h spelledHash hactor [⟨"u1", false⟩] [] _ _ "u1" hacc rfl
  have hreads := readsNoActor_of_accepts hactor hacc hacc'
  exact hreads _ (List.mem_singleton_self _) (by decide) rfl

end AuditTable
end QueryCraft
