import Mathlib.Order.Nat
import QueryCraft.QuotaConfig

/-! # Administrative changes of a quota

`upsert_quota` and `delete_quota` change the quota of a role that exists.  A request
begins a transition, locks the role's row, reads the quota, makes sure that the marker
in Redis is its own (`_own_transition_after_reconciliation`), writes and commits, which
releases the lock, and publishes what it has committed.  If the commit fails, the
request locks the role again and publishes what it then reads
(`_republish_after_rollback`).

Any number of requests run at once, for one role.  Every Redis script or command and
every database statement is one step, which may fail; and a request may stop at any
point, which rolls back what it has not committed and releases the lock.

Only the owner of a marker commits, and it holds the lock while it does.  So a marker
that is still there when its owner publishes has not been superseded, and a marker that
somebody else removes is removed under the lock, together with a publication of the
committed quota (`published_eq_config`).

The cache is filled by publications only here; readers fill it too, which is
the subject of `QuotaConfig`.
-/
namespace QueryCraft

/-! ## Requests -/

/-- `_QUOTA_LIMIT_FIELDS`. -/
inductive LimitField where
  | dailyQueryLimit | dailyExecutionLimit | dailyExportLimit
deriving DecidableEq, Repr

/-- A limit of a row. -/
def RoleQuota.limit (quota : RoleQuota) : LimitField → Option Int
  | .dailyQueryLimit => quota.dailyQueryLimit
  | .dailyExecutionLimit => quota.dailyExecutionLimit
  | .dailyExportLimit => quota.dailyExportLimit

/-- `RoleQuotaUpsert`: the fields that the request sets.  A field that it does not set
has the default `None`. -/
abbrev RoleQuotaUpsert := LimitField → Option (Option Int)

/-- `_changed_quota_fields`. -/
def changedQuotaFields (quota : Option RoleQuota) (data : RoleQuotaUpsert) : List LimitField :=
  [.dailyQueryLimit, .dailyExecutionLimit, .dailyExportLimit].filter fun field =>
    match data field with
    | none => false
    | some value => quota.all fun q => q.limit field ≠ value

/-- `QuotaRepository.upsert`. -/
def RoleQuota.upsert (existing : Option RoleQuota) (data : RoleQuotaUpsert) : RoleQuota :=
  let value (field : LimitField) := (data field).getD (existing.bind (·.limit field))
  ⟨value .dailyQueryLimit, value .dailyExecutionLimit, value .dailyExportLimit⟩

/-- What a request asks for. -/
inductive QuotaMutation where
  | upsert (data : RoleQuotaUpsert)
  | delete

/-- `QuotaConfigTransition`. -/
structure ConfigTransition where
  marker : TransitionMarker
  created : Bool
deriving DecidableEq, Repr

/-- What a request answers. -/
inductive AdminResponse where
  | config (quota : RoleQuota)
  | noContent
  | notFound
  /-- `_quota_unavailable`. -/
  | unavailable
  /-- `_quota_sync_pending`. -/
  | syncPending
  /-- The `SQLAlchemyError` is raised again. -/
  | databaseError
deriving DecidableEq, Repr

/-- The error of a publication that fails. -/
def pendingError (mutationApplied : Bool) : AdminResponse :=
  if mutationApplied then .syncPending else .unavailable

/-- The `mutation_applied` that a request passes to the reconciliation. -/
def QuotaMutation.applied (existing : Option RoleQuota) (wasPending : Bool) :
    QuotaMutation → Bool
  | .upsert data => existing.isSome && (changedQuotaFields existing data).isEmpty
  | .delete => wasPending && existing.isNone

/-- Where a request stands, by its next step.  `applied` is its `mutation_applied`,
`attempts` the number of attempts left after this one. -/
inductive AdminRequest where
  | idle
  | beginTransition (mutation : QuotaMutation)
  | lockRole (mutation : QuotaMutation) (transition : ConfigTransition)
  | readQuota (mutation : QuotaMutation) (transition : ConfigTransition)
  /-- `_own_transition_after_reconciliation`, at the top of the loop. -/
  | reconcile (mutation : QuotaMutation) (existing : Option RoleQuota) (applied : Bool)
      (attempts : Nat) (transition : ConfigTransition)
  /-- The loop's own `_begin_quota_transition`, after a publication or without one. -/
  | restart (mutation : QuotaMutation) (existing : Option RoleQuota) (applied : Bool)
      (attempts : Nat) (published : Bool)
  /-- Nothing is to be changed. -/
  | publishExisting (existing : Option RoleQuota) (applied : Bool) (response : AdminResponse)
      (marker : TransitionMarker)
  | commit (quota : Option RoleQuota) (response : AdminResponse) (marker : TransitionMarker)
  | publish (quota : Option RoleQuota) (response : AdminResponse) (marker : TransitionMarker)
  /-- `_republish_after_rollback`, from its `_locked_role` on. -/
  | relockRole (marker : TransitionMarker)
  | rereadQuota (marker : TransitionMarker)
  | republish (quota : Option RoleQuota) (marker : TransitionMarker)
  /-- The response is decided; the transaction is still open. -/
  | close (response : AdminResponse)
  /-- Over; without a response, if the request was stopped. -/
  | ended (response : Option AdminResponse)

/-- What a request does once it owns the marker. -/
def QuotaMutation.proceed (existing : Option RoleQuota) (applied : Bool)
    (marker : TransitionMarker) : QuotaMutation → AdminRequest
  | .upsert data =>
    match existing with
    | some quota =>
      if (changedQuotaFields existing data).isEmpty then
        .publishExisting existing applied (.config quota) marker
      else
        let quota := RoleQuota.upsert existing data
        .commit (some quota) (.config quota) marker
    | none =>
      let quota := RoleQuota.upsert existing data
      .commit (some quota) (.config quota) marker
  | .delete =>
    match existing with
    | none => .publishExisting none applied (if applied then .noContent else .notFound) marker
    | some _ => .commit none .noContent marker

/-- `_TRANSITION_RECONCILIATION_RETRIES`. -/
def transitionReconciliationRetries : Nat := 3

/-! ## The system -/

/-- The role's keys in Redis, the committed quota, the request that holds the lock of
the role's row, the requests by number, and the quota of the last successful
publication. -/
structure QuotaAdministration where
  keys : RedisKeys
  config : Option RoleQuota
  lock : Option Nat
  requests : Nat → AdminRequest
  published : Option (Option RoleQuota)

/-- What can happen next. -/
inductive AdminAction where
  /-- The cache entry's time to live has passed. -/
  | expireCache
  | start (i : Nat) (mutation : QuotaMutation)
  /-- The next step of a request; the token is for a transition that it begins. -/
  | run (i : Nat) (token : String)
  /-- The next step of a request fails. -/
  | fail (i : Nat)
  | stop (i : Nat)

namespace QuotaAdministration

/-- A request moves on. -/
def setRequest (s : QuotaAdministration) (i : Nat) (x : AdminRequest) : QuotaAdministration :=
  { s with requests := Function.update s.requests i x }

/-- A transaction ends. -/
def releaseLock (s : QuotaAdministration) (i : Nat) : QuotaAdministration :=
  { s with lock := if s.lock = some i then none else s.lock }

/-- `_begin_quota_transition`. -/
def beginQuotaTransition (s : QuotaAdministration) (token : String) :
    QuotaAdministration × ConfigTransition :=
  let (keys, created, marker) := s.keys.beginConfigTransition token
  ({ s with keys := keys }, ⟨marker, created⟩)

/-- `_try_publish_quota_transition`.  `none` stands for the `ValueError` of
`from_record`, which ends the request. -/
def tryPublish (s : QuotaAdministration) (marker : TransitionMarker) (quota : Option RoleQuota) :
    Option (QuotaAdministration × Bool) :=
  (QuotaLimits.fromRecord quota).map fun limits =>
    match s.keys.publishConfigTransition marker ⟨limits, marker.revision⟩ with
    | (keys, true) => ({ s with keys := keys, published := some quota }, true)
    | (keys, false) => ({ s with keys := keys }, false)

/-- `_publish_quota_transition`: the publication and the response. -/
def publishStep (s : QuotaAdministration) (i : Nat) (marker : TransitionMarker)
    (quota : Option RoleQuota) (applied : Bool) (response : AdminResponse) :
    Option QuotaAdministration :=
  (s.tryPublish marker quota).map fun (s, published) =>
    s.setRequest i (.close (if published then response else pendingError applied))

/-- The next step of a request. -/
def requestStep (s : QuotaAdministration) (i : Nat) (token : String) :
    AdminRequest → Option QuotaAdministration
  | .idle => none
  | .beginTransition m =>
    let (s, transition) := s.beginQuotaTransition token
    some (s.setRequest i (.lockRole m transition))
  | .lockRole m transition =>
    if s.lock = none then
      some ({ s with lock := some i }.setRequest i (.readQuota m transition))
    else none
  | .readQuota m transition =>
    some (s.setRequest i (.reconcile m s.config (m.applied s.config (!transition.created))
      (transitionReconciliationRetries - 1) transition))
  | .reconcile m existing applied n transition =>
    if transition.created then
      -- `owns_config_transition`
      if s.keys.marker = some transition.marker then
        some (s.setRequest i (m.proceed existing applied transition.marker))
      else some (s.setRequest i (.restart m existing applied n false))
    else
      (s.tryPublish transition.marker existing).map fun (s, published) =>
        s.setRequest i (.restart m existing applied n published)
  | .restart m existing applied n published =>
    let (s, transition) := s.beginQuotaTransition token
    if published ∧ transition.created then
      some (s.setRequest i (m.proceed existing applied transition.marker))
    else
      match n with
      | 0 => some (s.setRequest i (.close (pendingError applied)))
      | n + 1 => some (s.setRequest i (.reconcile m existing applied n transition))
  | .publishExisting existing applied response marker =>
    s.publishStep i marker existing applied response
  | .commit quota response marker =>
    some (({ s with config := quota }.releaseLock i).setRequest i (.publish quota response marker))
  | .publish quota response marker => s.publishStep i marker quota true response
  | .relockRole marker =>
    if s.lock = none then some ({ s with lock := some i }.setRequest i (.rereadQuota marker))
    else none
  | .rereadQuota marker => some (s.setRequest i (.republish s.config marker))
  | .republish quota marker => s.publishStep i marker quota false .databaseError
  | .close response => some ((s.releaseLock i).setRequest i (.ended (some response)))
  | .ended _ => none

/-- The next step of a request fails: a Redis failure is answered, a failed commit is
rolled back. -/
def failStep (s : QuotaAdministration) (i : Nat) : AdminRequest → Option QuotaAdministration
  | .beginTransition _ => some (s.setRequest i (.close .unavailable))
  | .lockRole _ _ | .readQuota _ _ | .relockRole _ | .rereadQuota _ =>
    some (s.setRequest i (.close .databaseError))
  | .reconcile _ _ applied _ _ | .publishExisting _ applied _ _ =>
    some (s.setRequest i (.close (pendingError applied)))
  | .restart _ _ _ _ _ | .republish _ _ => some (s.setRequest i (.close .unavailable))
  | .commit _ _ marker => some ((s.releaseLock i).setRequest i (.relockRole marker))
  | .publish _ _ _ => some (s.setRequest i (.close .syncPending))
  | .idle | .close _ | .ended _ => none

/-- One step of the system. -/
def step (s : QuotaAdministration) : AdminAction → Option QuotaAdministration
  | .expireCache => some { s with keys := { s.keys with cache := none } }
  | .start i mutation =>
    match s.requests i with
    | .idle => some (s.setRequest i (.beginTransition mutation))
    | _ => none
  | .run i token => s.requestStep i token (s.requests i)
  | .fail i => s.failStep i (s.requests i)
  | .stop i => some ((s.releaseLock i).setRequest i (.ended none))

/-- No request and nothing cached or published; a marker may be left over. -/
structure Initial (s : QuotaAdministration) : Prop where
  cache : s.keys.cache = none
  marker : ∀ marker, s.keys.marker = some marker → marker.revision ≤ s.keys.revision
  lock : s.lock = none
  requests : ∀ i, s.requests i = .idle
  published : s.published = none

/-- The limits that are enforced; none while the marker is there, when every check is
refused.  A cached payload counts under the current revision. -/
def enforced (s : QuotaAdministration) : Option QuotaLimits :=
  if s.keys.marker.isSome then none
  else
    match s.keys.cache with
    | some payload =>
      if payload.revision = s.keys.revision then some payload.limits
      else QuotaLimits.fromRecord s.config
    | none => QuotaLimits.fromRecord s.config

/-! ## The invariant -/

/-- The marker that a request has created, as long as the request may rely on it. -/
def owned : AdminRequest → Option TransitionMarker
  | .lockRole _ transition | .readQuota _ transition | .reconcile _ _ _ _ transition =>
    if transition.created then some transition.marker else none
  | .publishExisting _ _ _ marker | .commit _ _ marker | .publish _ _ marker => some marker
  | _ => none

/-- What request `i` relies on where it stands. -/
def InOrder (s : QuotaAdministration) (i : Nat) : AdminRequest → Prop
  | .readQuota _ _ | .rereadQuota _ => s.lock = some i
  | .reconcile _ existing _ _ _ | .restart _ existing _ _ _ | .publishExisting existing _ _ _ =>
    s.lock = some i ∧ existing = s.config
  | .commit _ _ marker => s.lock = some i ∧ s.keys.marker = some marker
  | .publish quota _ marker => s.keys.marker = some marker → quota = s.config
  | .republish quota _ => s.lock = some i ∧ quota = s.config
  | _ => True

/-- Requests are in order, created markers are known and belong to one request, and
without a marker the last publication and the cache agree with the committed quota. -/
structure Synced (s : QuotaAdministration) : Prop where
  marker_le : ∀ marker, s.keys.marker = some marker → marker.revision ≤ s.keys.revision
  owned_le : ∀ i marker, owned (s.requests i) = some marker → marker.revision ≤ s.keys.revision
  owned_unique : ∀ i j marker, owned (s.requests i) = some marker →
    owned (s.requests j) = some marker → i = j
  inOrder : ∀ i, s.InOrder i (s.requests i)
  published : s.keys.marker = none → ∀ quota, s.published = some quota → quota = s.config
  cached : ∀ payload, s.keys.cache = some payload → s.keys.marker = none ∧
    ∃ quota, s.published = some quota ∧ QuotaLimits.fromRecord quota = some payload.limits

variable {s t : QuotaAdministration} {i j : Nat} {x y : AdminRequest}

theorem Synced.initial (h : s.Initial) : s.Synced where
  marker_le := h.marker
  owned_le i marker hi := by
    rw [h.requests i] at hi
    cases hi
  owned_unique i j marker hi := by
    rw [h.requests i] at hi
    cases hi
  inOrder i := by
    rw [h.requests i]
    trivial
  published _ quota hq := by
    rw [h.published] at hq
    cases hq
  cached payload hp := by
    rw [h.cache] at hp
    cases hp

/-- What another request relies on is left alone by a step that keeps its lock, does not
change the quota or the marker under a lock of its own, and does not change the quota
under the marker that it still has to publish. -/
theorem InOrder.frame (h : s.InOrder j x) (hlock : s.lock = some j → t.lock = some j)
    (hconfig : s.lock = some j → t.config = s.config)
    (hmarker : s.lock = some j → ∀ marker, owned x = some marker →
      s.keys.marker = some marker → t.keys.marker = some marker)
    (hpublish : ∀ marker, owned x = some marker → t.keys.marker = some marker →
      s.keys.marker = some marker ∧ t.config = s.config) : t.InOrder j x := by
  cases x with
  | readQuota m transition => exact hlock h
  | rereadQuota marker => exact hlock h
  | reconcile m existing applied n transition => exact ⟨hlock h.1, h.2.trans (hconfig h.1).symm⟩
  | restart m existing applied n published => exact ⟨hlock h.1, h.2.trans (hconfig h.1).symm⟩
  | publishExisting existing applied response marker =>
    exact ⟨hlock h.1, h.2.trans (hconfig h.1).symm⟩
  | commit quota response marker => exact ⟨hlock h.1, hmarker h.1 marker rfl h.2⟩
  | publish quota response marker =>
    intro hm
    obtain ⟨hs, hc⟩ := hpublish marker rfl hm
    exact (h hs).trans hc.symm
  | republish quota marker => exact ⟨hlock h.1, h.2.trans (hconfig h.1).symm⟩
  | _ => trivial

/-- Request `i` moves on to `y` in the shared state of `t`. -/
theorem Synced.advance (h : s.Synced) (hrequests : t.requests = s.requests)
    (hrevision : s.keys.revision ≤ t.keys.revision)
    (hmarker : ∀ marker, t.keys.marker = some marker → marker.revision ≤ t.keys.revision)
    (howned : ∀ marker, owned y = some marker → owned (s.requests i) = some marker ∨
      (marker.revision = t.keys.revision ∧ s.keys.revision < t.keys.revision))
    (hothers : ∀ j, j ≠ i → t.InOrder j (s.requests j)) (hy : t.InOrder i y)
    (hpublished : t.keys.marker = none → ∀ quota, t.published = some quota → quota = t.config)
    (hcached : ∀ payload, t.keys.cache = some payload → t.keys.marker = none ∧
      ∃ quota, t.published = some quota ∧ QuotaLimits.fromRecord quota = some payload.limits) :
    (t.setRequest i y).Synced := by
  have hself : (t.setRequest i y).requests i = y := Function.update_self ..
  have hother : ∀ j, j ≠ i → (t.setRequest i y).requests j = s.requests j := fun j hj => by
    show Function.update t.requests i y j = s.requests j
    rw [Function.update_of_ne hj, hrequests]
  -- a marker owned after the step is known, and no other request has it
  have hle : ∀ marker, owned y = some marker → marker.revision ≤ t.keys.revision := fun m hm =>
    (howned m hm).elim (fun ho => (h.owned_le i m ho).trans hrevision) fun ho => ho.1.le
  have hnew : ∀ j marker, j ≠ i → owned (s.requests j) = some marker → owned y ≠ some marker := by
    intro j m hj hm hy
    rcases howned m hy with ho | ⟨heq, hlt⟩
    · exact hj (h.owned_unique j i m hm ho)
    · have := h.owned_le j m hm
      omega
  refine ⟨hmarker, fun j m hm => ?_, fun j k m hm hk => ?_, fun j => ?_, hpublished, hcached⟩
  · by_cases hj : j = i
    · rw [hj, hself] at hm
      exact hle m hm
    · rw [hother j hj] at hm
      exact (h.owned_le j m hm).trans hrevision
  · by_cases hj : j = i
    · by_cases hki : k = i
      · rw [hj, hki]
      · rw [hj, hself] at hm
        rw [hother k hki] at hk
        exact absurd hm (hnew k m hki hk)
    · rw [hother j hj] at hm
      by_cases hki : k = i
      · rw [hki, hself] at hk
        exact absurd hk (hnew j m hj hm)
      · rw [hother k hki] at hk
        exact h.owned_unique j k m hm hk
  · by_cases hj : j = i
    · rw [hj, hself]
      exact hy
    · rw [hother j hj]
      exact hothers j hj

/-! ## The steps of a request -/

/-- A step that touches neither Redis nor the quota: the lock may be taken by the
request if it is free, and released by it. -/
theorem Synced.lockOnly (h : s.Synced) (lock : Option Nat)
    (hlock : ∀ j, j ≠ i → s.lock = some j → lock = some j)
    (howned : ∀ marker, owned y = some marker → owned (s.requests i) = some marker)
    (hy : InOrder { s with lock := lock } i y) :
    ({ s with lock := lock }.setRequest i y).Synced := by
  refine h.advance (t := { s with lock := lock }) rfl (Nat.le_refl _) h.marker_le
    (fun m hm => .inl (howned m hm)) (fun j hj => ?_) hy h.published h.cached
  exact (h.inOrder j).frame (hlock j hj) (fun _ => rfl) (fun _ _ _ hm => hm) fun _ _ hm => ⟨hm, rfl⟩

theorem Synced.local (h : s.Synced)
    (howned : ∀ marker, owned y = some marker → owned (s.requests i) = some marker)
    (hy : s.InOrder i y) : (s.setRequest i y).Synced :=
  h.lockOnly s.lock (fun _ _ hl => hl) howned hy

theorem Synced.takeLock (h : s.Synced) (hfree : s.lock = none)
    (howned : ∀ marker, owned y = some marker → owned (s.requests i) = some marker)
    (hy : InOrder { s with lock := some i } i y) :
    ({ s with lock := some i }.setRequest i y).Synced := by
  refine h.lockOnly (some i) (fun j _ hl => ?_) howned hy
  rw [hfree] at hl
  cases hl

/-- Another request keeps the lock. -/
theorem releaseLock_of_ne (hj : j ≠ i) (h : s.lock = some j) :
    (s.releaseLock i).lock = some j := by
  have : s.lock ≠ some i := by
    rw [h]
    simpa using hj
  rw [releaseLock, if_neg this, h]

theorem Synced.releaseLock (h : s.Synced)
    (howned : ∀ marker, owned y = some marker → owned (s.requests i) = some marker)
    (hy : InOrder (s.releaseLock i) i y) : ((s.releaseLock i).setRequest i y).Synced :=
  h.lockOnly _ (fun _ hj hl => releaseLock_of_ne hj hl) howned hy

/-- Everything that `_begin_quota_transition` can do. -/
theorem beginQuotaTransition_cases (s : QuotaAdministration) (token : String) :
    (∃ marker, s.keys.marker = some marker ∧
      s.beginQuotaTransition token = (s, ⟨marker, false⟩)) ∨
    (s.keys.marker = none ∧ s.beginQuotaTransition token =
      ({ s with keys := ⟨none, s.keys.revision + 1, some ⟨token, s.keys.revision + 1⟩⟩ },
        ⟨⟨token, s.keys.revision + 1⟩, true⟩)) := by
  cases hm : s.keys.marker with
  | some marker =>
    refine .inl ⟨marker, rfl, ?_⟩
    simp [beginQuotaTransition, RedisKeys.beginConfigTransition, hm]
  | none =>
    refine .inr ⟨rfl, ?_⟩
    simp [beginQuotaTransition, RedisKeys.beginConfigTransition, hm]

/-- A created transition is the one that a request owns with it. -/
theorem eq_of_owned {r : QuotaAdministration × ConfigTransition} {marker : TransitionMarker}
    (h : (if r.2.created then some r.2.marker else none) = some marker) :
    r = (r.1, ⟨marker, true⟩) := by
  obtain ⟨u, m, created⟩ := r
  cases created with
  | false => cases h
  | true =>
    obtain rfl := Option.some.inj h
    rfl

/-- A request begins a transition, or adopts the one that is under way. -/
theorem Synced.beginTransition (h : s.Synced) {token : String}
    (howned : ∀ marker, owned y = some marker →
      s.beginQuotaTransition token = ((s.beginQuotaTransition token).1, ⟨marker, true⟩))
    (hy : (s.beginQuotaTransition token).1.InOrder i y) :
    ((s.beginQuotaTransition token).1.setRequest i y).Synced := by
  rcases s.beginQuotaTransition_cases token with ⟨m, hm, heq⟩ | ⟨hm, heq⟩
  · rw [heq] at howned hy ⊢
    refine h.local (fun marker ho => ?_) hy
    simpa using howned marker ho
  · rw [heq] at howned hy ⊢
    refine h.advance rfl (Nat.le_succ _) (fun marker hmarker => ?_) (fun marker ho => ?_)
      (fun j _ => ?_) hy (fun hnone => by cases hnone) (fun _ hp => by cases hp)
    · obtain rfl := Option.some.inj hmarker
      exact Nat.le_refl _
    · obtain rfl : ⟨token, s.keys.revision + 1⟩ = marker := by simpa using howned marker ho
      exact .inr ⟨rfl, Nat.lt_succ_self _⟩
    · refine (h.inOrder j).frame id (fun _ => rfl) (fun _ marker _ hs => ?_) fun marker ho ht => ?_
      · rw [hm] at hs
        cases hs
      · -- the new marker has a revision that nobody knows
        obtain rfl := Option.some.inj ht
        exact absurd (h.owned_le j _ ho) (Nat.not_succ_le_self _)

/-- Everything that `_try_publish_quota_transition` can do. -/
theorem tryPublish_cases {marker : TransitionMarker} {quota : Option RoleQuota} {published : Bool}
    (hs : s.tryPublish marker quota = some (t, published)) :
    (s.keys.marker = some marker ∧ published = true ∧
      ∃ limits, QuotaLimits.fromRecord quota = some limits ∧
        t = { s with
          keys := ⟨some ⟨limits, marker.revision⟩, s.keys.revision, none⟩
          published := some quota }) ∨
    (s.keys.marker ≠ some marker ∧ published = false ∧ t = s) := by
  obtain ⟨limits, hl, heq⟩ := Option.map_eq_some_iff.mp hs
  by_cases hm : s.keys.marker = some marker
  · rw [RedisKeys.publishConfigTransition, if_pos hm] at heq
    obtain ⟨rfl, rfl⟩ := Prod.mk.inj heq
    exact .inl ⟨hm, rfl, limits, hl, rfl⟩
  · rw [RedisKeys.publishConfigTransition, if_neg hm] at heq
    obtain ⟨rfl, rfl⟩ := Prod.mk.inj heq
    exact .inr ⟨hm, rfl, rfl⟩

/-- A request publishes the committed quota, under the lock or under its own marker. -/
theorem Synced.tryPublish (h : s.Synced) {marker : TransitionMarker} {quota : Option RoleQuota}
    {published : Bool} (hquota : s.keys.marker = some marker → quota = s.config)
    (hright : s.lock = some i ∨ owned (s.requests i) = some marker) (howned : owned y = none)
    (hy : t.InOrder i y) (hs : s.tryPublish marker quota = some (t, published)) :
    (t.setRequest i y).Synced := by
  rcases tryPublish_cases hs with ⟨hm, -, limits, hl, rfl⟩ | ⟨-, -, rfl⟩
  · obtain rfl := hquota hm
    refine h.advance (t := { s with
          keys := ⟨some ⟨limits, marker.revision⟩, s.keys.revision, none⟩
          published := some s.config }) rfl (Nat.le_refl _) (fun _ hn => by cases hn)
      (fun _ ho => by rw [howned] at ho; cases ho) (fun j hj => ?_) hy (fun _ q hq => ?_)
      (fun payload hp => ?_)
    · refine (h.inOrder j).frame id (fun _ => rfl) (fun hlock m ho hsm => ?_)
        fun _ _ hn => by cases hn
      -- the marker is not the one of a request that is about to commit
      rcases hright with hlock' | ho'
      · rw [hlock] at hlock'
        exact absurd (Option.some.inj hlock') hj
      · rw [hm] at hsm
        obtain rfl := Option.some.inj hsm
        exact absurd (h.owned_unique j i marker ho ho') hj
    · exact (Option.some.inj hq).symm
    · obtain rfl := Option.some.inj hp
      exact ⟨rfl, s.config, rfl, hl⟩
  · refine h.local (fun _ ho => ?_) hy
    rw [howned] at ho
    cases ho

/-- The owner of the marker commits. -/
theorem Synced.commit (h : s.Synced) {quota : Option RoleQuota} {response : AdminResponse}
    {marker : TransitionMarker} (hx : s.requests i = .commit quota response marker) :
    (({ s with config := quota }.releaseLock i).setRequest i
      (.publish quota response marker)).Synced := by
  obtain ⟨hlock, hm⟩ : s.lock = some i ∧ s.keys.marker = some marker := by
    have := h.inOrder i
    rw [hx] at this
    exact this
  have howned : owned (s.requests i) = some marker := by
    rw [hx]
    rfl
  refine h.advance (t := { s with config := quota }.releaseLock i) rfl (Nat.le_refl _) h.marker_le
    (fun m ho => .inl ?_) (fun j hj => ?_) ?_ (fun hn => ?_) h.cached
  · rw [howned]
    exact ho
  · refine (h.inOrder j).frame (fun hl => ?_) (fun hl => ?_) (fun _ _ _ hm => hm)
      fun m ho hsm => ?_
    · exact releaseLock_of_ne (s := { s with config := quota }) hj hl
    · rw [hlock] at hl
      exact absurd (Option.some.inj hl).symm hj
    · change s.keys.marker = some m at hsm
      rw [hm] at hsm
      obtain rfl := Option.some.inj hsm
      exact absurd (h.owned_unique j i marker ho howned) hj
  · exact fun _ => rfl
  · change s.keys.marker = none at hn
    rw [hm] at hn
    cases hn

/-! ## A step and a run -/

/-- The owner of the marker publishes what exists or commits. -/
theorem proceed_cases (m : QuotaMutation) (existing : Option RoleQuota) (applied : Bool)
    (marker : TransitionMarker) :
    (∃ response, m.proceed existing applied marker =
      .publishExisting existing applied response marker) ∨
    (∃ quota response, m.proceed existing applied marker = .commit quota response marker) := by
  cases m with
  | upsert data =>
    cases existing with
    | none => exact .inr ⟨_, _, rfl⟩
    | some quota =>
      by_cases hchanged : (changedQuotaFields (some quota) data).isEmpty
      · exact .inl ⟨_, if_pos hchanged⟩
      · exact .inr ⟨_, _, if_neg hchanged⟩
  | delete =>
    cases existing with
    | none => exact .inl ⟨_, rfl⟩
    | some quota => exact .inr ⟨_, _, rfl⟩

theorem owned_proceed (m : QuotaMutation) (existing : Option RoleQuota) (applied : Bool)
    (marker : TransitionMarker) : owned (m.proceed existing applied marker) = some marker := by
  rcases proceed_cases m existing applied marker with ⟨response, heq⟩ | ⟨quota, response, heq⟩
  · rw [heq]
    rfl
  · rw [heq]
    rfl

theorem inOrder_proceed (m : QuotaMutation) {existing : Option RoleQuota} {applied : Bool}
    {marker : TransitionMarker} (hlock : s.lock = some i) (hexisting : existing = s.config)
    (hmarker : s.keys.marker = some marker) :
    s.InOrder i (m.proceed existing applied marker) := by
  rcases proceed_cases m existing applied marker with ⟨response, heq⟩ | ⟨quota, response, heq⟩
  · rw [heq]
    exact ⟨hlock, hexisting⟩
  · rw [heq]
    exact ⟨hlock, hmarker⟩

/-- `_publish_quota_transition` by a request that may publish. -/
theorem Synced.publishStep (h : s.Synced) {marker : TransitionMarker} {quota : Option RoleQuota}
    {applied : Bool} {response : AdminResponse}
    (hquota : s.keys.marker = some marker → quota = s.config)
    (hright : s.lock = some i ∨ owned (s.requests i) = some marker)
    (hs : s.publishStep i marker quota applied response = some t) : t.Synced := by
  obtain ⟨⟨u, published⟩, hpub, rfl⟩ := Option.map_eq_some_iff.mp hs
  exact h.tryPublish hquota hright rfl trivial hpub

/-- The loop's begin: the request proceeds, gives up or tries again. -/
theorem Synced.restart (h : s.Synced) {token : String} {m : QuotaMutation}
    {existing : Option RoleQuota} {applied published : Bool} {n : Nat}
    (hlock : s.lock = some i) (hexisting : existing = s.config)
    (hs : s.requestStep i token (.restart m existing applied n published) = some t) :
    t.Synced := by
  simp only [requestStep] at hs
  split at hs
  · rename_i hcreated
    obtain rfl := Option.some.inj hs
    have hb : (s.beginQuotaTransition token).2 =
        ⟨(s.beginQuotaTransition token).2.marker, true⟩ := by rw [← hcreated.2]
    refine h.beginTransition (fun marker ho => ?_) (inOrder_proceed m hlock hexisting ?_)
    · rw [owned_proceed] at ho
      obtain rfl := Option.some.inj ho
      rw [← hb]
    · rcases s.beginQuotaTransition_cases token with ⟨marker, hm, heq⟩ | ⟨hm, heq⟩
      · rw [heq] at hb
        cases hb
      · rw [heq]
  · split at hs
    · obtain rfl := Option.some.inj hs
      exact h.beginTransition (fun _ ho => by cases ho) trivial
    · obtain rfl := Option.some.inj hs
      refine h.beginTransition (fun marker ho => ?_) ⟨hlock, hexisting⟩
      exact eq_of_owned ho

/-- The top of the loop: the request finds its marker, or publishes another's. -/
theorem Synced.reconcile (h : s.Synced) {token : String} {m : QuotaMutation}
    {existing : Option RoleQuota} {applied : Bool} {n : Nat} {transition : ConfigTransition}
    (hx : s.requests i = .reconcile m existing applied n transition)
    (hlock : s.lock = some i) (hexisting : existing = s.config)
    (hs : s.requestStep i token (.reconcile m existing applied n transition) = some t) :
    t.Synced := by
  simp only [requestStep] at hs
  split at hs
  · rename_i hcreated
    split at hs
    · rename_i hmarker
      obtain rfl := Option.some.inj hs
      refine h.local (fun marker ho => ?_) (inOrder_proceed m hlock hexisting hmarker)
      rw [owned_proceed] at ho
      rw [hx, owned, if_pos hcreated]
      exact ho
    · obtain rfl := Option.some.inj hs
      exact h.local (fun _ ho => by cases ho) ⟨hlock, hexisting⟩
  · obtain ⟨⟨u, published⟩, hpub, rfl⟩ := Option.map_eq_some_iff.mp hs
    refine h.tryPublish (fun _ => hexisting) (.inl hlock) rfl ?_ hpub
    rcases tryPublish_cases hpub with ⟨-, -, limits, -, rfl⟩ | ⟨-, -, rfl⟩
    · exact ⟨hlock, hexisting⟩
    · exact ⟨hlock, hexisting⟩

/-- The next step of a request keeps the invariant. -/
theorem Synced.requestStep (h : s.Synced) {token : String}
    (hs : s.requestStep i token (s.requests i) = some t) : t.Synced := by
  have hi := h.inOrder i
  cases hx : s.requests i with
  | idle =>
    rw [hx] at hs
    cases hs
  | ended response =>
    rw [hx] at hs
    cases hs
  | beginTransition m =>
    rw [hx] at hs
    obtain rfl := Option.some.inj hs
    exact h.beginTransition (fun _ ho => eq_of_owned ho) trivial
  | lockRole m transition =>
    rw [hx, QuotaAdministration.requestStep] at hs
    split at hs
    · rename_i hfree
      obtain rfl := Option.some.inj hs
      refine h.takeLock hfree (fun marker ho => ?_) rfl
      rw [hx]
      exact ho
    · cases hs
  | readQuota m transition =>
    rw [hx] at hs hi
    obtain rfl := Option.some.inj hs
    refine h.local (fun marker ho => ?_) ⟨hi, rfl⟩
    rw [hx]
    exact ho
  | reconcile m existing applied n transition =>
    rw [hx] at hs hi
    exact h.reconcile hx hi.1 hi.2 hs
  | restart m existing applied n published =>
    rw [hx] at hs hi
    exact h.restart hi.1 hi.2 hs
  | publishExisting existing applied response marker =>
    rw [hx] at hs hi
    exact h.publishStep (fun _ => hi.2) (.inl hi.1) hs
  | commit quota response marker =>
    rw [hx] at hs
    obtain rfl := Option.some.inj hs
    exact h.commit hx
  | publish quota response marker =>
    rw [hx] at hs hi
    refine h.publishStep hi (.inr ?_) hs
    rw [hx]
    rfl
  | relockRole marker =>
    rw [hx, QuotaAdministration.requestStep] at hs
    split at hs
    · rename_i hfree
      obtain rfl := Option.some.inj hs
      exact h.takeLock hfree (fun _ ho => by cases ho) rfl
    · cases hs
  | rereadQuota marker =>
    rw [hx] at hs hi
    obtain rfl := Option.some.inj hs
    exact h.local (fun _ ho => by cases ho) ⟨hi, rfl⟩
  | republish quota marker =>
    rw [hx] at hs hi
    exact h.publishStep (fun _ => hi.2) (.inl hi.1) hs
  | close response =>
    rw [hx] at hs
    obtain rfl := Option.some.inj hs
    exact h.releaseLock (fun _ ho => by cases ho) trivial

/-- A failure closes the request, or rolls it back and lets it lock the role again. -/
theorem failStep_cases (hs : s.failStep i x = some t) :
    (∃ response, t = s.setRequest i (.close response)) ∨
    (∃ marker, t = (s.releaseLock i).setRequest i (.relockRole marker)) := by
  cases x with
  | idle => cases hs
  | close response => cases hs
  | ended response => cases hs
  | commit quota response marker => exact .inr ⟨marker, (Option.some.inj hs).symm⟩
  | _ => exact .inl ⟨_, (Option.some.inj hs).symm⟩

theorem Synced.step (h : s.Synced) {a : AdminAction} (hs : s.step a = some t) : t.Synced := by
  cases a with
  | expireCache =>
    obtain rfl := Option.some.inj hs
    exact ⟨h.marker_le, h.owned_le, h.owned_unique, h.inOrder, h.published, fun _ hp => by cases hp⟩
  | start i mutation =>
    simp only [QuotaAdministration.step] at hs
    split at hs
    · obtain rfl := Option.some.inj hs
      exact h.local (fun _ ho => by cases ho) trivial
    · cases hs
  | run i token => exact h.requestStep hs
  | fail i =>
    rcases failStep_cases hs with ⟨response, rfl⟩ | ⟨marker, rfl⟩
    · exact h.local (fun _ ho => by cases ho) trivial
    · exact h.releaseLock (fun _ ho => by cases ho) trivial
  | stop i =>
    obtain rfl := Option.some.inj hs
    exact h.releaseLock (fun _ ho => by cases ho) trivial

/-- Without a marker the committed limits are enforced, from the cache or from the
database. -/
theorem Synced.enforced_eq (h : s.Synced) :
    s.enforced = if s.keys.marker.isSome then none else QuotaLimits.fromRecord s.config := by
  unfold enforced
  cases hmarker : s.keys.marker with
  | some marker => rfl
  | none =>
    simp only [Option.isSome_none, Bool.false_eq_true, if_false]
    cases hcache : s.keys.cache with
    | none => rfl
    | some payload =>
      obtain ⟨-, quota, hquota, hlimits⟩ := h.cached payload hcache
      rw [← h.published hmarker quota hquota, hlimits]
      exact ite_self _

/-- **Without a marker, what was published last is what is committed**; enforcement
uses the committed limits or is refused by the marker. -/
theorem published_eq_config {s₀ s : QuotaAdministration} (h₀ : s₀.Initial)
    (hrun : Reaches QuotaAdministration.step (fun _ _ => True) s₀ s) :
    (s.keys.marker = none → ∀ quota, s.published = some quota → quota = s.config) ∧
    s.enforced = if s.keys.marker.isSome then none else QuotaLimits.fromRecord s.config := by
  have hsynced : s.Synced :=
    hrun.invariant (Synced.initial h₀) fun _ _ _ h _ hs => h.step hs
  exact ⟨hsynced.published, hsynced.enforced_eq⟩

/-- Five queries a day, nothing cached or published, no request. -/
def fiveQueries : QuotaAdministration where
  keys := ⟨none, 0, none⟩
  config := some ⟨some 5, none, none⟩
  lock := none
  requests _ := .idle
  published := none

/-- The request for two queries a day. -/
def twoQueries : QuotaMutation :=
  .upsert fun field => if field = .dailyQueryLimit then some (some 2) else none

/-- Request 0 begins to set two queries a day.  Request 1 adopts its marker, publishes,
begins a transition of its own and deletes the quota, but stops before it publishes.
Request 0 finds the other marker, publishes the deletion, begins again, commits and
publishes. -/
def overlappingRequests : List AdminAction :=
  [.start 0 twoQueries, .run 0 "a", .start 1 .delete, .run 1 "b", .run 1 "", .run 1 "",
   .run 1 "", .run 1 "c", .run 1 "", .stop 1,
   .run 0 "", .run 0 "", .run 0 "", .run 0 "d", .run 0 "", .run 0 "e", .run 0 "", .run 0 ""]

theorem published_eq_config_overlapping :
    ∃ s, runSteps QuotaAdministration.step (fun _ _ => True) fiveQueries overlappingRequests =
        some s ∧
      s.keys.marker = none ∧ s.published = some (some ⟨some 2, none, none⟩) ∧
      s.config = some ⟨some 2, none, none⟩ := by
  have hend : (runSteps QuotaAdministration.step (fun _ _ => True) fiveQueries
      overlappingRequests).map (fun s => (s.keys.marker, s.published)) =
      some (none, some (some ⟨some 2, none, none⟩)) := by decide
  obtain ⟨s, hrun, hs⟩ := Option.map_eq_some_iff.mp hend
  obtain ⟨hmarker, hpublished⟩ := Prod.mk.inj hs
  have hinit : fiveQueries.Initial := ⟨rfl, fun _ h => (by cases h), rfl, fun _ => rfl, rfl⟩
  exact ⟨s, hrun, hmarker, hpublished,
    ((published_eq_config hinit (reaches_of_runSteps hrun)).1 hmarker _ hpublished).symm⟩

end QuotaAdministration
end QueryCraft
