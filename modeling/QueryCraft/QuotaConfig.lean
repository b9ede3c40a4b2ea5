import Mathlib.Logic.Function.Basic
import QueryCraft.Transitions

/-! # The quota configuration cache

`QuotaService._quota_limits` serves the limits of a role from a Redis entry that
is stamped with a revision.  An administrator who changes the limits increments
the revision and sets a transition marker (`begin_config_transition`), commits the
new configuration, and publishes it to the cache while removing the marker
(`publish_config_transition`).  A reader checks the marker, reads the revision,
tries the cache and otherwise reads the repository and writes the cache itself.

Every Redis command or script and every read or commit of the database is one
step here, for one role.  The marker's text `token:revision` and the payload's
JSON are kept as their parts.

The reader's two checks are separate commands, so the revision it reads may
already be that of a transition that begins in between; if it then reads the
repository before the commit, it holds the old limits under the new revision, and
its cache write is unconditional.  `config_coherent` shows that this is the only
way to go wrong: if no reader reads the repository under the revision of a
transition that has not committed, the cache is coherent in every reachable state
and readers return what was published.
-/
namespace QueryCraft

/-- `_QuotaLimits`; `none` is uncapped. -/
structure QuotaLimits where
  dailyQueryLimit : Option Int
  dailyExecutionLimit : Option Int
  dailyExportLimit : Option Int
deriving DecidableEq, Repr

/-- The limits of a `role_quotas` row. -/
structure RoleQuota where
  dailyQueryLimit : Option Int
  dailyExecutionLimit : Option Int
  dailyExportLimit : Option Int
deriving DecidableEq, Repr

/-- `_QuotaLimits.from_record`; `none` where it raises `ValueError`. -/
def QuotaLimits.fromRecord : Option RoleQuota → Option QuotaLimits
  | none => some ⟨none, none, none⟩
  | some q =>
    if [q.dailyQueryLimit, q.dailyExecutionLimit, q.dailyExportLimit].any
        (·.any (· < 0)) then none
    else some ⟨q.dailyQueryLimit, q.dailyExecutionLimit, q.dailyExportLimit⟩

/-- `QuotaConfigTransition`, as far as it is the marker's text. -/
structure TransitionMarker where
  token : String
  revision : Nat
deriving DecidableEq, Repr

/-- The cached payload, `_QuotaLimits.serialize`. -/
structure CachePayload where
  limits : QuotaLimits
  revision : Nat
deriving DecidableEq, Repr

/-- The three keys of a role, `_config_cache_keys`.  An absent revision is 0. -/
structure RedisKeys where
  cache : Option CachePayload
  revision : Nat
  marker : Option TransitionMarker
deriving DecidableEq, Repr

namespace RedisKeys

/-- `_BEGIN_CONFIG_TRANSITION_SCRIPT`: whether the transition was created, and the
marker in force. -/
def beginConfigTransition (keys : RedisKeys) (token : String) :
    RedisKeys × Bool × TransitionMarker :=
  match keys.marker with
  | some existing => (keys, false, existing)
  | none =>
    let marker : TransitionMarker := ⟨token, keys.revision + 1⟩
    ({ cache := none, revision := keys.revision + 1, marker := some marker }, true, marker)

/-- `_PUBLISH_CONFIG_TRANSITION_SCRIPT`. -/
def publishConfigTransition (keys : RedisKeys) (transition : TransitionMarker)
    (payload : CachePayload) : RedisKeys × Bool :=
  if keys.marker = some transition then
    ({ keys with cache := some payload, marker := none }, true)
  else (keys, false)

end RedisKeys

/-- Where a reader stands in `_quota_limits`.  `attempts` counts the attempts left
after this one, `revision` is the expected revision of the attempt. -/
inductive Reader where
  | idle
  /-- `_cache_revision`, before the read of the marker. -/
  | readMarker (attempts : Nat)
  /-- `_cache_revision`, before the read of the revision. -/
  | readRevision (attempts : Nat)
  /-- `_stable_cached_limits`, before the read of the cache. -/
  | readCache (attempts revision : Nat)
  /-- The second `_cache_revision` of `_stable_cached_limits`. -/
  | recheckCachedMarker (attempts revision : Nat) (limits : QuotaLimits)
  | recheckCachedRevision (attempts revision : Nat) (limits : QuotaLimits)
  /-- `_cache_repository_limits`, before the read of the repository. -/
  | readRepository (attempts revision : Nat)
  /-- `_cache_repository_limits`, before the write of the cache. -/
  | writeCache (attempts revision : Nat) (limits : QuotaLimits)
  /-- The second `_cache_revision` of `_cache_repository_limits`. -/
  | recheckStoredMarker (attempts revision : Nat) (limits : QuotaLimits)
  | recheckStoredRevision (attempts revision : Nat) (limits : QuotaLimits)
  | returned (limits : QuotaLimits)
  /-- `QuotaUnavailableError`. -/
  | unavailable
deriving DecidableEq, Repr

/-- `_CONFIG_CACHE_RETRIES`. -/
def configCacheRetries : Nat := 3

/-- Where the administrator stands; transitions of a role do not overlap. -/
inductive Administrator where
  | idle
  | begun (transition : TransitionMarker)
  | committed (transition : TransitionMarker) (config : Option RoleQuota)
deriving DecidableEq, Repr

/-- The role's Redis keys, its committed configuration, the administrator and the
readers, by number. -/
structure QuotaSystem where
  keys : RedisKeys
  config : Option RoleQuota
  admin : Administrator
  readers : Nat → Reader

/-- What can happen next. -/
inductive QuotaAction where
  /-- The cache entry's time to live has passed. -/
  | expireCache
  | beginTransition (token : String)
  | commitConfig (config : Option RoleQuota)
  | publishTransition
  | startReader (i : Nat)
  | reader (i : Nat)
deriving DecidableEq, Repr

/-- The step begins a transition. -/
def QuotaAction.isBegin : QuotaAction → Bool
  | .beginTransition _ => true
  | _ => false

namespace QuotaSystem

/-- A failed attempt: the next one, or `QuotaUnavailableError` after the last. -/
def nextAttempt : Nat → Reader
  | 0 => .unavailable
  | attempts + 1 => .readMarker attempts

/-- The next command of a reader: what it reads, where it stands afterwards, and
what it writes to the cache. -/
def readerStep (keys : RedisKeys) (config : Option RoleQuota) :
    Reader → Option (Reader × Option CachePayload)
  | .idle => none
  | .readMarker n => some (if keys.marker.isSome then .unavailable else .readRevision n, keys.cache)
  | .readRevision n => some (.readCache n keys.revision, keys.cache)
  | .readCache n r =>
    match keys.cache with
    | none => some (.readRepository n r, keys.cache)
    | some payload => some
        (if payload.revision = r then .recheckCachedMarker n r payload.limits
          else .readRepository n r, keys.cache)
  | .recheckCachedMarker n r l =>
    some (if keys.marker.isSome then .unavailable else .recheckCachedRevision n r l, keys.cache)
  | .recheckCachedRevision n r l =>
    some (if keys.revision = r then .returned l else .readRepository n r, keys.cache)
  | .readRepository n r =>
    match QuotaLimits.fromRecord config with
    | none => some (.unavailable, keys.cache)
    | some l => some (.writeCache n r l, keys.cache)
  | .writeCache n r l => some (.recheckStoredMarker n r l, some ⟨l, r⟩)
  | .recheckStoredMarker n r l =>
    some (if keys.marker.isSome then .unavailable else .recheckStoredRevision n r l, keys.cache)
  | .recheckStoredRevision n r l =>
    some (if keys.revision = r then .returned l else nextAttempt n, keys.cache)
  | .returned _ => none
  | .unavailable => none

/-- One step of the system. -/
def step (s : QuotaSystem) : QuotaAction → Option QuotaSystem
  | .expireCache => some { s with keys := { s.keys with cache := none } }
  | .beginTransition token =>
    match s.admin, s.keys.beginConfigTransition token with
    | .idle, (keys, true, transition) => some { s with keys := keys, admin := .begun transition }
    | _, _ => none
  | .commitConfig config =>
    match s.admin with
    | .begun transition => some { s with config := config, admin := .committed transition config }
    | _ => none
  | .publishTransition =>
    match s.admin with
    | .committed transition config =>
      (QuotaLimits.fromRecord config).bind fun limits =>
        match s.keys.publishConfigTransition transition ⟨limits, transition.revision⟩ with
        | (keys, true) => some { s with keys := keys, admin := .idle }
        | (_, false) => none
    | _ => none
  | .startReader i =>
    match s.readers i with
    | .idle => some { s with
        readers := Function.update s.readers i (.readMarker (configCacheRetries - 1)) }
    | _ => none
  | .reader i =>
    (readerStep s.keys s.config (s.readers i)).map fun (r, cache) =>
      { s with
        keys := { s.keys with cache := cache }
        readers := Function.update s.readers i r }

/-- Nothing is cached, no transition is under way and no reader has started. -/
def Initial (s : QuotaSystem) : Prop :=
  s.keys.cache = none ∧ s.keys.marker = none ∧ s.admin = .idle ∧ ∀ i, s.readers i = .idle

/-- The step reads the repository under the revision of a transition that has begun
and whose configuration is not committed yet. -/
def readsUncommitted (s : QuotaSystem) : QuotaAction → Bool
  | .reader i =>
    match s.readers i, s.admin with
    | .readRepository _ r, .begun _ => r == s.keys.revision
    | _, _ => false
  | _ => false

/-! ## The invariant -/

/-- Limits read or cached under a revision: the revision has been reached, and if it
is the current one, the limits are those of the committed configuration and no
other is about to be committed. -/
structure Current (s : QuotaSystem) (revision : Nat) (limits : QuotaLimits) : Prop where
  le : revision ≤ s.keys.revision
  committed : revision = s.keys.revision → QuotaLimits.fromRecord s.config = some limits
  settled : revision = s.keys.revision → ∀ transition, s.admin ≠ .begun transition

/-- What the administrator's place says about the keys and the configuration. -/
def AdminInOrder (s : QuotaSystem) : Prop :=
  match s.admin with
  | .idle => s.keys.marker = none
  | .begun transition => s.keys.marker = some transition ∧ transition.revision = s.keys.revision
  | .committed transition config => s.keys.marker = some transition ∧
      transition.revision = s.keys.revision ∧ s.config = config

/-- A reader's expected revision has been reached, and what it is about to cache is
current. -/
def ReaderInOrder (s : QuotaSystem) : Reader → Prop
  | .readCache _ r => r ≤ s.keys.revision
  | .recheckCachedMarker _ r _ => r ≤ s.keys.revision
  | .recheckCachedRevision _ r _ => r ≤ s.keys.revision
  | .readRepository _ r => r ≤ s.keys.revision
  | .writeCache _ r l => s.Current r l
  | _ => True

/-- The invariant of all runs whose steps do not read uncommitted. -/
structure Coherent (s : QuotaSystem) : Prop where
  admin : s.AdminInOrder
  cached : ∀ payload, s.keys.cache = some payload → s.Current payload.revision payload.limits
  readers : ∀ i, s.ReaderInOrder (s.readers i)

variable {s t u : QuotaSystem} {r : Nat} {l : QuotaLimits} {x : Reader} {i : Nat}

/-- Readers depend on the rest of the system only through what is current. -/
theorem ReaderInOrder.imp (h : s.ReaderInOrder x) (hrev : s.keys.revision ≤ t.keys.revision)
    (hcur : ∀ r l, s.Current r l → t.Current r l) : t.ReaderInOrder x := by
  cases x with
  | readCache _ r => exact Nat.le_trans h hrev
  | recheckCachedMarker _ r _ => exact Nat.le_trans h hrev
  | recheckCachedRevision _ r _ => exact Nat.le_trans h hrev
  | readRepository _ r => exact Nat.le_trans h hrev
  | writeCache _ r l => exact hcur r l h
  | _ => trivial

theorem Coherent.initial (h : s.Initial) : s.Coherent := by
  obtain ⟨hcache, hmarker, hadmin, hreaders⟩ := h
  refine ⟨by rw [AdminInOrder, hadmin]; exact hmarker, fun p hp => ?_, fun i => ?_⟩
  · rw [hcache] at hp
    cases hp
  · rw [hreaders i]
    trivial

/-- A step of the administrator: what was current stays so, and the cache is
emptied, kept or filled with something current. -/
theorem Coherent.of_admin (h : s.Coherent) (hadmin : t.AdminInOrder)
    (hrev : s.keys.revision ≤ t.keys.revision) (hcur : ∀ r l, s.Current r l → t.Current r l)
    (hcache : ∀ payload, t.keys.cache = some payload →
      t.Current payload.revision payload.limits)
    (hreaders : t.readers = s.readers) : t.Coherent :=
  ⟨hadmin, hcache, fun i => by rw [hreaders]; exact (h.readers i).imp hrev hcur⟩

theorem Coherent.beginTransition (h : s.Coherent) {token : String}
    (hs : s.step (.beginTransition token) = some t) : t.Coherent := by
  unfold QuotaSystem.step RedisKeys.beginConfigTransition at hs
  cases hm : s.keys.marker with
  | some existing => simp [hm] at hs
  | none =>
    cases ha : s.admin with
    | idle =>
      rw [hm, ha] at hs
      obtain rfl := Option.some.inj hs
      -- the revision is new, so nothing read or cached so far carries it
      refine h.of_admin ⟨rfl, rfl⟩ (Nat.le_succ _) (fun r l hc => ?_) (by simp) rfl
      have hlt : r ≠ s.keys.revision + 1 := by
        have := hc.le
        omega
      exact ⟨Nat.le_succ_of_le hc.le, fun he => absurd he hlt, fun he => absurd he hlt⟩
    | begun _ => simp [hm, ha] at hs
    | committed _ _ => simp [hm, ha] at hs

theorem Coherent.commitConfig (h : s.Coherent) {config : Option RoleQuota}
    (hs : s.step (.commitConfig config) = some t) : t.Coherent := by
  cases ha : s.admin with
  | idle => simp [QuotaSystem.step, ha] at hs
  | committed _ _ => simp [QuotaSystem.step, ha] at hs
  | begun transition =>
    rw [QuotaSystem.step, ha] at hs
    obtain rfl := Option.some.inj hs
    have hadmin := h.admin
    rw [AdminInOrder, ha] at hadmin
    -- nothing carries the current revision before the commit
    have hcur : ∀ r l, s.Current r l →
        Current { s with config := config, admin := .committed transition config } r l :=
      fun r l hc => by
        have hne : r ≠ s.keys.revision := fun he => hc.settled he transition ha
        exact ⟨hc.le, fun he => absurd he hne, fun he => absurd he hne⟩
    exact h.of_admin ⟨hadmin.1, hadmin.2, rfl⟩ (Nat.le_refl _) hcur
      (fun p hp => hcur _ _ (h.cached p hp)) rfl

/-- What a publication does. -/
theorem publishTransition_spec (h : s.Coherent) (hs : s.step .publishTransition = some t) :
    ∃ transition limits, s.admin = .committed transition s.config ∧
      QuotaLimits.fromRecord s.config = some limits ∧
      t = { s with
        keys := ⟨some ⟨limits, s.keys.revision⟩, s.keys.revision, none⟩, admin := .idle } := by
  cases ha : s.admin with
  | idle => simp [QuotaSystem.step, ha] at hs
  | begun _ => simp [QuotaSystem.step, ha] at hs
  | committed transition config =>
    have hadmin := h.admin
    rw [AdminInOrder, ha] at hadmin
    obtain ⟨hmarker, hrev, rfl⟩ := hadmin
    rw [QuotaSystem.step, ha] at hs
    obtain ⟨limits, hl, hpub⟩ := Option.bind_eq_some_iff.mp hs
    rw [RedisKeys.publishConfigTransition, if_pos hmarker] at hpub
    obtain rfl := Option.some.inj hpub
    exact ⟨transition, limits, rfl, hl, by rw [hrev]⟩

theorem Coherent.publishTransition (h : s.Coherent)
    (hs : s.step .publishTransition = some t) : t.Coherent := by
  obtain ⟨transition, limits, ha, hl, rfl⟩ := publishTransition_spec h hs
  refine h.of_admin rfl (Nat.le_refl _) (fun r l hc => ?_) (fun p hp => ?_) rfl
  · exact ⟨hc.le, hc.committed, fun _ _ => by simp⟩
  · obtain rfl := Option.some.inj hp
    exact ⟨Nat.le_refl _, fun _ => hl, fun _ _ => by simp⟩

/-- A reader's command keeps it in order, and what it caches is current. -/
theorem ReaderInOrder.readerStep (h : s.Coherent) {y : Reader} {cache : Option CachePayload}
    (hx : s.ReaderInOrder x)
    (hok : ∀ n r, x = .readRepository n r → r = s.keys.revision →
      ∀ transition, s.admin ≠ .begun transition)
    (hs : QuotaSystem.readerStep s.keys s.config x = some (y, cache)) :
    s.ReaderInOrder y ∧
      ∀ payload, cache = some payload → s.Current payload.revision payload.limits := by
  cases x with
  | idle => cases hs
  | returned l => cases hs
  | unavailable => cases hs
  | readMarker n =>
    obtain ⟨rfl, rfl⟩ := Prod.mk.inj (Option.some.inj hs)
    refine ⟨?_, h.cached⟩
    split <;> trivial
  | readRevision n =>
    obtain ⟨rfl, rfl⟩ := Prod.mk.inj (Option.some.inj hs)
    exact ⟨Nat.le_refl _, h.cached⟩
  | readCache n r =>
    rw [QuotaSystem.readerStep] at hs
    split at hs
    · obtain ⟨rfl, rfl⟩ := Prod.mk.inj (Option.some.inj hs)
      exact ⟨hx, h.cached⟩
    · obtain ⟨rfl, rfl⟩ := Prod.mk.inj (Option.some.inj hs)
      refine ⟨?_, h.cached⟩
      split <;> exact hx
  | recheckCachedMarker n r l =>
    obtain ⟨rfl, rfl⟩ := Prod.mk.inj (Option.some.inj hs)
    refine ⟨?_, h.cached⟩
    split
    · trivial
    · exact hx
  | recheckCachedRevision n r l =>
    obtain ⟨rfl, rfl⟩ := Prod.mk.inj (Option.some.inj hs)
    refine ⟨?_, h.cached⟩
    split
    · trivial
    · exact hx
  | readRepository n r =>
    rw [QuotaSystem.readerStep] at hs
    split at hs
    · obtain ⟨rfl, rfl⟩ := Prod.mk.inj (Option.some.inj hs)
      exact ⟨trivial, h.cached⟩
    · rename_i l hl
      obtain ⟨rfl, rfl⟩ := Prod.mk.inj (Option.some.inj hs)
      exact ⟨⟨hx, fun _ => hl, hok n r rfl⟩, h.cached⟩
  | writeCache n r l =>
    obtain ⟨rfl, rfl⟩ := Prod.mk.inj (Option.some.inj hs)
    refine ⟨trivial, fun p hp => ?_⟩
    obtain rfl := Option.some.inj hp
    exact hx
  | recheckStoredMarker n r l =>
    obtain ⟨rfl, rfl⟩ := Prod.mk.inj (Option.some.inj hs)
    refine ⟨?_, h.cached⟩
    split <;> trivial
  | recheckStoredRevision n r l =>
    obtain ⟨rfl, rfl⟩ := Prod.mk.inj (Option.some.inj hs)
    refine ⟨?_, h.cached⟩
    split
    · trivial
    · cases n <;> trivial

/-- The system after a reader's command. -/
theorem reader_spec (hs : s.step (.reader i) = some t) :
    ∃ y cache, readerStep s.keys s.config (s.readers i) = some (y, cache) ∧
      t = { s with
        keys := { s.keys with cache := cache }, readers := Function.update s.readers i y } := by
  obtain ⟨⟨y, cache⟩, hstep, rfl⟩ := Option.map_eq_some_iff.mp hs
  exact ⟨y, cache, hstep, rfl⟩

/-- Only the cache and one reader change: what is current stays so. -/
theorem Coherent.of_reader (h : s.Coherent) {y : Reader} {cache : Option CachePayload}
    (hy : s.ReaderInOrder y)
    (hcache : ∀ payload, cache = some payload → s.Current payload.revision payload.limits) :
    Coherent { s with
      keys := { s.keys with cache := cache }, readers := Function.update s.readers i y } := by
  have hcur : ∀ r l, s.Current r l → Current { s with
      keys := { s.keys with cache := cache }, readers := Function.update s.readers i y } r l :=
    fun r l hc => ⟨hc.le, hc.committed, hc.settled⟩
  refine ⟨h.admin, fun p hp => hcur _ _ (hcache p hp), fun j => ?_⟩
  by_cases hj : j = i
  · subst hj
    show ReaderInOrder _ (Function.update s.readers j y j)
    rw [Function.update_self]
    exact hy.imp (Nat.le_refl _) hcur
  · show ReaderInOrder _ (Function.update s.readers i y j)
    rw [Function.update_of_ne hj]
    exact (h.readers j).imp (Nat.le_refl _) hcur

/-- Every step that does not read uncommitted keeps the invariant. -/
theorem Coherent.step (h : s.Coherent) {a : QuotaAction} (hok : s.readsUncommitted a = false)
    (hs : s.step a = some t) : t.Coherent := by
  cases a with
  | expireCache =>
    obtain rfl := Option.some.inj hs
    have hnone : ∀ p : CachePayload, none = some p → s.Current p.revision p.limits := by simp
    have := h.of_reader (i := 0) (h.readers 0) hnone
    rwa [Function.update_eq_self] at this
  | beginTransition token => exact h.beginTransition hs
  | commitConfig config => exact h.commitConfig hs
  | publishTransition => exact h.publishTransition hs
  | startReader i =>
    simp only [QuotaSystem.step] at hs
    split at hs
    · obtain rfl := Option.some.inj hs
      exact h.of_reader trivial h.cached
    · cases hs
  | reader i =>
    obtain ⟨y, cache, hstep, rfl⟩ := reader_spec hs
    have hread : ∀ n r, s.readers i = .readRepository n r → r = s.keys.revision →
        ∀ transition, s.admin ≠ .begun transition := by
      intro n r hx hr transition ha
      simp [readsUncommitted, hx, ha, hr] at hok
    obtain ⟨hy, hcache⟩ := ReaderInOrder.readerStep h (h.readers i) hread hstep
    exact h.of_reader hy hcache

/-! ## After a publication -/

/-- A reader that started after the publication of `config` under `revision`: its
expected revision is that one, and the limits it holds are those of `config`. -/
def Serves (config : Option RoleQuota) (revision : Nat) : Reader → Prop
  | .readCache _ r => r = revision
  | .recheckCachedMarker _ r l => r = revision ∧ QuotaLimits.fromRecord config = some l
  | .recheckCachedRevision _ r l => r = revision ∧ QuotaLimits.fromRecord config = some l
  | .readRepository _ r => r = revision
  | .writeCache _ r l => r = revision ∧ QuotaLimits.fromRecord config = some l
  | .recheckStoredMarker _ r l => r = revision ∧ QuotaLimits.fromRecord config = some l
  | .recheckStoredRevision _ r l => r = revision ∧ QuotaLimits.fromRecord config = some l
  | .returned l => QuotaLimits.fromRecord config = some l
  | _ => True

/-- No transition is under way, and reader `i` serves the committed configuration. -/
structure Published (config : Option RoleQuota) (revision i : Nat) (s : QuotaSystem) : Prop where
  coherent : s.Coherent
  idle : s.admin = .idle
  config_eq : s.config = config
  revision_eq : s.keys.revision = revision
  serves : Serves config revision (s.readers i)

variable {config : Option RoleQuota} {revision : Nat}

/-- A reader's command, while no transition is under way. -/
theorem Serves.readerStep (h : s.Coherent) {y : Reader} {cache : Option CachePayload}
    (hx : Serves s.config s.keys.revision x)
    (hs : QuotaSystem.readerStep s.keys s.config x = some (y, cache)) :
    Serves s.config s.keys.revision y := by
  cases x with
  | idle => cases hs
  | returned l => cases hs
  | unavailable => cases hs
  | readMarker n =>
    obtain ⟨rfl, -⟩ := Prod.mk.inj (Option.some.inj hs)
    split <;> trivial
  | readRevision n =>
    obtain ⟨rfl, -⟩ := Prod.mk.inj (Option.some.inj hs)
    rfl
  | readCache n r =>
    rw [QuotaSystem.readerStep] at hs
    split at hs
    · obtain ⟨rfl, -⟩ := Prod.mk.inj (Option.some.inj hs)
      exact hx
    · rename_i payload hcache
      obtain ⟨rfl, -⟩ := Prod.mk.inj (Option.some.inj hs)
      split
      · -- the payload carries the current revision, so it is current
        rename_i hr
        exact ⟨hx, (h.cached payload hcache).committed (hr.trans hx)⟩
      · exact hx
  | recheckCachedMarker n r l =>
    obtain ⟨rfl, -⟩ := Prod.mk.inj (Option.some.inj hs)
    split
    · trivial
    · exact hx
  | recheckCachedRevision n r l =>
    obtain ⟨rfl, -⟩ := Prod.mk.inj (Option.some.inj hs)
    split
    · exact hx.2
    · exact hx.1
  | readRepository n r =>
    rw [QuotaSystem.readerStep] at hs
    split at hs
    · obtain ⟨rfl, -⟩ := Prod.mk.inj (Option.some.inj hs)
      trivial
    · rename_i l hl
      obtain ⟨rfl, -⟩ := Prod.mk.inj (Option.some.inj hs)
      exact ⟨hx, hl⟩
  | writeCache n r l =>
    obtain ⟨rfl, -⟩ := Prod.mk.inj (Option.some.inj hs)
    exact hx
  | recheckStoredMarker n r l =>
    obtain ⟨rfl, -⟩ := Prod.mk.inj (Option.some.inj hs)
    split
    · trivial
    · exact hx
  | recheckStoredRevision n r l =>
    obtain ⟨rfl, -⟩ := Prod.mk.inj (Option.some.inj hs)
    split
    · exact hx.2
    · cases n <;> trivial

/-- Until the next transition begins, every step keeps what was published. -/
theorem Published.step (h : Published config revision i s) {a : QuotaAction}
    (hok : s.readsUncommitted a = false) (hbegin : a.isBegin = false)
    (hs : s.step a = some t) : Published config revision i t := by
  have hcoh := h.coherent.step hok hs
  cases a with
  | expireCache =>
    obtain rfl := Option.some.inj hs
    exact ⟨hcoh, h.idle, h.config_eq, h.revision_eq, h.serves⟩
  | beginTransition token => cases hbegin
  | commitConfig c => simp [QuotaSystem.step, h.idle] at hs
  | publishTransition => simp [QuotaSystem.step, h.idle] at hs
  | startReader j =>
    simp only [QuotaSystem.step] at hs
    split at hs
    · obtain rfl := Option.some.inj hs
      refine ⟨hcoh, h.idle, h.config_eq, h.revision_eq, ?_⟩
      show Serves config revision (Function.update s.readers j _ i)
      by_cases hij : i = j
      · subst hij
        rw [Function.update_self]
        trivial
      · rw [Function.update_of_ne hij]
        exact h.serves
    · cases hs
  | reader j =>
    obtain ⟨y, cache, hstep, rfl⟩ := reader_spec hs
    refine ⟨hcoh, h.idle, h.config_eq, h.revision_eq, ?_⟩
    show Serves config revision (Function.update s.readers j y i)
    by_cases hij : i = j
    · subst hij
      rw [Function.update_self]
      have hserves := h.serves
      rw [← h.config_eq, ← h.revision_eq] at hserves ⊢
      exact Serves.readerStep h.coherent hserves hstep
    · rw [Function.update_of_ne hij]
      exact h.serves

/-- **The cache is coherent and readers return what was published**, in every run in
which no reader reads the repository under the revision of a transition that has
not committed. -/
theorem config_coherent (s₀ s : QuotaSystem) (h₀ : s₀.Initial)
    (hrun : Reaches QuotaSystem.step (fun s a => s.readsUncommitted a = false) s₀ s) :
    (s.keys.marker = none → ∀ payload, s.keys.cache = some payload →
      payload.revision = s.keys.revision →
      QuotaLimits.fromRecord s.config = some payload.limits) ∧
    (∀ (transition : TransitionMarker) (config : Option RoleQuota) (t u : QuotaSystem) (i : Nat)
      (limits : QuotaLimits), s.admin = .committed transition config →
      s.step .publishTransition = some t →
      Reaches QuotaSystem.step (fun s a => s.readsUncommitted a = false ∧ a.isBegin = false)
        t u →
      t.readers i = .idle → u.readers i = .returned limits →
      QuotaLimits.fromRecord config = some limits) := by
  have hcoh : s.Coherent :=
    hrun.invariant (Coherent.initial h₀) fun _ _ _ h hok hs => h.step hok hs
  refine ⟨fun _ payload hp hr => (hcoh.cached payload hp).committed hr, ?_⟩
  intro transition config t u i limits hadmin hpub hafter hidle hreturned
  obtain ⟨_, _, hadmin', -, ht⟩ := publishTransition_spec hcoh hpub
  have hconfig : s.config = config :=
    (Administrator.committed.inj (hadmin'.symm.trans hadmin)).2
  have hstart : Published config s.keys.revision i t := by
    refine ⟨hcoh.publishTransition hpub, by rw [ht], by rw [ht]; exact hconfig, by rw [ht], ?_⟩
    rw [hidle]
    trivial
  have hend : Published config s.keys.revision i u :=
    hafter.invariant hstart fun _ _ _ h hok hs => h.step hok.1 hok.2 hs
  have hserves := hend.serves
  rw [hreturned] at hserves
  exact hserves

/-- Nothing cached, no reader, and the given keys, configuration and administrator. -/
def between (revision : Nat) (marker : Option TransitionMarker) (queries : Int)
    (admin : Administrator) : QuotaSystem :=
  ⟨⟨none, revision, marker⟩, some ⟨some queries, none, none⟩, admin, fun _ => .idle⟩

/-- Five queries a day become two. -/
def fiveToTwo : List QuotaAction :=
  [.beginTransition "t", .commitConfig (some ⟨some 2, none, none⟩)]

/-- A reader from its start to its return from the cache. -/
def cachedRead : List QuotaAction :=
  [.startReader 0, .reader 0, .reader 0, .reader 0, .reader 0, .reader 0]

/-- After the transition from five queries a day to two, a reader returns two. -/
theorem config_coherent_published :
    ∃ s t u, Reaches QuotaSystem.step (fun s a => s.readsUncommitted a = false)
        (between 0 none 5 .idle) s ∧ s.step .publishTransition = some t ∧
      Reaches QuotaSystem.step (fun s a => s.readsUncommitted a = false ∧ a.isBegin = false)
        t u ∧
      u.readers 0 = .returned ⟨some 2, none, none⟩ ∧
      QuotaLimits.fromRecord (some ⟨some 2, none, none⟩) = some ⟨some 2, none, none⟩ := by
  have hrun : Reaches QuotaSystem.step (fun s a => s.readsUncommitted a = false)
      (between 0 none 5 .idle)
      (between 1 (some ⟨"t", 1⟩) 2 (.committed ⟨"t", 1⟩ (some ⟨some 2, none, none⟩))) :=
    reaches_of_runSteps (show runSteps _ _ _ fiveToTwo = some _ from rfl)
  obtain ⟨t, ht⟩ : ∃ t, (between 1 (some ⟨"t", 1⟩) 2
      (.committed ⟨"t", 1⟩ (some ⟨some 2, none, none⟩))).step .publishTransition = some t ∧
      t.readers 0 = .idle ∧ ∃ u, runSteps QuotaSystem.step
        (fun s a => s.readsUncommitted a = false ∧ a.isBegin = false) t cachedRead = some u ∧
        u.readers 0 = .returned ⟨some 2, none, none⟩ := ⟨_, rfl, rfl, _, rfl, rfl⟩
  obtain ⟨hpub, hidle, u, hread, hreturned⟩ := ht
  exact ⟨_, t, u, hrun, hpub, reaches_of_runSteps hread, hreturned,
    (config_coherent (between 0 none 5 .idle) _ ⟨rfl, rfl, rfl, fun _ => rfl⟩ hrun).2 ⟨"t", 1⟩
      (some ⟨some 2, none, none⟩) t u 0 ⟨some 2, none, none⟩ rfl hpub (reaches_of_runSteps hread)
      hidle hreturned⟩

/-- A reader finds no marker; the transition begins; the reader reads the new
revision, finds nothing cached and reads the old configuration; the transition
commits and publishes; the reader writes the cache. -/
def staleWrite : List QuotaAction :=
  [.startReader 0, .reader 0, .beginTransition "t", .reader 0, .reader 0, .reader 0,
   .commitConfig (some ⟨some 2, none, none⟩), .publishTransition, .reader 0]

/-- **Stale limits can be cached under the current revision.** -/
theorem config_not_coherent :
    ¬ ∀ s₀ s : QuotaSystem, s₀.Initial →
      Reaches QuotaSystem.step (fun _ _ => True) s₀ s →
      (s.keys.marker = none → ∀ payload, s.keys.cache = some payload →
        payload.revision = s.keys.revision →
        QuotaLimits.fromRecord s.config = some payload.limits) := by
  intro h
  have hstale : (runSteps QuotaSystem.step (fun _ _ => True) (between 0 none 5 .idle)
      staleWrite).map (fun s => (s.keys, s.config)) =
      some (⟨some ⟨⟨some 5, none, none⟩, 1⟩, 1, none⟩, some ⟨some 2, none, none⟩) := by decide
  obtain ⟨s, hrun, hs⟩ := Option.map_eq_some_iff.mp hstale
  obtain ⟨hkeys, hconfig⟩ := Prod.mk.inj hs
  have hcache := h _ s ⟨rfl, rfl, rfl, fun _ => rfl⟩ (reaches_of_runSteps hrun) (by rw [hkeys])
    ⟨⟨some 5, none, none⟩, 1⟩ (by rw [hkeys]) (by rw [hkeys])
  rw [hconfig] at hcache
  exact absurd hcache (by decide)

end QuotaSystem
end QueryCraft
