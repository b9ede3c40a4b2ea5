import Mathlib.Data.Option.Basic
import QueryCraft.Expiring
import QueryCraft.Transitions

/-! # Single sign-on callbacks

A login at an identity provider leaves a state value (OIDC) or a request id (SAML) in
Redis.  A callback reads that key, checks that it was left for its provider, deletes
it, validates what the provider sent, and creates a session; a SAML callback also looks
for the id of the assertion among those already used and, if it is not there, stores it
for the lifetime of an idle session.

Any number of callbacks run at once, and every Redis command is one step.  What the
provider sent is valid or not as the environment decides, any number of times.

A key is consumed by a read and a separate write, so two callbacks that both read
before either writes both get through (`state_consumed_twice`).  This is the only way:
if no callback reads a key that another has read and not written yet, every state,
request id and assertion id lets one callback through (`consumed_once`).
-/
namespace QueryCraft

/-- `sso:oidc:state:{state}` and `sso:saml:request:{request_id}`. -/
inductive StateKey where
  | oidc (state : String)
  | saml (requestId : String)
deriving DecidableEq, Repr

/-- The JSON stored under such a key. -/
structure StoredState where
  nonce : String
  providerId : String
deriving DecidableEq, Repr

/-- Where a call of `process_oidc_callback` or `process_saml_callback` stands, by its
next step. -/
inductive SsoCallback where
  | readState (key : StateKey) (provider : String)
  | deleteState (key : StateKey)
  /-- The exchange of the code and the checks of what the provider sent. -/
  | validate (key : StateKey)
  | readAssertion (key : StateKey) (assertionId : String)
  | writeAssertion (key : StateKey) (assertionId : String)
  /-- `_resolve_role_and_create_session` is reached, with the assertion id that the
  callback has stored and the time of the write. -/
  | resolve (key : StateKey) (assertion : Option (String × Nat))
  /-- `SsoValidationError`, or any other exception. -/
  | failed
deriving DecidableEq, Repr

/-- The time in milliseconds, the keys in Redis, and the callbacks. -/
structure SsoLogins where
  clock : Nat
  states : KeySpace StateKey StoredState
  assertions : KeySpace String Nat
  callbacks : List SsoCallback

/-- What can happen next. -/
inductive SsoAction where
  | tick (now : Nat)
  | start (key : StateKey) (provider : String)
  /-- The next Redis command of a callback. -/
  | run (i : Nat)
  /-- The outcome of the validation: nothing, or the assertion id, which is empty for
  OIDC. -/
  | validated (i : Nat) (assertionId : Option String)
  | stop (i : Nat)
deriving DecidableEq, Repr

namespace SsoLogins

/-- `SESSION_IDLE_TIMEOUT_HOURS`, in milliseconds. -/
def assertionTtl (idleTimeoutHours : Nat) : Nat := idleTimeoutHours * 3600 * 1000

/-- A callback moves on. -/
def setCallback (s : SsoLogins) (i : Nat) (x : SsoCallback) : SsoLogins :=
  { s with callbacks := s.callbacks.set i x }

/-- The next Redis command of a callback. -/
def callbackStep (idleTimeoutHours : Nat) (s : SsoLogins) (i : Nat) :
    SsoCallback → Option SsoLogins
  | .readState key provider =>
    match s.states.lookup s.clock key with
    | none => some (s.setCallback i .failed)
    | some stored =>
      -- the provider binding is checked only if one was stored
      if stored.value.providerId ≠ "" ∧ stored.value.providerId ≠ provider then
        some (s.setCallback i .failed)
      else some (s.setCallback i (.deleteState key))
  | .deleteState key =>
    some ({ s with states := Function.update s.states key none }.setCallback i (.validate key))
  | .readAssertion key assertionId =>
    match s.assertions.lookup s.clock assertionId with
    | some _ => some (s.setCallback i .failed)
    | none => some (s.setCallback i (.writeAssertion key assertionId))
  | .writeAssertion key assertionId =>
    some ({ s with
      assertions := s.assertions.put assertionId s.clock
        (some (s.clock + assertionTtl idleTimeoutHours)) }.setCallback i
          (.resolve key (some (assertionId, s.clock))))
  | .validate _ | .resolve _ _ | .failed => none

/-- What follows a successful validation. -/
def afterValidation (key : StateKey) (assertionId : String) : SsoCallback :=
  match key with
  | .oidc _ => .resolve key none
  | .saml _ => if assertionId = "" then .resolve key none else .readAssertion key assertionId

/-- One step. -/
def step (idleTimeoutHours : Nat) (s : SsoLogins) : SsoAction → Option SsoLogins
  | .tick now => if s.clock ≤ now then some { s with clock := now } else none
  | .start key provider =>
    some { s with callbacks := s.callbacks ++ [.readState key provider] }
  | .run i => (s.callbacks[i]?).bind (s.callbackStep idleTimeoutHours i)
  | .validated i assertionId =>
    match s.callbacks[i]? with
    | some (.validate key) =>
      some (s.setCallback i (assertionId.elim .failed (afterValidation key)))
    | _ => none
  | .stop i =>
    match s.callbacks[i]? with
    | none | some (.resolve _ _) => none
    | some _ => some (s.setCallback i .failed)

/-- The key that a callback is about to read. -/
inductive SsoKey where
  | state (key : StateKey)
  | assertion (assertionId : String)
deriving DecidableEq, Repr

/-- The key of the callback's next `GET`. -/
def reading : SsoCallback → Option SsoKey
  | .readState key _ => some (.state key)
  | .readAssertion _ assertionId => some (.assertion assertionId)
  | _ => none

/-- The key that the callback has read and is about to delete or set. -/
def consuming : SsoCallback → Option SsoKey
  | .deleteState key => some (.state key)
  | .writeAssertion _ assertionId => some (.assertion assertionId)
  | _ => none

/-- The step is not the read of a key that another callback has read and not yet
deleted or set. -/
def readsAlone (s : SsoLogins) : SsoAction → Bool
  | .run i =>
    match (s.callbacks[i]?).bind reading with
    | some key => s.callbacks.all fun x => consuming x ≠ some key
    | none => true
  | _ => true

/-- Every state and request id lets one callback through, and every assertion id one
within its lifetime. -/
def ConsumedOnce (idleTimeoutHours : Nat) (s : SsoLogins) : Prop :=
  (∀ (i j : Nat) key a b, s.callbacks[i]? = some (.resolve key a) →
    s.callbacks[j]? = some (.resolve key b) → i = j) ∧
  (∀ (i j : Nat) key key' assertionId now now',
    s.callbacks[i]? = some (.resolve key (some (assertionId, now))) →
    s.callbacks[j]? = some (.resolve key' (some (assertionId, now'))) →
    now ≤ now' → now' ≤ now + assertionTtl idleTimeoutHours → i = j)

/-! ## The invariant -/

/-- The key that the callback has found. -/
def taken : SsoCallback → Option StateKey
  | .deleteState key | .validate key | .readAssertion key _ | .writeAssertion key _
  | .resolve key _ => some key
  | _ => none

/-- The key that the callback has deleted. -/
def deleted : SsoCallback → Option StateKey
  | .validate key | .readAssertion key _ | .writeAssertion key _ | .resolve key _ => some key
  | _ => none

/-- The assertion id that the callback has not found. -/
def writing : SsoCallback → Option String
  | .writeAssertion _ assertionId => some assertionId
  | _ => none

/-- The assertion id that the callback has stored, and when. -/
def written : SsoCallback → Option (String × Nat)
  | .resolve _ assertion => assertion
  | _ => none

/-- An assertion id stored at a time is kept for its lifetime. -/
def Stored (ttl : Nat) (s : SsoLogins) (assertionId : String) (now : Nat) : Prop :=
  ∃ entry, s.assertions assertionId = some entry ∧
    ∃ t, entry.expireAt = some t ∧ now + ttl ≤ t

/-- Found keys belong to one callback and are gone once deleted.  A stored assertion id
is kept for its lifetime, and whoever does not find it comes later. -/
structure Consumed (ttl : Nat) (s : SsoLogins) : Prop where
  taken_unique : ∀ (i j : Nat) x y key, s.callbacks[i]? = some x → s.callbacks[j]? = some y →
    taken x = some key → taken y = some key → i = j
  deleted_none : ∀ x ∈ s.callbacks, ∀ key, deleted x = some key → s.states key = none
  writing_unique : ∀ (i j : Nat) x y a, s.callbacks[i]? = some x → s.callbacks[j]? = some y →
    writing x = some a → writing y = some a → i = j
  writing_later : ∀ (i j : Nat) x y a now, s.callbacks[i]? = some x →
    s.callbacks[j]? = some y → writing x = some a → written y = some (a, now) →
    now + ttl < s.clock
  written_stored : ∀ x ∈ s.callbacks, ∀ a now, written x = some (a, now) → s.Stored ttl a now
  written_apart : ∀ (i j : Nat) x y a now now', s.callbacks[i]? = some x →
    s.callbacks[j]? = some y → written x = some (a, now) → written y = some (a, now') →
    now ≤ now' → now' ≤ now + ttl → i = j

variable {ttl hours : Nat} {s t : SsoLogins} {i j : Nat} {x y z : SsoCallback}

/-- A callback after one of them has moved on. -/
theorem getElem?_setCallback (hcallbacks : t.callbacks = s.callbacks)
    (h : (t.setCallback i y).callbacks[j]? = some z) :
    (j = i ∧ z = y) ∨ (j ≠ i ∧ s.callbacks[j]? = some z) := by
  simp only [setCallback, List.getElem?_set, hcallbacks] at h
  by_cases hij : i = j
  · rw [if_pos hij] at h
    split at h
    · exact .inl ⟨hij.symm, (Option.some.inj h).symm⟩
    · cases h
  · rw [if_neg hij] at h
    exact .inr ⟨Ne.symm hij, h⟩

theorem mem_setCallback (hcallbacks : t.callbacks = s.callbacks)
    (h : z ∈ (t.setCallback i y).callbacks) : z = y ∨ z ∈ s.callbacks := by
  rw [← hcallbacks]
  exact (List.mem_or_eq_of_mem_set h).symm

/-- A property of which one callback at most has the given value keeps so, if the one
that moves on had the value before or nobody else has it. -/
theorem unique_setCallback {V : Type} {f : SsoCallback → Option V} {v : V}
    (h : ∀ (i j : Nat) x y, s.callbacks[i]? = some x → s.callbacks[j]? = some y →
      f x = some v → f y = some v → i = j)
    (hi : s.callbacks[i]? = some x)
    (hy : f y = some v → f x = some v ∨ ∀ z ∈ s.callbacks, f z ≠ some v)
    (hcallbacks : t.callbacks = s.callbacks) (j k : Nat) (z w : SsoCallback)
    (hj : (t.setCallback i y).callbacks[j]? = some z)
    (hk : (t.setCallback i y).callbacks[k]? = some w) (hz : f z = some v) (hw : f w = some v) :
    j = k := by
  have hnew : ∀ (k : Nat) w, k ≠ i → s.callbacks[k]? = some w → f w = some v → f y = some v → False := by
    intro k w hki hk hw hfy
    rcases hy hfy with hx | hnone
    · exact hki (h k i w x hk hi hw hx)
    · exact hnone w (List.mem_of_getElem? hk) hw
  rcases getElem?_setCallback hcallbacks hj with ⟨hji, rfl⟩ | ⟨hji, hj'⟩
  · rcases getElem?_setCallback hcallbacks hk with ⟨hki, -⟩ | ⟨hki, hk'⟩
    · rw [hji, hki]
    · exact (hnew k w hki hk' hw hz).elim
  · rcases getElem?_setCallback hcallbacks hk with ⟨-, rfl⟩ | ⟨hki, hk'⟩
    · exact (hnew j z hji hj' hz hw).elim
    · exact h j k z w hj' hk' hz hw

/-- Callback `i` moves on from `x` to `y` in the shared state of `t`. -/
theorem Consumed.advance (h : s.Consumed ttl) (hi : s.callbacks[i]? = some x)
    (hcallbacks : t.callbacks = s.callbacks) (hclock : t.clock = s.clock)
    (htaken : ∀ key, taken y = some key → taken x = some key ∨
      ∀ z ∈ s.callbacks, taken z ≠ some key)
    (hstates : ∀ key, s.states key = none → t.states key = none)
    (hdeleted : ∀ key, deleted y = some key → t.states key = none)
    (hwriting : ∀ a, writing y = some a → (∀ z ∈ s.callbacks, writing z ≠ some a) ∧
      ∀ z ∈ s.callbacks, ∀ now, written z = some (a, now) → now + ttl < s.clock)
    (hstored : ∀ z ∈ s.callbacks, ∀ a now, written z = some (a, now) → s.Stored ttl a now →
      t.Stored ttl a now)
    (hwritten : ∀ a now, written y = some (a, now) → writing x = some a ∧ now = s.clock ∧
      writing y = none ∧ t.Stored ttl a now) :
    (t.setCallback i y).Consumed ttl := by
  -- what `y` has written comes after everything written under the same id
  have hlater : ∀ (k : Nat) z a now now', s.callbacks[k]? = some z → written y = some (a, now) →
      written z = some (a, now') → now' + ttl < now := by
    intro k z a now now' hk hy hz
    obtain ⟨hx, rfl, -⟩ := hwritten a now hy
    exact h.writing_later i k x z a now' hi hk hx hz
  refine ⟨fun j k z w key hj hk hz hw => ?_, fun z hz key hd => ?_,
    fun j k z w a hj hk hz hw => ?_, fun j k z w a now hj hk hz hw => ?_,
    fun z hz a now hw => ?_, fun j k z w a now now' hj hk hz hw hle hlt => ?_⟩
  · exact unique_setCallback (fun i j x y hi hj => h.taken_unique i j x y key hi hj) hi
      (htaken key) hcallbacks j k z w hj hk hz hw
  · rcases mem_setCallback hcallbacks hz with rfl | hz
    · exact hdeleted key hd
    · exact hstates key (h.deleted_none z hz key hd)
  · exact unique_setCallback (fun i j x y hi hj => h.writing_unique i j x y a hi hj) hi
      (fun hy => .inr (hwriting a hy).1) hcallbacks j k z w hj hk hz hw
  · show now + ttl < t.clock
    rw [hclock]
    rcases getElem?_setCallback hcallbacks hj with ⟨-, rfl⟩ | ⟨hji, hj'⟩
    · rcases getElem?_setCallback hcallbacks hk with ⟨-, rfl⟩ | ⟨-, hk'⟩
      · rw [(hwritten a now hw).2.2.1] at hz
        cases hz
      · exact (hwriting a hz).2 w (List.mem_of_getElem? hk') now hw
    · rcases getElem?_setCallback hcallbacks hk with ⟨-, rfl⟩ | ⟨-, hk'⟩
      · -- two callbacks were about to write the same id
        exact absurd (h.writing_unique j i z x a hj' hi hz (hwritten a now hw).1) hji
      · exact h.writing_later j k z w a now hj' hk' hz hw
  · rcases mem_setCallback hcallbacks hz with rfl | hz
    · exact (hwritten a now hw).2.2.2
    · exact hstored z hz a now hw (h.written_stored z hz a now hw)
  · rcases getElem?_setCallback hcallbacks hj with ⟨hji, rfl⟩ | ⟨hji, hj'⟩
    · rcases getElem?_setCallback hcallbacks hk with ⟨hki, -⟩ | ⟨hki, hk'⟩
      · rw [hji, hki]
      · have := hlater k w a now now' hk' hz hw
        omega
    · rcases getElem?_setCallback hcallbacks hk with ⟨-, rfl⟩ | ⟨hki, hk'⟩
      · have := hlater j z a now' now hj' hw hz
        omega
      · exact h.written_apart j k z w a now now' hj' hk' hz hw hle hlt

/-- A callback that goes on without a command, or fails, holds no more than before. -/
theorem Consumed.local (h : s.Consumed ttl) (hi : s.callbacks[i]? = some x)
    (htaken : ∀ key, taken y = some key → taken x = some key)
    (hdeleted : ∀ key, deleted y = some key → deleted x = some key)
    (hwriting : writing y = none) (hwritten : written y = none) :
    (s.setCallback i y).Consumed ttl := by
  refine h.advance hi rfl rfl (fun key hy => .inl (htaken key hy)) (fun _ hn => hn)
    (fun key hy => h.deleted_none x (List.mem_of_getElem? hi) key (hdeleted key hy))
    (fun a hy => ?_) (fun _ _ _ _ _ hs => hs) (fun a now hy => ?_)
  · rw [hwriting] at hy
    cases hy
  · rw [hwritten] at hy
    cases hy

theorem Consumed.fail (h : s.Consumed ttl) (hi : s.callbacks[i]? = some x) :
    (s.setCallback i .failed).Consumed ttl :=
  h.local hi (fun _ hy => by cases hy) (fun _ hy => by cases hy) rfl rfl

/-- What the condition says of a read. -/
theorem consuming_ne_of_readsAlone {key : SsoKey} (hi : s.callbacks[i]? = some x)
    (hx : reading x = some key) (hok : s.readsAlone (.run i) = true) :
    ∀ z ∈ s.callbacks, consuming z ≠ some key := by
  simpa [readsAlone, hi, hx] using hok

/-- The state or request id is found: nobody else has found it. -/
theorem Consumed.readState (h : s.Consumed ttl) {key : StateKey} {provider : String}
    (hi : s.callbacks[i]? = some (.readState key provider))
    (hok : s.readsAlone (.run i) = true)
    (hs : s.callbackStep hours i (.readState key provider) = some t) : t.Consumed ttl := by
  have halone := consuming_ne_of_readsAlone hi rfl hok
  simp only [callbackStep] at hs
  split at hs
  · obtain rfl := Option.some.inj hs
    exact h.fail hi
  · rename_i stored hfound
    split at hs
    · obtain rfl := Option.some.inj hs
      exact h.fail hi
    · obtain rfl := Option.some.inj hs
      have hstored := (KeySpace.lookup_eq_some.mp hfound).1
      refine h.advance hi rfl rfl (fun k hk => .inr fun z hz ht => ?_) (fun _ hn => hn)
        (fun _ hy => by cases hy) (fun _ hy => by cases hy) (fun _ _ _ _ _ hs => hs)
        (fun _ _ hy => by cases hy)
      obtain rfl := Option.some.inj hk
      -- a callback that has found the key is about to delete it, or has deleted it
      have hgone : deleted z = some key → False := fun hd => by
        have hnone := h.deleted_none z hz key hd
        rw [hstored] at hnone
        cases hnone
      cases z with
      | deleteState k =>
        obtain rfl := Option.some.inj ht
        exact halone _ hz rfl
      | readState k p => cases ht
      | failed => cases ht
      | validate k => exact hgone ht
      | readAssertion k a => exact hgone ht
      | writeAssertion k a => exact hgone ht
      | resolve k a => exact hgone ht

/-- The assertion id is not found: nobody else is about to write it, and its earlier
lifetimes are over. -/
theorem Consumed.readAssertion (h : s.Consumed ttl) {key : StateKey} {assertionId : String}
    (hi : s.callbacks[i]? = some (.readAssertion key assertionId))
    (hok : s.readsAlone (.run i) = true)
    (hs : s.callbackStep hours i (.readAssertion key assertionId) = some t) : t.Consumed ttl := by
  have halone := consuming_ne_of_readsAlone hi rfl hok
  simp only [callbackStep] at hs
  split at hs
  · obtain rfl := Option.some.inj hs
    exact h.fail hi
  · rename_i hnone
    obtain rfl := Option.some.inj hs
    refine h.advance hi rfl rfl (fun k hk => .inl hk) (fun _ hn => hn)
      (fun k hk => h.deleted_none _ (List.mem_of_getElem? hi) k hk) (fun a ha => ?_)
      (fun _ _ _ _ _ hs => hs) (fun _ _ hy => by cases hy)
    obtain rfl := Option.some.inj ha
    refine ⟨fun z hz hw => ?_, fun z hz now hw => ?_⟩
    · cases z with
      | writeAssertion k a =>
        obtain rfl := Option.some.inj hw
        exact halone _ hz rfl
      | _ => cases hw
    · obtain ⟨entry, hentry, t, ht, hle⟩ := h.written_stored z hz _ now hw
      have hdead : ¬ s.clock ≤ t := fun hlive => by
        have : s.assertions.lookup s.clock assertionId = some entry :=
          KeySpace.lookup_eq_some.mpr ⟨hentry, by simp [Expiring.live, ht, hlive]⟩
        rw [hnone] at this
        cases this
      omega

/-- The key is deleted. -/
theorem Consumed.deleteState (h : s.Consumed ttl) {key : StateKey}
    (hi : s.callbacks[i]? = some (.deleteState key)) :
    ({ s with states := Function.update s.states key none }.setCallback i
      (.validate key)).Consumed ttl := by
  refine h.advance hi rfl rfl (fun k hk => .inl hk) (fun k hn => ?_) (fun k hk => ?_)
    (fun _ hy => by cases hy) (fun _ _ _ _ _ hs => hs) (fun _ _ hy => by cases hy)
  · show Function.update s.states key none k = none
    by_cases hk : k = key
    · rw [hk, Function.update_self]
    · rw [Function.update_of_ne hk]
      exact hn
  · obtain rfl := Option.some.inj hk
    exact Function.update_self ..

/-- The assertion id is stored. -/
theorem Consumed.writeAssertion (h : s.Consumed (assertionTtl hours)) {key : StateKey}
    {assertionId : String} (hi : s.callbacks[i]? = some (.writeAssertion key assertionId)) :
    ({ s with
      assertions := s.assertions.put assertionId s.clock
        (some (s.clock + assertionTtl hours)) }.setCallback i
          (.resolve key (some (assertionId, s.clock)))).Consumed (assertionTtl hours) := by
  refine h.advance (t := { s with
      assertions := s.assertions.put assertionId s.clock (some (s.clock + assertionTtl hours)) })
    hi rfl rfl (fun k hk => .inl hk) (fun _ hn => hn)
    (fun k hk => h.deleted_none _ (List.mem_of_getElem? hi) k hk) (fun _ hy => by cases hy)
    (fun z hz a now hw hs => ?_) (fun a now hy => ?_)
  · by_cases ha : a = assertionId
    · subst ha
      obtain ⟨k, hk⟩ := List.mem_iff_getElem?.mp hz
      have := h.writing_later i k _ z a now hi hk rfl hw
      exact ⟨_, KeySpace.put_self .., _, rfl, by omega⟩
    · obtain ⟨entry, hentry, hkept⟩ := hs
      exact ⟨entry, (KeySpace.put_of_ne ha ..).trans hentry, hkept⟩
  · obtain ⟨rfl, rfl⟩ := Prod.mk.inj (Option.some.inj hy)
    exact ⟨rfl, rfl, rfl, _, KeySpace.put_self .., _, rfl, Nat.le_refl _⟩

theorem Consumed.callbackStep (h : s.Consumed (assertionTtl hours)) (hi : s.callbacks[i]? = some x)
    (hok : s.readsAlone (.run i) = true) (hs : s.callbackStep hours i x = some t) :
    t.Consumed (assertionTtl hours) := by
  cases x with
  | readState key provider => exact h.readState hi hok hs
  | deleteState key =>
    obtain rfl := Option.some.inj hs
    exact h.deleteState hi
  | readAssertion key assertionId => exact h.readAssertion hi hok hs
  | writeAssertion key assertionId =>
    obtain rfl := Option.some.inj hs
    exact h.writeAssertion hi
  | validate key => cases hs
  | resolve key assertion => cases hs
  | failed => cases hs

/-- After the validation a callback holds the key that it has deleted, and nothing of
an assertion. -/
theorem afterValidation_spec (key : StateKey) (assertionId : String) :
    taken (afterValidation key assertionId) = some key ∧
    deleted (afterValidation key assertionId) = some key ∧
    writing (afterValidation key assertionId) = none ∧
    written (afterValidation key assertionId) = none := by
  cases key with
  | oidc state => exact ⟨rfl, rfl, rfl, rfl⟩
  | saml requestId =>
    by_cases ha : assertionId = ""
    · simp [afterValidation, ha, taken, deleted, writing, written]
    · simp [afterValidation, ha, taken, deleted, writing, written]

theorem Consumed.validated (h : s.Consumed ttl) {key : StateKey} {assertionId : Option String}
    (hi : s.callbacks[i]? = some (.validate key)) :
    (s.setCallback i (assertionId.elim .failed (afterValidation key))).Consumed ttl := by
  cases assertionId with
  | none => exact h.fail hi
  | some a =>
    obtain ⟨htaken, hdeleted, hwriting, hwritten⟩ := afterValidation_spec key a
    exact h.local hi (fun k hk => htaken.symm.trans hk) (fun k hk => hdeleted.symm.trans hk)
      hwriting hwritten

/-- A new callback holds nothing. -/
theorem Consumed.start (h : s.Consumed ttl) (key : StateKey) (provider : String) :
    Consumed ttl { s with callbacks := s.callbacks ++ [.readState key provider] } := by
  have hold : ∀ (j : Nat) z, (s.callbacks ++ [SsoCallback.readState key provider])[j]? = some z →
      s.callbacks[j]? = some z ∨ z = .readState key provider := by
    intro j z hj
    rw [List.getElem?_append] at hj
    split at hj
    · exact .inl hj
    · exact .inr (List.mem_singleton.mp (List.mem_of_getElem? hj))
  have hmem : ∀ z ∈ s.callbacks ++ [SsoCallback.readState key provider],
      z ∈ s.callbacks ∨ z = .readState key provider := by simp
  refine ⟨fun j k z w key' hj hk hz hw => ?_, fun z hz key' hd => ?_,
    fun j k z w a hj hk hz hw => ?_, fun j k z w a now hj hk hz hw => ?_,
    fun z hz a now hw => ?_, fun j k z w a now now' hj hk hz hw => ?_⟩
  · rcases hold j z hj with hj' | rfl
    · rcases hold k w hk with hk' | rfl
      · exact h.taken_unique j k z w key' hj' hk' hz hw
      · cases hw
    · cases hz
  · rcases hmem z hz with hz' | rfl
    · exact h.deleted_none z hz' key' hd
    · cases hd
  · rcases hold j z hj with hj' | rfl
    · rcases hold k w hk with hk' | rfl
      · exact h.writing_unique j k z w a hj' hk' hz hw
      · cases hw
    · cases hz
  · rcases hold j z hj with hj' | rfl
    · rcases hold k w hk with hk' | rfl
      · exact h.writing_later j k z w a now hj' hk' hz hw
      · cases hw
    · cases hz
  · rcases hmem z hz with hz' | rfl
    · exact h.written_stored z hz' a now hw
    · cases hw
  · rcases hold j z hj with hj' | rfl
    · rcases hold k w hk with hk' | rfl
      · exact h.written_apart j k z w a now now' hj' hk' hz hw
      · cases hw
    · cases hz

theorem Consumed.step (h : s.Consumed (assertionTtl hours)) {a : SsoAction}
    (hok : s.readsAlone a = true) (hs : s.step hours a = some t) :
    t.Consumed (assertionTtl hours) := by
  cases a with
  | tick now =>
    simp only [SsoLogins.step] at hs
    split at hs
    · rename_i hle
      obtain rfl := Option.some.inj hs
      exact ⟨h.taken_unique, h.deleted_none, h.writing_unique,
        fun j k z w a w' hj hk hz hw =>
          Nat.lt_of_lt_of_le (h.writing_later j k z w a w' hj hk hz hw) hle,
        h.written_stored, h.written_apart⟩
    · cases hs
  | start key provider =>
    obtain rfl := Option.some.inj hs
    exact h.start key provider
  | run i =>
    obtain ⟨x, hi, hx⟩ := Option.bind_eq_some_iff.mp hs
    exact h.callbackStep hi hok hx
  | validated i assertionId =>
    simp only [SsoLogins.step] at hs
    split at hs
    · rename_i key hi
      obtain rfl := Option.some.inj hs
      exact h.validated hi
    · cases hs
  | stop i =>
    simp only [SsoLogins.step] at hs
    split at hs
    · cases hs
    · cases hs
    · rename_i x hi
      obtain rfl := Option.some.inj hs
      exact h.fail hi

theorem Consumed.initial (h : s.callbacks = []) : s.Consumed ttl := by
  refine ⟨?_, ?_, ?_, ?_, ?_, ?_⟩ <;> simp [h]

/-- **Every state, request id and assertion id lets one callback through**, in every run
in which no callback reads a key that another has read and not yet deleted or set. -/
theorem consumed_once (idleTimeoutHours : Nat) {s₀ s : SsoLogins} (h₀ : s₀.callbacks = [])
    (hrun : Reaches (SsoLogins.step idleTimeoutHours) (fun s a => s.readsAlone a = true) s₀ s) :
    s.ConsumedOnce idleTimeoutHours := by
  have h : s.Consumed (assertionTtl idleTimeoutHours) :=
    hrun.invariant (Consumed.initial h₀) fun _ _ _ h hok hs => h.step hok hs
  refine ⟨fun i j key a b hi hj => ?_, fun i j key key' a now now' hi hj hle hlt => ?_⟩
  · exact h.taken_unique i j _ _ key hi hj rfl rfl
  · exact h.written_apart i j _ _ a now now' hi hj rfl rfl hle hlt

/-- One OIDC login and two SAML logins are under way at provider "p". -/
def threeLogins : SsoLogins where
  clock := 0
  states key :=
    if key ∈ [StateKey.oidc "a", .saml "b", .saml "c"] then
      some ⟨⟨"n", "p"⟩, some (assertionTtl 8)⟩
    else none
  assertions _ := none
  callbacks := []

/-- Two SAML callbacks bring the same assertion; the second reads its id after the first
has stored it. -/
def replayedAssertion : List SsoAction :=
  [.start (.saml "b") "p", .run 0, .run 0, .validated 0 (some "x"),
   .start (.saml "c") "p", .run 1, .run 1, .validated 1 (some "x"),
   .tick 5, .run 0, .run 0, .run 1]

theorem consumed_once_replayed :
    ∃ s, runSteps (SsoLogins.step 8) (fun s a => s.readsAlone a = true) threeLogins
        replayedAssertion = some s ∧
      s.callbacks = [.resolve (.saml "b") (some ("x", 5)), .failed] ∧ s.ConsumedOnce 8 := by
  have hend : (runSteps (SsoLogins.step 8) (fun s a => s.readsAlone a = true) threeLogins
      replayedAssertion).map (·.callbacks) =
      some [.resolve (.saml "b") (some ("x", 5)), .failed] := by decide
  obtain ⟨s, hrun, hs⟩ := Option.map_eq_some_iff.mp hend
  exact ⟨s, hrun, hs, consumed_once 8 rfl (reaches_of_runSteps hrun)⟩

/-- Two callbacks with the same state both read it before either deletes it. -/
def sharedState : List SsoAction :=
  [.start (.oidc "a") "p", .start (.oidc "a") "p", .run 0, .run 1, .run 0, .run 1,
   .validated 0 (some ""), .validated 1 (some "")]

/-- **One state can let two callbacks through.** -/
theorem state_consumed_twice :
    ¬ ∀ s₀ s : SsoLogins, s₀.callbacks = [] →
      Reaches (SsoLogins.step 8) (fun _ _ => True) s₀ s → s.ConsumedOnce 8 := by
  intro h
  have hend : (runSteps (SsoLogins.step 8) (fun _ _ => True) threeLogins sharedState).map
      (·.callbacks) = some [.resolve (.oidc "a") none, .resolve (.oidc "a") none] := by decide
  obtain ⟨s, hrun, hs⟩ := Option.map_eq_some_iff.mp hend
  have honce := (h threeLogins s rfl (reaches_of_runSteps hrun)).1 0 1 (.oidc "a") none none
    (by rw [hs]; rfl) (by rw [hs]; rfl)
  cases honce

end SsoLogins
end QueryCraft
