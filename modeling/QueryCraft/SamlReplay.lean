import Mathlib.Data.List.Nodup
import QueryCraft.Expiring
import QueryCraft.Transitions

/-! # Replayed assertions

`process_saml_callback` stores the id of an assertion it accepts, for the lifetime of an idle
session, and refuses an id that is stored.  `_validate_saml_assertion` refuses an assertion
whose `NotOnOrAfter` has passed, with a tolerance of thirty seconds.  Together they let an
assertion through once, provided that it has passed before its id is forgotten.

Nothing ties the two together.  An assertion without `NotOnOrAfter` never passes, and one
that is valid for longer than an idle session outlives its id (`replayed_after_ttl`).
`assertion_single_use` is about the others: if every assertion that is presented passes, with
the tolerance, before its id would be forgotten, then no id creates two sessions.

Calls are executed one at a time.  Times are in microseconds.
-/
namespace QueryCraft

/-- What `process_saml_callback` reads of a provider. -/
structure SamlProvider where
  id : String
  /-- `_get_idp_entity_id`, which needs the metadata URL. -/
  idpEntityId : Option String
deriving DecidableEq, Repr

/-- The `NotBefore` attribute: empty or absent, not a timestamp with a time zone, or an
instant. -/
inductive NotBefore where
  | absent
  | malformed
  | instant (t : Int)
deriving DecidableEq, Repr

/-- What `_parse_saml_assertion` returns, as far as the callback looks at it itself. -/
structure SamlAttributes where
  issuer : String
  notBefore : NotBefore
  /-- Seconds since the epoch, as the parser reports them. -/
  notOnOrAfter : Option Int
  /-- Empty if the parser reports none. -/
  assertionId : String
deriving DecidableEq, Repr

/-- Why a callback fails. -/
inductive SsoError where
  /-- `SsoValidationError`. -/
  | validation (message : String)
  /-- The error of `fromisoformat`, or of a comparison without a time zone. -/
  | valueError
deriving DecidableEq, Repr

/-- A call of `process_saml_callback`. -/
structure SamlCall where
  provider : SamlProvider
  requestId : String
  /-- What the parser makes of the response; `none` where it refuses it. -/
  parsed : Option SamlAttributes
  /-- `_resolve_role_and_create_session` finds a role and creates a session. -/
  creates : Bool
deriving DecidableEq, Repr

/-- `_clock_skew_tolerance`, thirty seconds. -/
def clockSkewTolerance : Nat := 30 * 1000000

/-- The instant of `NotOnOrAfter`; a zero counts as absent. -/
def SamlAttributes.expiry (attrs : SamlAttributes) : Option Int :=
  match attrs.notOnOrAfter with
  | none => none
  | some seconds => if seconds = 0 then none else some (seconds * 1000000)

/-- `not_on_or_after < now - self._clock_skew_tolerance`. -/
def SamlAttributes.isExpired (attrs : SamlAttributes) (now : Nat) : Bool :=
  attrs.expiry.any fun t => decide (t < (now : Int) - clockSkewTolerance)

/-- The check of `NotBefore`. -/
def checkNotBefore (now : Nat) : NotBefore → Except SsoError Unit
  | .absent => .ok ()
  | .malformed => .error .valueError
  | .instant t =>
    if (now : Int) + clockSkewTolerance < t then
      .error (.validation "SSO assertion not yet valid")
    else .ok ()

/-- `_validate_saml_assertion`. -/
def validateSamlAssertion (now : Nat) (attrs : SamlAttributes) (provider : SamlProvider) :
    Except SsoError Unit := do
  match provider.idpEntityId with
  | none => .error (.validation "SSO provider configuration incomplete")
  | some expected =>
    if attrs.issuer ≠ expected then .error (.validation "SSO issuer validation failed")
    else
      checkNotBefore now attrs.notBefore
      if attrs.isExpired now then .error (.validation "SSO assertion expired") else .ok ()

/-- The time, the keys in Redis, the assertion ids that were stored, with the time, and those
that led to a session. -/
structure SamlLogins where
  clock : Nat
  /-- `sso:saml:request:{request_id}`, with the provider id. -/
  requests : KeySpace String String
  /-- `sso:saml:assertion:{assertion_id}`. -/
  assertions : KeySpace String Unit
  consumed : List (String × Nat)
  created : List String

/-- What happens at some time. -/
inductive SamlEvent where
  /-- `initiate_saml_login`. -/
  | initiate (requestId : String) (providerId : String)
  | callback (call : SamlCall)
deriving DecidableEq, Repr

namespace SamlLogins

/-- `SESSION_IDLE_TIMEOUT_HOURS * 3600` seconds. -/
def keyTtl (idleTimeoutHours : Nat) : Nat := idleTimeoutHours * 3600 * 1000000

/-- `_resolve_role_and_create_session`. -/
def createSession (s : SamlLogins) (call : SamlCall) (assertionId : String) :
    SamlLogins × Except SsoError Unit :=
  if call.creates then ({ s with created := assertionId :: s.created }, .ok ())
  else (s, .error (.validation "SSO user has no assigned role"))

/-- The replay protection, and the session. -/
def consumeAssertion (idleTimeoutHours : Nat) (s : SamlLogins) (now : Nat) (call : SamlCall)
    (assertionId : String) : SamlLogins × Except SsoError Unit :=
  if assertionId = "" then s.createSession call assertionId
  else
    match s.assertions.lookup now assertionId with
    | some _ => (s, .error (.validation "SSO assertion replay detected"))
    | none =>
      createSession
        { s with
          assertions := s.assertions.put assertionId () (some (now + keyTtl idleTimeoutHours))
          consumed := (assertionId, now) :: s.consumed }
        call assertionId

/-- `process_saml_callback`. -/
def processSamlCallback (idleTimeoutHours : Nat) (s : SamlLogins) (now : Nat) (call : SamlCall) :
    SamlLogins × Except SsoError Unit :=
  match s.requests.lookup now call.requestId with
  | none => (s, .error (.validation "SSO session expired or invalid"))
  | some stored =>
    if stored.value ≠ "" ∧ stored.value ≠ call.provider.id then
      (s, .error (.validation "SSO provider mismatch"))
    else
      let s := { s with requests := Function.update s.requests call.requestId none }
      match call.parsed with
      | none => (s, .error (.validation "SSO assertion validation failed"))
      | some attrs =>
        match validateSamlAssertion now attrs call.provider with
        | .error e => (s, .error e)
        | .ok () => consumeAssertion idleTimeoutHours s now call attrs.assertionId

/-- One event, at a time that is not before the last one. -/
def step (idleTimeoutHours : Nat) (s : SamlLogins) : Nat × SamlEvent → Option SamlLogins
  | (now, event) =>
    if s.clock ≤ now then
      match event with
      | .initiate requestId providerId =>
        some { s with
          clock := now
          requests := s.requests.put requestId providerId (some (now + keyTtl idleTimeoutHours)) }
      | .callback call =>
        some (processSamlCallback idleTimeoutHours { s with clock := now } now call).1
    else none

/-- The condition on what is presented: an id stands for one assertion, and the assertion
passes, with the tolerance, before its id would be forgotten. -/
def PassesInTime (idleTimeoutHours : Nat) (expiryOf : String → Option Int) (_ : SamlLogins) :
    Nat × SamlEvent → Prop
  | (now, .callback call) =>
    ∀ attrs ∈ call.parsed, attrs.assertionId ≠ "" → attrs.expiry = expiryOf attrs.assertionId ∧
      ∃ t ∈ attrs.expiry, t + clockSkewTolerance ≤ (now : Int) + keyTtl idleTimeoutHours
  | (_, .initiate ..) => True

/-! ## The invariant -/

/-- The stored ids are kept until their assertions have passed. -/
structure Protected (idleTimeoutHours : Nat) (expiryOf : String → Option Int) (s : SamlLogins) :
    Prop where
  stored : ∀ id t, (id, t) ∈ s.consumed →
    ∃ entry, s.assertions id = some entry ∧ entry.expireAt = some (t + keyTtl idleTimeoutHours)
  passes : ∀ id t, (id, t) ∈ s.consumed →
    ∃ e ∈ expiryOf id, e + clockSkewTolerance ≤ (t : Int) + keyTtl idleTimeoutHours
  nodup : (s.consumed.map (·.1)).Nodup
  created : (s.created.filter (· ≠ "")).Sublist (s.consumed.map (·.1))

variable {hours : Nat} {expiryOf : String → Option Int} {s s' : SamlLogins} {now : Nat}

/-- A stored id is still there, or its assertion has passed. -/
theorem Protected.forgotten (h : s.Protected hours expiryOf) {attrs : SamlAttributes} {t : Nat}
    (now : Nat) (hconsumed : (attrs.assertionId, t) ∈ s.consumed)
    (hexpiry : attrs.expiry = expiryOf attrs.assertionId) :
    attrs.isExpired now = true ∨ (s.assertions.lookup now attrs.assertionId).isSome = true := by
  obtain ⟨entry, hentry, hexpireAt⟩ := h.stored _ t hconsumed
  obtain ⟨e, he, hle⟩ := h.passes _ t hconsumed
  by_cases hnow : now ≤ t + keyTtl hours
  · right
    have hlookup : s.assertions.lookup now attrs.assertionId = some entry :=
      KeySpace.lookup_eq_some.mpr ⟨hentry, by simp [Expiring.live, hexpireAt, hnow]⟩
    rw [hlookup]
    rfl
  · left
    rw [SamlAttributes.isExpired, hexpiry, Option.mem_def.mp he]
    simp only [Option.any_some, decide_eq_true_eq]
    omega

/-- An assertion that is accepted has not passed. -/
theorem isExpired_of_validate {attrs : SamlAttributes} {provider : SamlProvider}
    (h : validateSamlAssertion now attrs provider = .ok ()) : attrs.isExpired now = false := by
  by_contra hexpired
  rw [Bool.not_eq_false] at hexpired
  rw [validateSamlAssertion] at h
  split at h
  · cases h
  · split at h
    · cases h
    · cases hcheck : checkNotBefore now attrs.notBefore with
      | error e =>
        rw [hcheck] at h
        cases h
      | ok =>
        rw [hcheck] at h
        cases h

/-- The first use of an id. -/
theorem Protected.consume (h : s.Protected hours expiryOf) {id : String} (hid : id ≠ "")
    (hfresh : ∀ t, (id, t) ∉ s.consumed) {e : Int} (he : e ∈ expiryOf id)
    (hle : e + clockSkewTolerance ≤ (now : Int) + keyTtl hours) (call : SamlCall) :
    (createSession
      { s with
        assertions := s.assertions.put id () (some (now + keyTtl hours))
        consumed := (id, now) :: s.consumed } call id).1.Protected hours expiryOf := by
  have hstored : ∀ x t, (x, t) ∈ (id, now) :: s.consumed → ∃ entry,
      s.assertions.put id () (some (now + keyTtl hours)) x = some entry ∧
        entry.expireAt = some (t + keyTtl hours) := by
    intro x t hmem
    rcases List.mem_cons.mp hmem with heq | hmem
    · obtain ⟨rfl, rfl⟩ := Prod.mk.inj heq
      exact ⟨_, KeySpace.put_self _ _, rfl⟩
    · have hne : x ≠ id := fun hx => hfresh t (hx ▸ hmem)
      obtain ⟨entry, hentry, hexpireAt⟩ := h.stored x t hmem
      exact ⟨entry, by rw [KeySpace.put_of_ne hne, hentry], hexpireAt⟩
  have hpasses : ∀ x t, (x, t) ∈ (id, now) :: s.consumed →
      ∃ e ∈ expiryOf x, e + clockSkewTolerance ≤ (t : Int) + keyTtl hours := by
    intro x t hmem
    rcases List.mem_cons.mp hmem with heq | hmem
    · obtain ⟨rfl, rfl⟩ := Prod.mk.inj heq
      exact ⟨e, he, hle⟩
    · exact h.passes x t hmem
  have hnodup : (((id, now) :: s.consumed).map (·.1)).Nodup := by
    rw [List.map_cons, List.nodup_cons]
    refine ⟨fun hmem => ?_, h.nodup⟩
    obtain ⟨⟨x, t⟩, hx, rfl⟩ := List.mem_map.mp hmem
    exact hfresh t hx
  rw [createSession]
  split
  · refine ⟨hstored, hpasses, hnodup, ?_⟩
    show ((id :: s.created).filter (· ≠ "")).Sublist _
    rw [List.filter_cons_of_pos (by simpa using hid)]
    exact h.created.cons_cons id
  · exact ⟨hstored, hpasses, hnodup, h.created.cons id⟩

theorem Protected.consumeAssertion (h : s.Protected hours expiryOf) {attrs : SamlAttributes}
    (hvalid : attrs.isExpired now = false)
    (hpasses : attrs.assertionId ≠ "" → attrs.expiry = expiryOf attrs.assertionId ∧
      ∃ t ∈ attrs.expiry, t + clockSkewTolerance ≤ (now : Int) + keyTtl hours) (call : SamlCall) :
    (s.consumeAssertion hours now call attrs.assertionId).1.Protected hours expiryOf := by
  rw [SamlLogins.consumeAssertion]
  by_cases hid : attrs.assertionId = ""
  · rw [if_pos hid, createSession]
    split
    · exact ⟨h.stored, h.passes, h.nodup, by simpa [hid] using h.created⟩
    · exact h
  · rw [if_neg hid]
    obtain ⟨hexpiry, e, he, hle⟩ := hpasses hid
    cases hlookup : s.assertions.lookup now attrs.assertionId with
    | some entry => exact h
    | none =>
      refine h.consume hid (fun t hconsumed => ?_) (hexpiry ▸ he) hle call
      -- the id was stored before: it has been forgotten, so its assertion has passed
      rcases h.forgotten now hconsumed hexpiry with hexpired | hstored
      · cases hvalid.symm.trans hexpired
      · rw [hlookup] at hstored
        cases hstored

theorem Protected.processSamlCallback (h : s.Protected hours expiryOf) {call : SamlCall}
    (hok : PassesInTime hours expiryOf s (now, .callback call)) :
    (s.processSamlCallback hours now call).1.Protected hours expiryOf := by
  have hrequests : ∀ requests, ({ s with requests := requests }).Protected hours expiryOf :=
    fun _ => ⟨h.stored, h.passes, h.nodup, h.created⟩
  rw [SamlLogins.processSamlCallback]
  split
  · exact h
  · split
    · exact h
    · split
      · exact hrequests _
      next attrs hparsed =>
        split
        · exact hrequests _
        next hvalid =>
          exact (hrequests _).consumeAssertion (isExpired_of_validate hvalid) (hok attrs hparsed) call

/-- One event. -/
theorem Protected.step (h : s.Protected hours expiryOf) {event : Nat × SamlEvent}
    (hok : PassesInTime hours expiryOf s event) (hstep : s.step hours event = some s') :
    s'.Protected hours expiryOf := by
  obtain ⟨now, event⟩ := event
  have hclock : ({ s with clock := now }).Protected hours expiryOf :=
    ⟨h.stored, h.passes, h.nodup, h.created⟩
  by_cases hnow : s.clock ≤ now
  · simp only [SamlLogins.step, if_pos hnow] at hstep
    cases event with
    | initiate requestId providerId =>
      obtain rfl := Option.some.inj hstep
      exact ⟨h.stored, h.passes, h.nodup, h.created⟩
    | callback call =>
      obtain rfl := Option.some.inj hstep
      exact hclock.processSamlCallback hok
  · simp only [SamlLogins.step, if_neg hnow] at hstep
    cases hstep

/-- **Single use.**  In every run in which every assertion that is presented passes before its
id would be forgotten, no id leads to two sessions: one that was stored and is presented again
has passed, or is still stored. -/
theorem assertion_single_use {start : SamlLogins} (hconsumed : start.consumed = [])
    (hcreated : start.created = [])
    (h : Reaches (step hours) (PassesInTime hours expiryOf) start s) :
    (s.created.filter (· ≠ "")).Nodup ∧
      ∀ now call attrs t, PassesInTime hours expiryOf s (now, .callback call) →
        call.parsed = some attrs → (attrs.assertionId, t) ∈ s.consumed → attrs.assertionId ≠ "" →
          attrs.isExpired now = true ∨
            (s.assertions.lookup now attrs.assertionId).isSome = true := by
  have hstart : start.Protected hours expiryOf :=
    ⟨by simp [hconsumed], by simp [hconsumed], by simp [hconsumed], by simp [hcreated]⟩
  have hprotected := h.invariant hstart fun _ _ _ hp hok hstep => hp.step hok hstep
  refine ⟨hprotected.created.nodup hprotected.nodup, ?_⟩
  intro now call attrs t hok hparsed hmem hid
  exact hprotected.forgotten now hmem (hok attrs hparsed hid).1

/-! ## Two assertions -/

instance (s : SamlLogins) (event : Nat × SamlEvent) :
    Decidable (PassesInTime hours expiryOf s event) := by
  obtain ⟨now, event⟩ := event
  cases event with
  | initiate => exact .isTrue trivial
  | callback call => unfold PassesInTime; infer_instance

/-- No logins yet. -/
def noLogins : SamlLogins := ⟨0, fun _ => none, fun _ => none, [], []⟩

/-- A login with an assertion that is valid until the given second. -/
def loginWith (validUntil : Int) (now : Nat) (requestId : String) : List (Nat × SamlEvent) :=
  [(now, .initiate requestId "p1"),
   (now, .callback
     { provider := ⟨"p1", some "https://idp.example.com"⟩
       requestId := requestId
       parsed := some ⟨"https://idp.example.com", .absent, some validUntil, "a1"⟩
       creates := true })]

/-- An assertion valid for an hour is presented again after two. -/
theorem short_assertion_single_use :
    ∃ s, Reaches (step 8) (PassesInTime 8 fun _ => some (3600 * 1000000)) noLogins s ∧
      s.consumed = [("a1", 0)] ∧ (s.created.filter (· ≠ "")).Nodup := by
  have hrun : (runSteps (step 8) (PassesInTime 8 fun _ => some (3600 * 1000000)) noLogins
      (loginWith 3600 0 "r1" ++ loginWith 3600 (7200 * 1000000) "r2")).map (·.consumed) =
      some [("a1", 0)] := by decide +kernel
  obtain ⟨s, hs, hconsumed⟩ := Option.map_eq_some_iff.mp hrun
  have hreaches := reaches_of_runSteps hs
  exact ⟨s, hreaches, hconsumed, (assertion_single_use rfl rfl hreaches).1⟩

/-- An assertion valid for a day is presented again after nine hours, with a new request id:
by then its id is forgotten. -/
theorem replayed_after_ttl :
    ∃ s, Reaches (step 8) (fun _ _ => True) noLogins s ∧ ¬ (s.created.filter (· ≠ "")).Nodup := by
  have hrun : (runSteps (step 8) (fun _ _ => True) noLogins
      (loginWith 86400 0 "r1" ++ loginWith 86400 (32400 * 1000000) "r2")).map (·.created) =
      some ["a1", "a1"] := by decide +kernel
  obtain ⟨s, hs, hcreated⟩ := Option.map_eq_some_iff.mp hrun
  refine ⟨s, reaches_of_runSteps hs, ?_⟩
  rw [hcreated]
  decide

end SamlLogins
end QueryCraft
