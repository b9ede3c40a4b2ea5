import QueryCraft.PipelineFrame

/-! # What the pipeline stores can be read back

Every record that `submit_question` stores is an attempt of the request whose evaluator
result fits its state, with one exception.  `_raise_timeout` sets the state to `TIMEOUT`
and stores the attempt as it finds it.  If the deadline is found expired once the attempt
was stored as `REJECTED`, the attempt still has its evaluator result, and the record that
`_raise_timeout` writes is one that `get_attempt` deletes as corrupt.

The other condition is on the request: a chat session id is taken as the client spells it,
`uuid.UUID` accepts spellings that are not canonical, and `get_attempt` does not.
-/
namespace QueryCraft
namespace QueryPipeline

/-! ## The condition -/

/-- How far a run has gone towards a timeout of a rejected attempt. -/
inductive Lateness where
  | onTime
  /-- The attempt was stored as rejected. -/
  | rejected
  /-- After that the deadline was found expired. -/
  | overdue
  /-- After that the chat session was found active. -/
  | late
deriving DecidableEq, Repr

/-- One exchange. -/
def Lateness.advance : Lateness → (c : Command) → Response c → Lateness
  | .onTime, c, reply =>
    if c.operation.storesRejected then
      if foundExpired c reply then .overdue else .rejected
    else .onTime
  | .rejected, c, reply => if foundExpired c reply then .overdue else .rejected
  | .overdue, ⟨.sessionCancelled _, _⟩, .answer false => .late
  | .overdue, _, _ => .overdue
  | .late, _, _ => .late

/-- A whole run. -/
def lateness (trace : List (Exchange Response)) : Lateness :=
  trace.foldl (fun phase e => phase.advance e.command e.reply) .onTime

/-- The attempt that an exchange stores. -/
def Operation.stored? : Operation → Option EphemeralAttempt
  | .storeAttempt attempt _ => some attempt
  | _ => none

/-- The request names its chat session canonically, or not at all. -/
def SubmitRequest.NamesCanonically (r : SubmitRequest) : Prop :=
  ∀ chat ∈ r.chatSessionId, isCanonicalUuid chat = true

/-- What the exchange stores is what `get_attempt` returns to the request's session and
user. -/
def ReadsBack (cipher : AttemptCipher) (r : SubmitRequest) (operation : Operation) : Prop :=
  ∀ attempt http, operation = .storeAttempt attempt http → ∀ ivs,
    (getAttempt cipher (some (serializedAttempt cipher ivs attempt http)) r.attemptId.text
      r.httpSessionId r.userId.text).1 = .ok attempt

/-! ## The monitor -/

/-- What is watched: the lateness, and whether everything stored so far is consistent. -/
structure Watch where
  lateness : Lateness
  consistent : Prop

/-- Attempts of the request are stored. -/
def watch (r : SubmitRequest) : Monitor Response Watch where
  allows _ c := ∀ attempt http, c.operation = .storeAttempt attempt http →
    http = r.httpSessionId ∧ ∃ chat, r.Opens chat ∧ OfRequest r chat attempt
  advance h c reply :=
    ⟨h.lateness.advance c reply, h.consistent ∧ ∀ attempt ∈ c.operation.stored?, Consistent attempt⟩

/-- The last word: everything stored is consistent unless the run was late. -/
def Settled (h : Watch) : Prop := h.consistent ↔ h.lateness ≠ .late

section Proof
variable {service : QueryService} {r : SubmitRequest} {chat : String} {h : Watch} {s : Locals}
variable {operation : Operation}

theorem Lateness.advance_ne_late {phase : Lateness} {c : Command} {reply : Response c}
    (hlate : phase ≠ .late)
    (hmarker : phase ≠ .overdue ∨ ∀ chat, c.operation ≠ .sessionCancelled chat) :
    phase.advance c reply ≠ .late := by
  cases phase with
  | onTime =>
    rw [Lateness.advance]
    split <;> (try split) <;> simp
  | rejected =>
    rw [Lateness.advance]
    split <;> simp
  | overdue =>
    rcases hmarker with hphase | hmarker
    · exact absurd rfl hphase
    · unfold Lateness.advance
      split <;> simp_all
  | late => exact absurd rfl hlate

/-- An exchange that stores nothing, and does not find the session of an overdue attempt
active. -/
theorem Settled.advance {c : Command} {reply : Response c} (hsettled : Settled h)
    (hstore : c.operation.stored? = none)
    (hmarker : h.lateness ≠ .overdue ∨ ∀ chat, c.operation ≠ .sessionCancelled chat) :
    Settled ((watch r).advance h c reply) := by
  have hconsistent : ((watch r).advance h c reply).consistent ↔ h.consistent := by
    simp [watch, hstore]
  rw [Settled] at hsettled ⊢
  rw [hconsistent, hsettled]
  by_cases hlate : h.lateness = .late
  · simp [watch, hlate, Lateness.advance]
  · exact iff_of_true hlate (Lateness.advance_ne_late hlate hmarker)

theorem watch_allows {g : Watch} {c : Command} (hstore : c.operation.stored? = none) :
    (watch r).allows g c := by
  intro attempt http heq
  rw [heq] at hstore
  cases hstore

theorem keeps_settled (hstore : operation.stored? = none)
    (hmarker : ∀ chat, operation ≠ .sessionCancelled chat) : Keeps (watch r) Settled operation :=
  fun _ _ hs => ⟨watch_allows hstore, fun _ => hs.advance hstore (.inr hmarker)⟩

theorem discardInvalidatedAttempt_settled :
    Ensures (watch r) (fun h _ => Settled h) discardInvalidatedAttempt (fun _ h _ => Settled h)
      (fun _ h _ => Settled h) :=
  discardInvalidatedAttempt_keeps (keeps_settled rfl (by simp)) fun _ =>
    keeps_settled rfl (by simp)

theorem persistAudit_settled {event : LogRequest} :
    Ensures (watch r) (fun h _ => Settled h) (persistAudit event) (fun _ h _ => Settled h)
      (fun _ h _ => Settled h) :=
  persistAudit_keeps (keeps_settled rfl (by simp)) (keeps_settled rfl (by simp))

theorem cleanup_settled :
    Ensures (watch r) (fun h _ => Settled h) (cleanup r) (fun _ h _ => Settled h)
      (fun _ h _ => Settled h) :=
  cleanup_keeps (fun _ => keeps_settled rfl (by simp)) fun _ _ => keeps_settled rfl (by simp)

/-! ## Timeouts -/

/-- Nothing was rejected, and everything stored is consistent. -/
structure OnTime (h : Watch) : Prop where
  lateness : h.lateness = .onTime
  consistent : h.consistent

theorem OnTime.settled (ht : OnTime h) : Settled h :=
  iff_of_true ht.consistent (by simp [ht.lateness])

/-- An exchange that stores nothing, or a consistent attempt that is not rejected. -/
theorem OnTime.advance {c : Command} {reply : Response c} (ht : OnTime h)
    (hstore : ∀ attempt ∈ c.operation.stored?, Consistent attempt ∧ attempt.state ≠ .rejected) :
    OnTime ((watch r).advance h c reply) := by
  refine ⟨?_, ht.consistent, fun attempt hattempt => (hstore attempt hattempt).1⟩
  have hrejects : c.operation.storesRejected = false := by
    cases hop : c.operation with
    | storeAttempt attempt http =>
      have := (hstore attempt (by simp [hop, Operation.stored?])).2
      simp [Operation.storesRejected, this]
    | _ => rfl
  simp [watch, ht.lateness, Lateness.advance, hrejects]

/-- The attempt of the locals, if there is one, is one of the request that was not
rejected. -/
def Unrejected (r : SubmitRequest) (s : Locals) : Prop :=
  ∀ attempt ∈ s.attempt, (∃ chat, r.Opens chat ∧ OfRequest r chat attempt) ∧
    attempt.evaluatorResult = none

/-- The attempt of the locals was rejected, and its deadline is over. -/
structure RejectedOverdue (r : SubmitRequest) (h : Watch) (s : Locals) : Prop where
  lateness : h.lateness = .overdue
  consistent : h.consistent
  attempt : ∃ chat attempt, s.chatSessionId = some chat ∧ s.attempt = some attempt ∧
    r.Opens chat ∧ OfRequest r chat attempt ∧ attempt.evaluatorResult.isSome = true

theorem await_onTime {P : Locals → Prop} (hstore : operation.stored? = none)
    (hfired : ∀ s, P s → P s.timerFired) :
    Ensures (watch r) (fun h s => OnTime h ∧ P s) (await operation) (fun _ h s => OnTime h ∧ P s)
      (fun _ h s => OnTime h ∧ P s) :=
  ensures_await (fun _ _ _ => watch_allows hstore)
    (fun _ _ _ ht => ⟨ht.1.advance (by simp [hstore]), ht.2⟩)
    (fun _ _ _ ht => ⟨ht.1.advance (by simp [hstore]), hfired _ ht.2⟩)

theorem ensureChatSessionActive_onTime {P : Locals → Prop} (hfired : ∀ s, P s → P s.timerFired)
    (named : Option String) :
    Ensures (watch r) (fun h s => OnTime h ∧ P s) (ensureChatSessionActive named)
      (fun _ h s => OnTime h ∧ P s) (fun _ h s => OnTime h ∧ P s) := by
  cases named with
  | none => exact .ret fun _ _ ht => ht
  | some chat =>
    refine .bind (await_onTime rfl hfired) fun marked => ?_
    cases marked with
    | false => exact .ret fun _ _ ht => ht
    | true => exact .raise fun _ _ ht => ht

theorem Unrejected.timerFired (hs : Unrejected r s) : Unrejected r s.timerFired := hs

/-- The attempt of the locals, if there is one, is about to be stored as timed out. -/
def TimingOut (r : SubmitRequest) (s : Locals) : Prop :=
  Unrejected r s ∧ ∀ attempt ∈ s.attempt, attempt.state = .timeout

theorem updateTimeout_onTime :
    Ensures (watch r) (fun h s => OnTime h ∧ Unrejected r s)
      (updateAttempt fun attempt => { attempt with state := .timeout })
      (fun _ h s => OnTime h ∧ TimingOut r s) (fun _ h _ => OnTime h) := by
  apply Ensures.update
  rintro h s ⟨ht, hs⟩
  refine ⟨ht, ?_, ?_⟩
  · intro attempt hattempt
    obtain ⟨a, ha, rfl⟩ := Option.map_eq_some_iff.mp hattempt
    obtain ⟨⟨chat, hopens, hof⟩, hnone⟩ := hs a ha
    exact ⟨⟨chat, hopens, hof.changed _ _ _⟩, hnone⟩
  · intro attempt hattempt
    obtain ⟨a, -, rfl⟩ := Option.map_eq_some_iff.mp hattempt
    rfl

theorem storeAttempt_onTime :
    Ensures (watch r) (fun h s => OnTime h ∧ TimingOut r s) (storeAttempt r)
      (fun _ h _ => OnTime h) (fun _ h _ => OnTime h) := by
  rintro h s ⟨ht, hs, hstate⟩
  cases hattempt : s.attempt with
  | none =>
    rw [storeAttempt_none hattempt]
    exact ht
  | some attempt =>
    obtain ⟨hof, hnone⟩ := hs attempt hattempt
    have htimeout := hstate attempt hattempt
    have hadvance : ∀ (c : Command) (reply : Response c),
        c.operation = .storeAttempt attempt r.httpSessionId →
        OnTime ((watch r).advance h c reply) := by
      intro c reply hc
      apply ht.advance
      intro a ha
      obtain rfl : attempt = a := by simpa [hc, Operation.stored?] using ha
      exact ⟨⟨by simp [hnone, htimeout], by simp [hnone]⟩, by simp [htimeout]⟩
    rw [storeAttempt_eq hattempt]
    refine ⟨?_, fun reply => ?_⟩
    · intro a http heq
      obtain ⟨rfl, rfl⟩ := Operation.storeAttempt.inj heq
      exact ⟨rfl, hof⟩
    · cases reply with
      | answer a => exact hadvance _ _ rfl
      | cancelled armed => exact hadvance _ _ rfl

/-- A timeout before the attempt was rejected. -/
theorem storeTimeout_onTime {named : Option String} :
    Ensures (watch r) (fun h s => OnTime h ∧ Unrejected r s) (storeTimeout r named)
      (fun _ h _ => OnTime h) (fun _ h _ => OnTime h) := by
  have hrest : Ensures (watch r) (fun h (_ : Locals) => OnTime h ∧ True)
      (do
        await (.deleteActiveAttempt r.httpSessionId)
        ensureChatSessionActive named)
      (fun _ h _ => OnTime h ∧ True) (fun _ h _ => OnTime h ∧ True) :=
    .bind (await_onTime rfl fun _ _ => trivial) fun _ =>
      ensureChatSessionActive_onTime (fun _ _ => trivial) named
  refine .bind ((ensureChatSessionActive_onTime (fun _ hs => hs.timerFired) named).mono
    (fun _ _ ht => ht) (fun _ _ _ ht => ht) (fun _ _ _ ht => ht.1)) fun _ => ?_
  refine .bind updateTimeout_onTime fun _ => .bind storeAttempt_onTime fun _ => ?_
  exact hrest.mono (fun _ _ ht => ⟨ht, trivial⟩) (fun _ _ _ ht => ht.1) (fun _ _ _ ht => ht.1)

/-- A run that was late and has stored an attempt that is not consistent. -/
def Spoiled (h : Watch) : Prop := h.lateness = .late ∧ ¬ h.consistent

theorem Spoiled.settled (hs : Spoiled h) : Settled h := by
  rw [Settled, hs.1]
  simp [hs.2]

theorem Spoiled.advance {c : Command} {reply : Response c} (hs : Spoiled h) :
    Spoiled ((watch r).advance h c reply) :=
  ⟨by simp [watch, hs.1, Lateness.advance], fun hconsistent => hs.2 hconsistent.1⟩

theorem keeps_spoiled (hstore : operation.stored? = none) : Keeps (watch r) Spoiled operation :=
  fun _ _ hs => ⟨watch_allows hstore, fun _ => hs.advance⟩

/-- The attempt of the locals was rejected, its deadline is over, and its session was found
active; it has the given state. -/
structure RejectedLate (r : SubmitRequest) (P : AttemptState → Prop) (h : Watch) (s : Locals) :
    Prop where
  lateness : h.lateness = .late
  attempt : ∃ attempt, s.attempt = some attempt ∧ (∃ chat, r.Opens chat ∧ OfRequest r chat attempt) ∧
    attempt.evaluatorResult.isSome = true ∧ P attempt.state

/-- The marker of the chat session, for a rejected attempt whose deadline is over. -/
theorem ensureSessionActive_overdue :
    Ensures (watch r) (fun h s => RejectedOverdue r h s ∧ s.chatSessionId = some chat)
      (ensureSessionActive chat)
      (fun _ => RejectedLate r fun _ => True) (fun _ h _ => Settled h) := by
  have hread : Ensures (watch r) (fun h s => RejectedOverdue r h s ∧ s.chatSessionId = some chat)
      (await (.sessionCancelled chat))
      (fun marked h s => if marked then Settled h else RejectedLate r (fun _ => True) h s)
      (fun _ h _ => Settled h) := by
    refine ensures_await (fun _ _ _ => watch_allows rfl) ?_ ?_
    · rintro h s marked ⟨⟨hlate, hconsistent, c, attempt, -, hattempt, hopens, hof, hsome⟩, -⟩
      cases marked with
      | true =>
        refine iff_of_true ⟨hconsistent, by simp [Operation.stored?]⟩ ?_
        simp [watch, hlate, Lateness.advance]
      | false =>
        exact ⟨by simp [watch, hlate, Lateness.advance], attempt, hattempt, ⟨c, hopens, hof⟩,
          hsome, trivial⟩
    · rintro h s armed ⟨⟨hlate, hconsistent, -⟩, -⟩
      refine iff_of_true ⟨hconsistent, by simp [Operation.stored?]⟩ ?_
      simp [watch, hlate, Lateness.advance]
  refine .bind hread fun marked => ?_
  cases marked with
  | true => exact .raise fun _ _ hs => hs
  | false => exact .ret fun _ _ hs => hs

theorem updateTimeout_late :
    Ensures (watch r) (RejectedLate r fun _ => True)
      (updateAttempt fun attempt => { attempt with state := .timeout })
      (fun _ => RejectedLate r (· = .timeout)) (fun _ h _ => Settled h) := by
  apply Ensures.update
  rintro h s ⟨hlate, attempt, hattempt, ⟨c, hopens, hof⟩, hsome, -⟩
  exact ⟨hlate, { attempt with state := .timeout }, by simp [hattempt],
    ⟨c, hopens, hof.changed _ _ _⟩, hsome, rfl⟩

theorem storeAttempt_late :
    Ensures (watch r) (RejectedLate r (· = .timeout)) (storeAttempt r) (fun _ h _ => Spoiled h)
      (fun _ h _ => Settled h) := by
  rintro h s ⟨hlate, attempt, hattempt, hof, hsome, hstate⟩
  have hspoiled : ∀ (c : Command) (reply : Response c),
      c.operation = .storeAttempt attempt r.httpSessionId →
      Spoiled ((watch r).advance h c reply) := by
    intro c reply hc
    refine ⟨by simp [watch, hlate, Lateness.advance], fun hconsistent => ?_⟩
    have hrejected := (hconsistent.2 attempt (by simp [hc, Operation.stored?])).1.mp hsome
    rw [hstate] at hrejected
    cases hrejected
  rw [storeAttempt_eq hattempt]
  refine ⟨?_, fun reply => ?_⟩
  · intro a http heq
    obtain ⟨rfl, rfl⟩ := Operation.storeAttempt.inj heq
    exact ⟨rfl, hof⟩
  · cases reply with
    | answer a => exact hspoiled _ _ rfl
    | cancelled armed => exact (hspoiled _ _ rfl).settled

/-- **A timeout of a rejected attempt.**  If the session is found active, the attempt is
stored with an evaluator result that does not fit its state. -/
theorem storeTimeout_overdue {named : Option String} :
    Ensures (watch r) (fun h s => RejectedOverdue r h s ∧ s.chatSessionId = named)
      (storeTimeout r named) (fun _ h _ => Settled h) (fun _ h _ => Settled h) := by
  cases named with
  | none =>
    rintro h s ⟨⟨-, -, c, -, hchat, -⟩, hnone⟩
    rw [hnone] at hchat
    cases hchat
  | some chat =>
    have hrest : Ensures (watch r) (fun h _ => Spoiled h)
        (do
          await (.deleteActiveAttempt r.httpSessionId)
          ensureChatSessionActive (some chat))
        (fun _ h _ => Spoiled h) (fun _ h _ => Spoiled h) :=
      .bind (await_keeps (keeps_spoiled rfl)) fun _ =>
        ensureChatSessionActive_keeps (fun _ => keeps_spoiled rfl) _
    refine .bind ensureSessionActive_overdue fun _ => ?_
    refine .bind updateTimeout_late fun _ => .bind storeAttempt_late fun _ => ?_
    exact hrest.mono (fun _ _ hs => hs) (fun _ _ _ hs => hs.settled) (fun _ _ _ hs => hs.settled)

/-! ## The handlers -/

/-- An exception of the `try` body: nothing was rejected, or the attempt was, and then an
exception that stands for a timeout comes after the deadline was found expired. -/
def Raising (r : SubmitRequest) (e : Raised) (h : Watch) (s : Locals) : Prop :=
  (OnTime h ∧ Unrejected r s) ∨
    (Settled h ∧ (e = .deadlineExpired ∨ e = .cancelled → RejectedOverdue r h s))

theorem Raising.settled {e : Raised} (hs : Raising r e h s) : Settled h := by
  rcases hs with ⟨ht, -⟩ | ⟨hs, -⟩
  · exact ht.settled
  · exact hs

/-- The handlers disarm the timer. -/
theorem Raising.disarmed {e : Raised} (hs : Raising r e h s) :
    Raising r e h { s with timerArmed := false } := by
  rcases hs with hs | ⟨hs, hoverdue⟩
  · exact .inl hs
  · refine .inr ⟨hs, fun he => ?_⟩
    obtain ⟨hlate, hconsistent, hattempt⟩ := hoverdue he
    exact ⟨hlate, hconsistent, hattempt⟩

theorem raiseTimeout_settled {α : Type} :
    Ensures (watch r) (fun h s => (OnTime h ∧ Unrejected r s) ∨ RejectedOverdue r h s)
      (raiseTimeout r : Pipeline α) (fun _ h _ => Settled h) (fun _ h _ => Settled h) := by
  have hstore : Ensures (watch r)
      (fun h s => (OnTime h ∧ Unrejected r s) ∨ RejectedOverdue r h s)
      (do storeTimeout r (← get).chatSessionId) (fun _ h _ => Settled h)
      (fun _ h _ => Settled h) := by
    intro h s hs
    rcases hs with hs | hs
    · exact (storeTimeout_onTime.mono (fun _ _ ht => ht) (fun _ _ _ ht => ht.settled)
        (fun _ _ _ ht => ht.settled)) h s hs
    · exact storeTimeout_overdue h s ⟨hs, rfl⟩
  refine .bind (.tryCatch hstore fun e => ?_) fun _ => ?_
  · cases e with
    | sessionInvalidated =>
      exact .bind discardInvalidatedAttempt_settled fun _ => .raise fun _ _ hs => hs
    | _ => exact .raise fun _ _ hs => hs
  · refine .bind .readKeep fun locals => ?_
    exact .bind persistAudit_settled fun _ => .raise fun _ _ hs => hs

theorem handle_settled {α : Type} (e : Raised) :
    Ensures (watch r) (Raising r e) (handle r e : Pipeline α) (fun _ h _ => Settled h)
      (fun _ h _ => Settled h) := by
  have hother : Ensures (watch r) (Raising r e) (throw e : Pipeline α) (fun _ h _ => Settled h)
      (fun _ h _ => Settled h) :=
    .raise fun _ _ hs => hs.settled
  cases e with
  | sessionInvalidated =>
    refine Ensures.mono (show Ensures (watch r) (fun h _ => Settled h) _ _ _ from
      .bind discardInvalidatedAttempt_settled fun _ => .raise fun _ _ hs => hs)
      (fun _ _ hs => hs.settled) (fun _ _ _ hs => hs) (fun _ _ _ hs => hs)
  | deadlineExpired =>
    refine .bind (.updateKeep fun _ _ hs => hs.disarmed) fun _ => ?_
    refine raiseTimeout_settled.mono ?_ (fun _ _ _ hs => hs) (fun _ _ _ hs => hs)
    rintro h s (hs | ⟨-, hs⟩)
    · exact .inl hs
    · exact .inr (hs (.inl rfl))
  | cancelled =>
    refine .bind (show Ensures _ _ _ (fun _ => Raising r .cancelled) _ from ?_) fun _ => ?_
    · refine .bind .readKeep fun locals => ?_
      cases locals.cancelledTask with
      | true => exact .ret fun _ _ hs => hs
      | false => exact .raise fun _ _ hs => hs.settled
    refine .bind (.updateKeep fun _ _ hs => hs.disarmed) fun _ => ?_
    refine raiseTimeout_settled.mono ?_ (fun _ _ _ hs => hs) (fun _ _ _ hs => hs)
    rintro h s (hs | ⟨-, hs⟩)
    · exact .inl hs
    · exact .inr (hs (.inr rfl))
  | http | rejected | timedOut | source | failure => exact hother

/-! ## The body -/

/-- The part before the attempt exists. -/
theorem preparation_watch {g : Unit} {c : Command} (ht : OnTime h)
    (hc : preparation.allows g c) :
    (watch r).allows h c ∧ ∀ reply, OnTime ((watch r).advance h c reply) := by
  have hstore : c.operation.stored? = none := by
    replace hc : c.operation.isPreparatory = true := hc
    cases hop : c.operation with
    | storeAttempt attempt http => rw [hop] at hc; cases hc
    | _ => rfl
  exact ⟨watch_allows hstore, fun _ => ht.advance (by simp [hstore])⟩

/-- The registration. -/
theorem registration_watch {g : Unit} {c : Command} {attempt : EphemeralAttempt}
    (hopens : r.Opens chat) (hof : OfRequest r chat attempt) (hconsistent : Consistent attempt)
    (hresult : attempt.evaluatorResult = none) (ht : OnTime h)
    (hc : (registration r attempt).allows g c) :
    (watch r).allows h c ∧ ∀ reply, OnTime ((watch r).advance h c reply) := by
  replace hc : c.operation.registers r attempt := hc
  have hstored : ∀ a http, c.operation = .storeAttempt a http → a = attempt ∧ http = r.httpSessionId := by
    intro a http hop
    rw [hop] at hc
    exact hc
  refine ⟨?_, fun _ => ht.advance ?_⟩
  · intro a http hop
    obtain ⟨rfl, rfl⟩ := hstored a http hop
    exact ⟨rfl, chat, hopens, hof⟩
  · intro a ha
    obtain ⟨http, hop⟩ : ∃ http, c.operation = .storeAttempt a http := by
      cases hop : c.operation with
      | storeAttempt b http =>
        rw [hop] at ha
        obtain rfl := Option.some.inj ha
        exact ⟨http, rfl⟩
      | _ => rw [hop] at ha; cases ha
    obtain ⟨rfl, -⟩ := hstored a http hop
    refine ⟨hconsistent, fun hstate => ?_⟩
    have := hconsistent.evaluatorMatchesState.mpr hstate
    simp [hresult] at this

/-- How late a stage is. -/
def Progress.lateness (g : Progress) : Lateness :=
  if g.overdue then .overdue else if g.rejected then .rejected else .onTime

/-- The stages. -/
theorem stages_watch {g : Progress} {c : Command} (hopens : r.Opens chat)
    (hrel : h.consistent ∧ h.lateness = g.lateness) (hc : (stages r chat).allows g c) :
    (watch r).allows h c ∧ ∀ reply, ((watch r).advance h c reply).consistent ∧
      ((watch r).advance h c reply).lateness = ((stages r chat).advance g c reply).lateness := by
  obtain ⟨hoverdue, -, -, hstore⟩ := hc
  refine ⟨?_, fun reply => ⟨⟨hrel.1, ?_⟩, ?_⟩⟩
  · intro attempt http hop
    rw [hop] at hstore
    obtain ⟨hhttp, hof, -⟩ := hstore
    exact ⟨hhttp, chat, hopens, hof⟩
  · intro attempt hattempt
    cases hop : c.operation with
    | storeAttempt b http =>
      rw [hop] at hattempt hstore
      obtain rfl := Option.some.inj hattempt
      exact hstore.2.2
    | _ => rw [hop] at hattempt; cases hattempt
  · show h.lateness.advance c reply = (g.advance c reply).lateness
    rw [hrel.2]
    cases hr : g.rejected <;> cases hs : c.operation.storesRejected <;>
      cases he : foundExpired c reply <;>
      simp [Progress.lateness, Progress.advance, Lateness.advance, hoverdue, hr, hs, he]

theorem Unsubmitted.unrejected (hs : Unsubmitted service r s) : Unrejected r s := by
  intro attempt hattempt
  obtain ⟨chat, connection, hopens, rfl⟩ := hs attempt hattempt
  exact ⟨⟨chat, hopens, ofRequest_newAttempt⟩, rfl⟩

theorem Submitting.unrejected {connection : Uuid} (hs : Submitting service r chat connection s) :
    Unrejected r s := by
  intro attempt hattempt
  rw [hs.inHand.current] at hattempt
  obtain rfl := Option.some.inj hattempt
  exact ⟨⟨chat, hs.opens, hs.inHand.ofRequest⟩, rfl⟩

theorem Submitting.timerFired {connection : Uuid} (hs : Submitting service r chat connection s) :
    Submitting service r chat connection s.timerFired :=
  ⟨hs.opens, hs.connectionId, hs.inHand.timerFired⟩

/-- An exception of a stage. -/
theorem Leaving.raising {rejected : Bool} {e : Raised} {g : Progress} (hopens : r.Opens chat)
    (hs : Leaving r chat rejected e g s) (hconsistent : h.consistent)
    (hlateness : h.lateness = g.lateness) : Raising r e h s := by
  obtain ⟨attempt, hand, hresult⟩ := hs.inHand
  cases rejected with
  | false =>
    have hoverdue : g.overdue = false := by
      by_contra ho
      cases hs.overdue (by simpa using ho)
    refine .inl ⟨⟨?_, hconsistent⟩, ?_⟩
    · rw [hlateness]
      simp [Progress.lateness, hoverdue, hs.isRejected]
    · intro a ha
      rw [hand.current] at ha
      obtain rfl := Option.some.inj ha
      exact ⟨⟨chat, hopens, hand.ofRequest⟩, by simpa using hresult⟩
  | true =>
    refine .inr ⟨iff_of_true hconsistent ?_, fun he => ⟨?_, hconsistent, chat, attempt,
      hand.chatSessionId, hand.current, hopens, hand.ofRequest, hresult⟩⟩
    · rw [hlateness, Progress.lateness]
      split <;> (try split) <;> simp
    · rw [hlateness]
      simp [Progress.lateness, hs.expired rfl he]

theorem answerQuestion_watch {user : UserRow} {connection connection' : Uuid}
    (hopens : r.Opens chat) (hconnection : service.connectionId = some connection') :
    Ensures (watch r) (fun h s => ∃ g, (h.consistent ∧ h.lateness = g.lateness) ∧
        At r chat true false g s)
      (do
        ensureOperationActive chat
        answerQuestion service r chat user connection)
      (fun _ h _ => Settled h) (Raising r) := by
  have hstages : Ensures (stages r chat) (At r chat true false)
      (do
        ensureOperationActive chat
        answerQuestion service r chat user connection)
      (fun result g s => Answered r chat g s result) (Failing r chat) :=
    .bind (ensureOperationActive_spec.mono (fun _ _ h => h) (fun _ _ _ h => h)
      (fun _ _ _ h => ⟨_, h⟩)) fun _ => answerQuestion_spec hconnection
  refine (hstages.simulate fun g h c hrel hc => stages_watch hopens hrel hc).mono
    (fun _ _ h => h) ?_ ?_
  · rintro result h s ⟨g, ⟨hconsistent, hlateness⟩, -⟩
    refine iff_of_true hconsistent ?_
    rw [hlateness, Progress.lateness]
    split <;> (try split) <;> simp
  · rintro e h s ⟨g, ⟨hconsistent, hlateness⟩, rejected, hleaving⟩
    exact hleaving.raising hopens hconsistent hlateness

theorem tryBody_watch :
    Ensures (watch r) (fun h s => OnTime h ∧ Idle r.chatSessionId s) (tryBody service r)
      (fun _ h _ => Settled h) (Raising r) := by
  have hprepare : Ensures (watch r) (fun h s => OnTime h ∧ Idle r.chatSessionId s)
      (prepareAttempt service r) (fun p h s => OnTime h ∧ Submitting service r p.2.1 p.2.2 s)
      (fun _ h s => OnTime h ∧ Unsubmitted service r s) :=
    prepareAttempt_spec (fun _ _ ht hc => preparation_watch ht hc)
      fun chat connection hopens _ _ ht hc =>
        registration_watch hopens ofRequest_newAttempt consistent_newAttempt rfl ht hc
  refine .bind (hprepare.mono (fun _ _ h => h) (fun _ _ _ h => h)
    fun _ _ _ h => .inl ⟨h.1, h.2.unrejected⟩) ?_
  rintro ⟨user, chat, connection⟩
  refine .bind ((await_onTime rfl fun _ hs => hs.timerFired).mono (fun _ _ h => h)
    (fun _ _ _ h => h) fun _ _ _ h => .inl ⟨h.1, h.2.unrejected⟩) fun done => ?_
  refine .bind (ensures_orRaise fun _ _ h => .inl ⟨h.1, h.2.unrejected⟩) fun _ => ?_
  intro h s hs
  obtain ⟨ht, hopens, hconnection, hand⟩ := hs
  refine answerQuestion_watch hopens hconnection h s ⟨⟨true, false, false⟩, ⟨ht.consistent, ?_⟩, ?_⟩
  · exact ht.lateness
  · exact ⟨rfl, rfl, rfl, _, hand, rfl⟩

theorem submitQuestion_watch :
    Ensures (watch r) (fun h s => OnTime h ∧ Idle r.chatSessionId s) (submitQuestion service r)
      (fun _ h _ => Settled h) (fun _ h _ => Settled h) := by
  have hlock : Ensures (watch r) (fun h s => OnTime h ∧ Idle r.chatSessionId s) (acquireLock r)
      (fun _ h s => OnTime h ∧ Idle r.chatSessionId s) (fun _ h _ => Settled h) := by
    refine .bind ((await_onTime rfl fun _ hs => hs.timerFired).mono (fun _ _ h => h)
      (fun _ _ _ h => h) fun _ _ _ h => h.1.settled) fun acquired => ?_
    cases acquired with
    | true => exact .ret fun _ _ h => h
    | false => exact .raise fun _ _ h => h.1.settled
  refine .bind hlock fun _ => .bind (.updateKeep fun _ _ h => ⟨h.1, ?_⟩) fun _ => ?_
  · exact ⟨h.2.chatSessionId, h.2.attempt, h.2.queryOperation, h.2.trackedAttempt⟩
  · exact .ensuring (.tryCatch tryBody_watch handle_settled) (fun _ => cleanup_settled)
      fun _ => cleanup_settled

/-! ## Whole runs -/

theorem watch_after (h : Watch) (trace : List (Exchange Response)) :
    ((watch r).after h trace).lateness =
        trace.foldl (fun phase e => phase.advance e.command e.reply) h.lateness ∧
      (((watch r).after h trace).consistent ↔ h.consistent ∧
        ∀ e ∈ trace, ∀ attempt ∈ e.command.operation.stored?, Consistent attempt) := by
  induction trace generalizing h with
  | nil => simp [Monitor.after]
  | cons e trace ih =>
    obtain ⟨hlateness, hconsistent⟩ := ih ((watch r).advance h e.command e.reply)
    refine ⟨hlateness, hconsistent.trans ?_⟩
    rw [List.forall_mem_cons, ← and_assoc]
    rfl

/-- What the request stores can be read back if and only if it is consistent and the chat
session is named canonically. -/
theorem readable_iff {attempt : EphemeralAttempt} (hopens : r.Opens chat)
    (hof : OfRequest r chat attempt) :
    attempt.Readable ↔ Consistent attempt ∧ r.NamesCanonically := by
  have hchat : (∀ c ∈ attempt.chatSessionId, isCanonicalUuid c = true) ↔ r.NamesCanonically := by
    rw [SubmitRequest.NamesCanonically, hof.chatSessionId]
    rw [SubmitRequest.Opens] at hopens
    cases hnamed : r.chatSessionId with
    | none => simpa [hnamed] using hopens
    | some named =>
      rw [hnamed] at hopens
      obtain rfl := hopens
      rfl
  constructor
  · intro hreadable
    exact ⟨⟨hreadable.evaluatorMatchesState, hreadable.evaluatorResult⟩,
      hchat.mp hreadable.chatSessionId⟩
  · rintro ⟨hconsistent, hcanonical⟩
    refine ⟨⟨?_, ?_, hchat.mpr hcanonical, ?_, ?_⟩, hconsistent.evaluatorMatchesState,
      hconsistent.evaluatorResult⟩
    · rw [hof.attemptId]
      exact r.attemptId.canonical
    · rw [hof.sessionId]
      exact r.httpSessionId_ne
    · rw [hof.userId]
      exact r.userId.canonical
    · rw [hof.attemptNumber]

theorem readsBack_store_iff {cipher : AttemptCipher} {attempt : EphemeralAttempt}
    (hof : OfRequest r chat attempt) :
    ReadsBack cipher r (.storeAttempt attempt r.httpSessionId) ↔ attempt.Readable := by
  have hsession : attempt.sessionId ≠ "" := hof.sessionId ▸ r.httpSessionId_ne
  have huser : isCanonicalUuid attempt.userId = true := hof.userId ▸ r.userId.canonical
  have hread : ∀ ivs, (getAttempt cipher (some (serializedAttempt cipher ivs attempt
      attempt.sessionId)) attempt.attemptId attempt.sessionId attempt.userId).1 = .ok attempt ↔
      attempt.Readable :=
    fun ivs => getAttempt_serialized_iff hsession huser
  rw [hof.sessionId, hof.attemptId, hof.userId] at hread
  constructor
  · intro hreads
    exact (hread ⟨0, 0, 0⟩).mp (hreads attempt _ rfl _)
  · intro hreadable a http heq ivs
    obtain ⟨rfl, rfl⟩ := Operation.storeAttempt.inj heq
    exact (hread ivs).mpr hreadable

theorem readsBack_iff {cipher : AttemptCipher} {h : Watch} {c : Command}
    (hallowed : (watch r).allows h c) :
    ReadsBack cipher r c.operation ↔
      ∀ attempt ∈ c.operation.stored?, Consistent attempt ∧ r.NamesCanonically := by
  cases hop : c.operation with
  | storeAttempt attempt http =>
    obtain ⟨rfl, chat, hopens, hof⟩ := hallowed attempt http hop
    rw [readsBack_store_iff hof, readable_iff hopens hof]
    simp [Operation.stored?]
  | _ => simp [ReadsBack, Operation.stored?]

/-- A run reads back what it stores as far as that is consistent. -/
theorem readsBack_of_runs {cipher : AttemptCipher} {trace : List (Exchange Response)}
    {outcome : Except Raised SubmitResult × Locals}
    (hruns : (submitQuestion service r r.locals).Runs trace outcome) :
    ∀ e ∈ trace, ReadsBack cipher r e.command.operation ↔
      ∀ attempt ∈ e.command.operation.stored?, Consistent attempt ∧ r.NamesCanonically := by
  obtain ⟨haccepts, -⟩ := (submitQuestion_watch ⟨.onTime, True⟩ r.locals
    ⟨⟨rfl, trivial⟩, ⟨rfl, rfl, rfl, rfl⟩⟩).accepts hruns
  exact haccepts.forall_mem (P := fun c => ReadsBack cipher r c.operation ↔
    ∀ attempt ∈ c.operation.stored?, Consistent attempt ∧ r.NamesCanonically)
    fun _ _ hallowed => readsBack_iff hallowed

/-- **Reading back.**  In every run of `submit_question`, everything that it stores is
returned by `get_attempt`, if and only if the run is not late and the request, if it gets as
far as storing its attempt, names its chat session canonically. -/
theorem stored_reads_back_iff {cipher : AttemptCipher} {trace : List (Exchange Response)}
    {outcome : Except Raised SubmitResult × Locals}
    (hruns : (submitQuestion service r r.locals).Runs trace outcome) :
    (∀ e ∈ trace, ReadsBack cipher r e.command.operation) ↔
      lateness trace ≠ .late ∧
        ((∃ e ∈ trace, e.command.operation.stored?.isSome = true) → r.NamesCanonically) := by
  obtain ⟨-, hended⟩ := (submitQuestion_watch ⟨.onTime, True⟩ r.locals
    ⟨⟨rfl, trivial⟩, ⟨rfl, rfl, rfl, rfl⟩⟩).accepts hruns
  have hsettled : Settled ((watch r).after ⟨.onTime, True⟩ trace) := by
    obtain ⟨e | a, s⟩ := outcome <;> exact hended
  obtain ⟨hlateness, hconsistent⟩ := watch_after (r := r) ⟨.onTime, True⟩ trace
  have hlate : (∀ e ∈ trace, ∀ attempt ∈ e.command.operation.stored?, Consistent attempt) ↔
      lateness trace ≠ .late := by
    rw [Settled, hlateness, hconsistent, true_and] at hsettled
    exact hsettled
  have hreads : ∀ e ∈ trace, ReadsBack cipher r e.command.operation ↔
      ∀ attempt ∈ e.command.operation.stored?, Consistent attempt ∧ r.NamesCanonically :=
    readsBack_of_runs hruns
  rw [← hlate]
  constructor
  · intro hall
    refine ⟨fun e he attempt ha => ((hreads e he).mp (hall e he) attempt ha).1, ?_⟩
    rintro ⟨e, he, hsome⟩
    obtain ⟨attempt, hattempt⟩ := Option.isSome_iff_exists.mp hsome
    exact ((hreads e he).mp (hall e he) attempt hattempt).2
  · rintro ⟨hall, hcanonical⟩ e he
    refine (hreads e he).mpr fun attempt ha => ⟨hall e he attempt ha, hcanonical ⟨e, he, ?_⟩⟩
    exact Option.isSome_iff_exists.mpr ⟨attempt, ha⟩

end Proof

/-! ## Two runs -/

/-- A question that is answered. -/
def answeredRun : List (Exchange Response) × (Except Raised SubmitResult × Locals) :=
  Program.runWith (fun _ c => .answer (goodAnswer c.operation)) []
    (submitQuestion sampleService sampleRequest sampleRequest.locals)

theorem answered_reads_back :
    lateness answeredRun.1 ≠ .late ∧
      ∀ e ∈ answeredRun.1, ReadsBack unaryCipher sampleRequest e.command.operation := by
  have hruns : (submitQuestion sampleService sampleRequest sampleRequest.locals).Runs answeredRun.1
      answeredRun.2 := Program.runs_of_runWith rfl
  have hlate : lateness answeredRun.1 ≠ .late := by decide +kernel
  refine ⟨hlate, (stored_reads_back_iff hruns).mpr ⟨hlate, fun _ chat hchat => ?_⟩⟩
  obtain rfl := Option.some.inj hchat
  decide

/-- A role without tables, and a deadline that is found expired once the rejection is
stored. -/
def deniedThenExpired (past : List (Exchange Response)) : (c : Command) → Response c
  | ⟨.resolveRolePolicy _ _, _⟩ => .answer (.value (some ⟨false, false, false⟩))
  | ⟨.deadlineExpired, _⟩ => .answer (past.any (·.command.operation.storesRejected))
  | ⟨operation, _⟩ => .answer (goodAnswer operation)

/-- A question that is rejected and then times out. -/
def lateRun : List (Exchange Response) × (Except Raised SubmitResult × Locals) :=
  Program.runWith deniedThenExpired []
    (submitQuestion sampleService sampleRequest sampleRequest.locals)

/-- The run stores a timed out attempt with an evaluator result. -/
theorem late_not_read_back :
    (submitQuestion sampleService sampleRequest sampleRequest.locals).Runs lateRun.1 lateRun.2 ∧
      ¬ ∀ e ∈ lateRun.1, ReadsBack unaryCipher sampleRequest e.command.operation := by
  have hruns : (submitQuestion sampleService sampleRequest sampleRequest.locals).Runs lateRun.1
      lateRun.2 := Program.runs_of_runWith rfl
  have hstored : lateRun.1.any (fun e => e.command.operation.stored?.any fun attempt =>
      attempt.state == .timeout && attempt.evaluatorResult.isSome) = true := by decide +kernel
  refine ⟨hruns, fun hall => ?_⟩
  obtain ⟨e, he, hany⟩ := List.any_eq_true.mp hstored
  obtain ⟨attempt, hattempt, htimeout⟩ := Option.any_eq_true _ _ |>.mp hany
  obtain ⟨hconsistent, -⟩ := (readsBack_of_runs hruns e he).mp (hall e he) attempt hattempt
  rw [Bool.and_eq_true, beq_iff_eq] at htimeout
  have hrejected := hconsistent.evaluatorMatchesState.mp htimeout.2
  rw [htimeout.1] at hrejected
  cases hrejected

end QueryPipeline
end QueryCraft
