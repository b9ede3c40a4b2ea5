import QueryCraft.Calendar
import QueryCraft.Expiring
import QueryCraft.Transitions

/-! # The daily quota counters

`QuotaService.check_and_increment` reads the clock, names a counter after the user,
the dimension and the UTC day, and runs one Redis script that compares the counter
with the limit and increments it.  The counter is created with the seconds that
were left until midnight when the clock was read, rounded up.

Any number of calls run at once: a call reads the clock in one step and its script
runs in another, at whatever time it is then.  A script runs at the clock reading of
its call or later, so a counter never expires before the end of the day it is named
after (`Ledger.expiryAfter_ge`), and until it expires it counts the allowed calls
(`counter_safe`).

A call that reads the clock just before midnight may run its script after the
counter has expired; it then finds none and starts over at 1.
-/
namespace QueryCraft

/-! ## The day and the time left in it -/

/-- Microseconds in a second. -/
abbrev secondLength : Nat := 1000000

/-- The number of days of the calendar, `date.max.toordinal()`. -/
def calendarDays : Nat := 3652059

/-- `_today_key_suffix`.  An instant is a number of microseconds since the calendar's
first midnight, and a day's number stands for its text. -/
def todayKeySuffix (now : Nat) : Nat := now / dayLength

/-- The midnight that ends a day. -/
def dayEnd (day : Nat) : Nat := (day + 1) * dayLength

/-- `_seconds_until_midnight_utc`; `none` stands for the `OverflowError` on the
calendar's last day. -/
def secondsUntilMidnightUtc (now : Nat) : Option Nat :=
  if todayKeySuffix now + 1 < calendarDays then
    some ((dayEnd (todayKeySuffix now) - now + (secondLength - 1)) / secondLength)
  else none

theorem secondsUntilMidnightUtc_spec {now ttl : Nat} (h : secondsUntilMidnightUtc now = some ttl) :
    1 ≤ ttl ∧ ttl ≤ 86400 ∧ dayEnd (todayKeySuffix now) ≤ now + ttl * secondLength := by
  unfold secondsUntilMidnightUtc at h
  split at h
  · obtain rfl := Option.some.inj h
    simp only [todayKeySuffix, dayEnd, dayLength, secondLength]
    omega
  · cases h

/-! ## The script -/

/-- `_DIMENSION_LIMIT_MAP`. -/
inductive QuotaDimension where
  | queries | executions | exports
deriving DecidableEq, Repr

/-- `quota:{user_id}:{dimension}:{YYYY-MM-DD}`. -/
structure CounterKey (U : Type) where
  user : U
  dimension : QuotaDimension
  day : Nat
deriving DecidableEq

/-- A limit of a `role_quotas` row that is not null: a PostgreSQL `integer` that the
table's constraints keep from being negative.  Lua's numbers hold it exactly. -/
structure QuotaLimit where
  value : Nat
  int4 : value < 2 ^ 31

/-- What the script replies: an error, or the decision with the usage and the limit. -/
inductive CheckReply where
  | error (message : String)
  | decision (allowed : Bool) (used limit : Int)
deriving DecidableEq, Repr

/-- What becomes of a call: `QuotaExceededError` and `QuotaUnavailableError` are the
two ways to fail. -/
inductive CheckOutcome where
  | returned (used : Int)
  | exceeded
  | unavailable
deriving DecidableEq, Repr

/-- The usage that an allowed call returns. -/
def CheckOutcome.used? : CheckOutcome → Option Int
  | .returned used => some used
  | _ => none

/-- `_parse_check_result`; `none` where it raises, also for an error reply. -/
def parseCheckResult (reply : CheckReply) (expectedLimit : Int) : Option (Bool × Int) :=
  match reply with
  | .error _ => none
  | .decision allowed used returnedLimit =>
    if used < 0 ∨ returnedLimit ≠ expectedLimit then none else some (allowed, used)

/-- The end of `check_and_increment`. -/
def checkOutcome (reply : CheckReply) (limit : Int) : CheckOutcome :=
  match parseCheckResult reply limit with
  | none => .unavailable
  | some (false, _) => .exceeded
  | some (true, used) => .returned used

section Script
variable {U : Type} [DecidableEq U]

/-- `_CHECK_SCRIPT` at a Redis time in milliseconds.  `INCR` keeps the expiry that the
key has, and a counter without one is given the requested one. -/
def checkScript (pending : Bool) (counters : KeySpace (CounterKey U) Int) (now : Nat)
    (key : CounterKey U) (limit requestedTtl : Int) :
    KeySpace (CounterKey U) Int × CheckReply :=
  if pending then (counters, .error "quota configuration transition pending")
  else if limit < 0 ∨ requestedTtl < 1 ∨ 86400 < requestedTtl then
    (counters, .error "invalid quota arguments")
  else
    let requested := now + 1000 * requestedTtl.toNat
    match counters.lookup now key with
    | none =>
      if 0 ≥ limit then (counters, .decision false 0 limit)
      else (counters.put key 1 (some requested), .decision true 1 limit)
    | some counter =>
      if counter.value < 0 then (counters, .error "invalid quota counter")
      else
        let expireAt := some (counter.expireAt.getD requested)
        if counter.value ≥ limit then
          (counters.put key counter.value expireAt, .decision false counter.value limit)
        else
          (counters.put key (counter.value + 1) expireAt, .decision true (counter.value + 1) limit)

/-- The stored counter; an absent one is 0. -/
def currentUse (counters : KeySpace (CounterKey U) Int) (now : Nat) (key : CounterKey U) : Int :=
  (counters.lookup now key).elim 0 (·.value)

/-- When the counter expires after the script. -/
def expiryAfter (counters : KeySpace (CounterKey U) Int) (now : Nat) (key : CounterKey U)
    (requestedTtl : Int) : Nat :=
  ((counters.lookup now key).bind (·.expireAt)).getD (now + 1000 * requestedTtl.toNat)

/-- Everything the script can do. -/
theorem checkScript_cases (pending : Bool) (counters : KeySpace (CounterKey U) Int) (now : Nat)
    (key : CounterKey U) (limit requestedTtl : Int) :
    (∃ message, checkScript pending counters now key limit requestedTtl =
      (counters, .error message)) ∨
    (limit ≤ currentUse counters now key ∧
      checkScript pending counters now key limit requestedTtl =
        (if (counters.lookup now key).isNone then counters
          else counters.put key (currentUse counters now key)
            (some (expiryAfter counters now key requestedTtl)),
          .decision false (currentUse counters now key) limit)) ∨
    (0 ≤ currentUse counters now key ∧ currentUse counters now key < limit ∧
      checkScript pending counters now key limit requestedTtl =
        (counters.put key (currentUse counters now key + 1)
            (some (expiryAfter counters now key requestedTtl)),
          .decision true (currentUse counters now key + 1) limit)) := by
  unfold checkScript currentUse expiryAfter
  by_cases hpending : pending
  · exact .inl ⟨_, if_pos hpending⟩
  by_cases hargs : limit < 0 ∨ requestedTtl < 1 ∨ 86400 < requestedTtl
  · exact .inl ⟨_, by rw [if_neg hpending, if_pos hargs]⟩
  rw [if_neg hpending, if_neg hargs]
  cases counters.lookup now key with
  | none =>
    by_cases hlimit : 0 ≥ limit
    · exact .inr (.inl ⟨hlimit, by simp [hlimit]⟩)
    · exact .inr (.inr ⟨le_refl 0, not_le.mp hlimit, by simp [hlimit]⟩)
  | some c =>
    by_cases hneg : c.value < 0
    · exact .inl ⟨_, if_pos hneg⟩
    by_cases hlimit : c.value ≥ limit
    · exact .inr (.inl ⟨hlimit, by simp [hneg, hlimit]⟩)
    · exact .inr (.inr ⟨not_lt.mp hneg, not_le.mp hlimit, by simp [hneg, hlimit]⟩)

theorem checkOutcome_error (message : String) (limit : Int) :
    checkOutcome (.error message) limit = .unavailable := rfl

theorem used?_of_refused (used limit : Int) :
    (checkOutcome (.decision false used limit) limit).used? = none := by
  unfold checkOutcome parseCheckResult
  split <;> simp_all [CheckOutcome.used?]

theorem checkOutcome_of_allowed {used : Int} (h : 0 ≤ used) (limit : Int) :
    checkOutcome (.decision true used limit) limit = .returned used := by
  simp [checkOutcome, parseCheckResult, not_lt.mpr h]

end Script

/-! ## Calls -/

/-- Where a call of `check_and_increment` stands. -/
inductive QuotaCall (U R : Type) where
  | idle
  /-- The clock has been read; the script has not run. -/
  | ready (key : CounterKey U) (role : R) (limit : QuotaLimit) (ttl : Nat)
  | ended (outcome : CheckOutcome)

/-- A call whose script has run. -/
structure CheckedCall (U : Type) where
  key : CounterKey U
  limit : QuotaLimit
  outcome : CheckOutcome

/-- The clock in microseconds, which Redis reads in milliseconds, the counters, the
transition markers of the roles, the calls by number, and those whose script has
run, in that order. -/
structure QuotaCounters (U R : Type) where
  clock : Nat
  counters : KeySpace (CounterKey U) Int
  pending : R → Bool
  calls : Nat → QuotaCall U R
  checked : List (CheckedCall U)

/-- What can happen next. -/
inductive CounterAction (U R : Type) where
  | tick (now : Nat)
  | setPending (role : R) (pending : Bool)
  | start (i : Nat) (user : U) (role : R) (dimension : QuotaDimension) (limit : QuotaLimit)
  | check (i : Nat)

namespace QuotaCounters

variable {U R : Type} [DecidableEq U] [DecidableEq R]

/-- The time as Redis reads it. -/
def redisTime (s : QuotaCounters U R) : Nat := s.clock / 1000

/-- The stored counter at the current time. -/
def counter (s : QuotaCounters U R) (k : CounterKey U) : Int :=
  currentUse s.counters s.redisTime k

/-- One step. -/
def step (s : QuotaCounters U R) : CounterAction U R → Option (QuotaCounters U R)
  | .tick now => if s.clock ≤ now then some { s with clock := now } else none
  | .setPending role pending =>
    some { s with pending := Function.update s.pending role pending }
  | .start i user role dimension limit =>
    match s.calls i with
    | .idle => (secondsUntilMidnightUtc s.clock).map fun ttl =>
        { s with
          calls := Function.update s.calls i
            (.ready ⟨user, dimension, todayKeySuffix s.clock⟩ role limit ttl) }
    | _ => none
  | .check i =>
    match s.calls i with
    | .ready key role limit ttl =>
      let (counters, reply) :=
        checkScript (s.pending role) s.counters s.redisTime key limit.value ttl
      let outcome := checkOutcome reply limit.value
      some { s with
        counters := counters
        calls := Function.update s.calls i (.ended outcome)
        checked := s.checked ++ [⟨key, limit, outcome⟩] }
    | _ => none

/-- No counter, no call. -/
def Initial (s : QuotaCounters U R) : Prop :=
  (∀ k, s.counters k = none) ∧ (∀ i, s.calls i = .idle) ∧ s.checked = []

/-- The step is not a script that names the counter and runs after it has expired. -/
def inTime (s : QuotaCounters U R) (k : CounterKey U) : CounterAction U R → Bool
  | .check i =>
    match s.calls i with
    | .ready key _ _ _ => key ≠ k || (s.counters k).all (·.live s.redisTime)
    | _ => true
  | _ => true

/-- The limits and the returned usages of the calls that were allowed by a counter, in
the order of their scripts. -/
def allowed (s : QuotaCounters U R) (k : CounterKey U) : List (QuotaLimit × Int) :=
  s.checked.filterMap fun c => if c.key = k then c.outcome.used?.map (c.limit, ·) else none

/-! ## The invariant -/

/-- What a counter holds after it has allowed the given calls. -/
structure Ledger (k : CounterKey U) (stored : Option (Expiring Int))
    (allowed : List (QuotaLimit × Int)) : Prop where
  used : allowed.map (·.2) = (List.range allowed.length).map fun n : Nat => (n : Int) + 1
  limited : ∀ c ∈ allowed, c.2 ≤ c.1.value
  absent : stored = none → allowed = []
  present : ∀ c, stored = some c → c.value = allowed.length ∧
    ∃ t, c.expireAt = some t ∧ dayEnd k.day ≤ 1000 * t

/-- The counter is in order, and the time to live that a call has computed reaches to
the end of its day from any later time. -/
structure Counting (k : CounterKey U) (s : QuotaCounters U R) : Prop where
  ledger : Ledger k (s.counters k) (s.allowed k)
  ready : ∀ i key role limit ttl, s.calls i = .ready key role limit ttl →
    1 ≤ ttl ∧ ttl ≤ 86400 ∧ dayEnd key.day ≤ s.clock + ttl * secondLength

variable {k : CounterKey U} {s t : QuotaCounters U R}

omit [DecidableEq R] in
theorem Counting.initial (h : s.Initial) : Counting k s where
  ledger := by
    have hallowed : s.allowed k = [] := by simp [allowed, h.2.2]
    rw [hallowed]
    exact ⟨rfl, by simp, fun _ => rfl, by simp [h.1 k]⟩
  ready i key role limit ttl hi := by
    rw [h.2.1 i] at hi
    cases hi

omit [DecidableEq U] in
/-- One more allowed call. -/
theorem Ledger.append {k : CounterKey U} {stored : Option (Expiring Int)}
    {calls : List (QuotaLimit × Int)} (h : Ledger k stored calls) {limit : QuotaLimit} {used : Int}
    {t : Nat} (hused : used = calls.length + 1) (hlimit : used ≤ limit.value)
    (ht : dayEnd k.day ≤ 1000 * t) :
    Ledger k (some ⟨used, some t⟩) (calls ++ [(limit, used)]) where
  used := by simp [h.used, List.range_succ, hused]
  limited c hc := by
    rcases List.mem_append.mp hc with hc | hc
    · exact h.limited c hc
    · obtain rfl := List.mem_singleton.mp hc
      exact hlimit
  absent h := by cases h
  present c hc := by
    obtain rfl := Option.some.inj hc
    exact ⟨by simp [hused], t, rfl, ht⟩

omit [DecidableEq R] in
theorem allowed_append (c : CheckedCall U) (k : CounterKey U) (h : t.checked = s.checked ++ [c]) :
    t.allowed k = s.allowed k ++
      (if c.key = k then c.outcome.used?.map (c.limit, ·) else none).toList := by
  simp only [allowed, h, List.filterMap_append, List.filterMap_cons, List.filterMap_nil]
  cases (if c.key = k then c.outcome.used?.map (c.limit, ·) else none) <;> rfl

omit [DecidableEq U] in
/-- A counter that has not expired holds the number of allowed calls. -/
theorem Ledger.currentUse_eq {k : CounterKey U} {counters : KeySpace (CounterKey U) Int}
    {calls : List (QuotaLimit × Int)} (h : Ledger k (counters k) calls) {now : Nat}
    (hlive : (counters k).all (·.live now) = true) :
    currentUse counters now k = calls.length := by
  unfold currentUse
  cases hk : counters k with
  | none => simp [KeySpace.lookup, hk, h.absent hk]
  | some c =>
    have hc : counters.lookup now k = some c :=
      KeySpace.lookup_eq_some.mpr ⟨hk, by simpa [hk] using hlive⟩
    rw [hc]
    exact (h.present c hk).1

omit [DecidableEq U] in
/-- The expiry that a script sets or keeps is not before the end of the day. -/
theorem Ledger.expiryAfter_ge {k : CounterKey U} {counters : KeySpace (CounterKey U) Int}
    {calls : List (QuotaLimit × Int)} (h : Ledger k (counters k) calls) {clock ttl : Nat}
    (hready : dayEnd k.day ≤ clock + ttl * secondLength) :
    dayEnd k.day ≤ 1000 * expiryAfter counters (clock / 1000) k ttl := by
  unfold expiryAfter
  cases hk : counters.lookup (clock / 1000) k with
  | none =>
    simp only [Option.bind_none, Option.getD_none, Int.toNat_natCast]
    simp only [dayEnd, dayLength, secondLength] at hready ⊢
    omega
  | some c =>
    obtain ⟨-, t, ht, hend⟩ := h.present c (KeySpace.lookup_eq_some.mp hk).1
    simpa [ht] using hend

/-- The state after a script. -/
theorem check_spec {i : Nat} (hs : s.step (.check i) = some t) :
    ∃ key role limit ttl, s.calls i = .ready key role limit ttl ∧
      t.clock = s.clock ∧
      t.counters = (checkScript (s.pending role) s.counters s.redisTime key limit.value ttl).1 ∧
      t.calls = Function.update s.calls i (.ended (checkOutcome
        (checkScript (s.pending role) s.counters s.redisTime key limit.value ttl).2 limit.value)) ∧
      t.checked = s.checked ++ [⟨key, limit, checkOutcome
        (checkScript (s.pending role) s.counters s.redisTime key limit.value ttl).2
          limit.value⟩] := by
  simp only [step] at hs
  split at hs
  · rename_i key role limit ttl hi
    obtain rfl := Option.some.inj hs
    exact ⟨key, role, limit, ttl, hi, rfl, rfl, rfl, rfl⟩
  · cases hs

/-- The ledger of the counter that a script reads, after it. -/
theorem Ledger.check {key : CounterKey U} {counters : KeySpace (CounterKey U) Int}
    {calls : List (QuotaLimit × Int)} (h : Ledger key (counters key) calls) {pending : Bool}
    {clock ttl : Nat} {limit : QuotaLimit}
    (hlive : (counters key).all (·.live (clock / 1000)) = true)
    (hready : dayEnd key.day ≤ clock + ttl * secondLength) :
    Ledger key ((checkScript pending counters (clock / 1000) key limit.value ttl).1 key)
      (calls ++ ((checkOutcome
        (checkScript pending counters (clock / 1000) key limit.value ttl).2
          limit.value).used?.map (limit, ·)).toList) := by
  have hcur := h.currentUse_eq hlive
  have hend := h.expiryAfter_ge hready
  rcases checkScript_cases pending counters (clock / 1000) key limit.value ttl with
    ⟨m, heq⟩ | ⟨-, heq⟩ | ⟨hnonneg, hlt, heq⟩
  · rw [heq, checkOutcome_error]
    simpa [CheckOutcome.used?] using h
  · rw [heq, used?_of_refused]
    simp only [Option.map_none, Option.toList_none, List.append_nil]
    split
    · exact h
    · rw [KeySpace.put_self]
      refine ⟨h.used, h.limited, (nomatch ·), fun c' hc' => ?_⟩
      obtain rfl := Option.some.inj hc'
      exact ⟨hcur, _, rfl, hend⟩
  · rw [heq, checkOutcome_of_allowed (by omega)]
    simp only [CheckOutcome.used?, Option.map_some, Option.toList_some, KeySpace.put_self]
    exact h.append (by rw [hcur]) (by omega) hend

/-- A script leaves the other counters alone. -/
theorem checkScript_of_ne {pending : Bool} {counters : KeySpace (CounterKey U) Int} {now : Nat}
    {key k : CounterKey U} {limit requestedTtl : Int} (h : k ≠ key) :
    (checkScript pending counters now key limit requestedTtl).1 k = counters k := by
  rcases checkScript_cases pending counters now key limit requestedTtl with
    ⟨m, heq⟩ | ⟨-, heq⟩ | ⟨-, -, heq⟩
  · rw [heq]
  · rw [heq]
    split
    · rfl
    · exact KeySpace.put_of_ne h _ _
  · rw [heq]
    exact KeySpace.put_of_ne h _ _

theorem Counting.check (h : Counting k s) {i : Nat} (hok : s.inTime k (.check i) = true)
    (hs : s.step (.check i) = some t) : Counting k t := by
  obtain ⟨key, role, limit, ttl, hi, hclock, hcounters, hcalls, hchecked⟩ := check_spec hs
  obtain ⟨hpos, hle, hready⟩ := h.ready i key role limit ttl hi
  refine ⟨?_, fun j key' role' limit' ttl' hj => ?_⟩
  · rw [hcounters, allowed_append _ k hchecked]
    by_cases hk : key = k
    · subst hk
      have hlive : (s.counters key).all (·.live s.redisTime) = true := by
        simpa [inTime, hi] using hok
      rw [if_pos rfl]
      exact h.ledger.check hlive hready
    · rw [if_neg hk, checkScript_of_ne (Ne.symm hk), Option.toList_none, List.append_nil]
      exact h.ledger
  · rw [hclock]
    rw [hcalls, Function.update_apply] at hj
    split at hj
    · cases hj
    · exact h.ready j key' role' limit' ttl' hj

theorem Counting.start (h : Counting k s) {i : Nat} {user : U} {role : R}
    {dimension : QuotaDimension} {limit : QuotaLimit}
    (hs : s.step (.start i user role dimension limit) = some t) : Counting k t := by
  simp only [step] at hs
  split at hs
  · obtain ⟨ttl, httl, rfl⟩ := Option.map_eq_some_iff.mp hs
    refine ⟨h.ledger, fun j key' role' limit' ttl' hj => ?_⟩
    simp only [Function.update_apply] at hj
    split at hj
    · cases hj
      exact secondsUntilMidnightUtc_spec httl
    · exact h.ready j key' role' limit' ttl' hj
  · cases hs

theorem Counting.step (h : Counting k s) {a : CounterAction U R} (hok : s.inTime k a = true)
    (hs : s.step a = some t) : Counting k t := by
  cases a with
  | tick now =>
    simp only [QuotaCounters.step] at hs
    split at hs
    · rename_i hle
      obtain rfl := Option.some.inj hs
      refine ⟨h.ledger, fun i key role limit ttl hi => ?_⟩
      obtain ⟨hpos, hmax, hready⟩ := h.ready i key role limit ttl hi
      exact ⟨hpos, hmax, hready.trans (Nat.add_le_add_right hle _)⟩
    · cases hs
  | setPending role pending =>
    obtain rfl := Option.some.inj hs
    exact ⟨h.ledger, h.ready⟩
  | start i user role dimension limit => exact h.start hs
  | check i => exact h.check hok hs

/-- A script that does not allow its call leaves the counter as it is. -/
theorem Counting.counter_of_refused (h : Counting k s) {i : Nat}
    (hs : s.step (.check i) = some t) (hrefused : ∀ used, t.calls i ≠ .ended (.returned used)) :
    t.counter k = s.counter k := by
  obtain ⟨key, role, limit, ttl, -, hclock, hcounters, hcalls, -⟩ := check_spec hs
  suffices hsame : t.counters k = s.counters k by
    rw [counter, counter, currentUse, currentUse, KeySpace.lookup, KeySpace.lookup, hsame,
      redisTime, redisTime, hclock]
  rw [hcounters]
  by_cases hkey : key = k
  · subst hkey
    rcases checkScript_cases (s.pending role) s.counters s.redisTime key limit.value ttl with
      ⟨m, heq⟩ | ⟨-, heq⟩ | ⟨hnonneg, hlt, heq⟩
    · rw [heq]
    · rw [heq]
      split
      · rfl
      · rename_i hstored
        obtain ⟨c, hc⟩ : ∃ c, s.counters.lookup s.redisTime key = some c :=
          Option.ne_none_iff_exists'.mp fun hn => hstored (by rw [hn]; rfl)
        have hk := (KeySpace.lookup_eq_some.mp hc).1
        obtain ⟨-, e, he, -⟩ := h.ledger.present c hk
        -- the counter is rewritten with its own value and expiry
        have hsame : c = ⟨currentUse s.counters s.redisTime key,
            some (expiryAfter s.counters s.redisTime key ttl)⟩ := by
          cases c
          simp_all [currentUse, expiryAfter]
        dsimp only
        rw [KeySpace.put_self, ← hsame, hk]
    · refine absurd ?_ (hrefused (currentUse s.counters s.redisTime key + 1))
      rw [hcalls, Function.update_self, heq, checkOutcome_of_allowed (by omega)]
  · exact checkScript_of_ne (Ne.symm hkey)

/-- **A counter counts the allowed calls until it expires, which is not before its day
is over**, in every run in which no script that names it runs after it has expired. -/
theorem counter_safe {s₀ s : QuotaCounters U R} (h₀ : s₀.Initial) (k : CounterKey U)
    (hrun : Reaches QuotaCounters.step (fun s a => s.inTime k a = true) s₀ s) :
    ((s.allowed k).map (·.2) =
        (List.range (s.allowed k).length).map (fun n : Nat => (n : Int) + 1) ∧
      (∀ c ∈ s.allowed k, c.2 ≤ c.1.value) ∧
      ((s.counters k).all (·.live s.redisTime) = true →
        s.counter k = (s.allowed k).length) ∧
      (s.clock ≤ dayEnd k.day → (s.counters k).all (·.live s.redisTime) = true)) ∧
    (∀ i t, s.step (.check i) = some t → (∀ used, t.calls i ≠ .ended (.returned used)) →
      t.counter k = s.counter k) ∧
    (∀ now ttl, secondsUntilMidnightUtc now = some ttl → 1 ≤ ttl ∧ ttl ≤ 86400) := by
  have hcount : Counting k s :=
    hrun.invariant (Counting.initial h₀) fun _ _ _ h hok hs => h.step hok hs
  refine ⟨⟨hcount.ledger.used, hcount.ledger.limited,
    hcount.ledger.currentUse_eq, fun hday => ?_⟩, fun i t => hcount.counter_of_refused,
    fun now ttl h => ⟨(secondsUntilMidnightUtc_spec h).1, (secondsUntilMidnightUtc_spec h).2.1⟩⟩
  cases hk : s.counters k with
  | none => rfl
  | some c =>
    obtain ⟨-, e, he, hend⟩ := hcount.ledger.present c hk
    have hle : s.redisTime ≤ e := by
      rw [redisTime]
      omega
    simp [Expiring.live, he, hle]

/-- No counters and no calls, half a second after the calendar's first midnight. -/
def halfPastMidnight : QuotaCounters Unit Unit where
  clock := 500000
  counters _ := none
  pending _ := false
  calls _ := .idle
  checked := []

/-- A limit of five. -/
def fiveADay : QuotaLimit := ⟨5, by decide⟩

/-- The query counter of the calendar's first day. -/
def firstDay : CounterKey Unit := ⟨(), .queries, 0⟩

/-- The start of a query call. -/
def query (i : Nat) : CounterAction Unit Unit := .start i () () .queries fiveADay

/-- Two calls at once, in the order in which their scripts run. -/
def twoCalls : Option (QuotaCounters Unit Unit) :=
  runSteps QuotaCounters.step (fun s a => s.inTime firstDay a = true) halfPastMidnight
    [query 0, query 1, .check 1, .tick 700000, .check 0]

theorem counter_safe_two_calls :
    ∃ s, twoCalls = some s ∧ (s.allowed firstDay).map (·.2) = [1, 2] ∧ s.counter firstDay = 2 := by
  obtain ⟨s, hs⟩ := Option.isSome_iff_exists.mp (show twoCalls.isSome = true by decide)
  have hsafe := (counter_safe (show halfPastMidnight.Initial from
    ⟨fun _ => rfl, fun _ => rfl, rfl⟩) firstDay (reaches_of_runSteps hs)).1
  have hclock : twoCalls.all (fun s => s.clock ≤ dayEnd 0) = true := by decide
  have hlength : twoCalls.all (fun s => (s.allowed firstDay).length = 2) = true := by decide
  simp only [hs, Option.all_some, decide_eq_true_eq] at hclock hlength
  refine ⟨s, hs, ?_, ?_⟩
  · rw [hsafe.1, hlength]
    rfl
  · rw [hsafe.2.2.1 (hsafe.2.2.2 hclock), hlength]
    rfl

/-- A call that reads the clock before midnight and runs its script 0.6 seconds after
it finds that the counter has expired 0.5 seconds after midnight: the usage 1 is
returned twice. -/
theorem usage_repeated_after_expiry :
    (runSteps QuotaCounters.step (fun _ _ => True) halfPastMidnight
        [query 0, .check 0, .tick 86399900000, query 1, .tick 86400600000, .check 1]).any
      (fun s => (s.allowed firstDay).map (·.2) = [1, 1]) = true := by
  decide

end QuotaCounters
end QueryCraft
