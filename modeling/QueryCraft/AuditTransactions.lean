import Mathlib.Logic.Function.Basic
import QueryCraft.AuditRetention
import QueryCraft.Transitions

/-! # Logging and purging as concurrent transactions

Each `log` or `purge_expired_entries` runs in a transaction of its own, under
`READ COMMITTED`: every statement reads the rows committed when it starts, and
the transaction's own writes become visible to others when it commits.  `log`
takes the advisory lock before it reads the last row and keeps it to the commit,
so the lock holder is the only one that can change the committed table.

A purge reads the expired rows and the first survivor before it takes that lock.
What other transactions commit in between is not reflected in the boundary its
marker records, and the purge still deletes by age.  `committed_accepted` says
when this does no harm: in every run in which each boundary still fits the
committed table (`AuditTable.Fits`) when its marker is inserted, every committed
table is accepted.  `committed_not_accepted` is a run in which an entry logged
between the reads and the lock makes the marker wrong.
-/
namespace QueryCraft

/-- Where a transaction stands, with what it has read and written so far. -/
inductive Transaction where
  | idle
  | logBegun (req : LogRequest)
  | logLocked (req : LogRequest)
  | logInserted (e : AuditLogEntry)
  | purgeBegun (cutoff : DateTime) (retentionMonths : Int)
  | purgeRead (cutoff : DateTime) (retentionMonths : Int) (expired : List AuditLogEntry)
  | purgeBounded (cutoff : DateTime) (b : PurgeBoundary)
  | purgeLocked (cutoff : DateTime) (b : PurgeBoundary)
  | purgeMarked (cutoff : DateTime) (marker : AuditLogEntry)
  | purgeDeleted (marker : AuditLogEntry) (deleted : List Int)

/-- The committed table, the clock, the holder of the advisory lock and the
transactions, by number. -/
structure Database where
  committed : AuditTable
  clock : DateTime
  lockHolder : Option Nat
  transactions : Nat → Transaction

/-- What can happen next. -/
inductive Action where
  | tick (now : DateTime)
  | beginLog (i : Nat) (req : LogRequest)
  | beginPurge (i : Nat) (retentionMonths : Int)
  | statement (i : Nat)
  | rollback (i : Nat)

namespace Database

/-- The transaction moves on; nothing is committed. -/
def set (db : Database) (i : Nat) (t : Transaction) : Database :=
  { db with transactions := Function.update db.transactions i t }

/-- `pg_advisory_xact_lock`: waits, that is, cannot happen, while the lock is
held. -/
def lock (db : Database) (i : Nat) (t : Transaction) : Option Database :=
  if db.lockHolder = none then some { db.set i t with lockHolder := some i } else none

/-- The end of a transaction: what it wrote is committed and the lock released. -/
def commit (db : Database) (i : Nat) (T : AuditTable) : Database :=
  { db.set i .idle with committed := T, lockHolder := none }

variable (env : AuditEnv)

/-- The next statement of a transaction.  A statement sees the committed rows
and, after the insert of the marker, the marker. -/
def statement (db : Database) (i : Nat) : Option Database :=
  match db.transactions i with
  | .idle => none
  | .logBegun req => db.lock i (.logLocked req)
  | .logLocked req =>
    (db.committed.nextEntry env db.clock req).map fun e => db.set i (.logInserted e)
  | .logInserted e => (db.committed.insert e).map fun T => db.commit i T
  | .purgeBegun cutoff r =>
    -- nothing expired: the transaction ends without writing
    if (db.committed.expired cutoff).isEmpty then some (db.set i .idle)
    else some (db.set i (.purgeRead cutoff r (db.committed.expired cutoff)))
  | .purgeRead cutoff r expired =>
    (purgeBoundary? expired (db.committed.firstSurvivor? cutoff) r).map fun b =>
      db.set i (.purgeBounded cutoff b)
  | .purgeBounded cutoff b => db.lock i (.purgeLocked cutoff b)
  | .purgeLocked cutoff b =>
    (db.committed.nextEntry env db.clock b.request).map fun m => db.set i (.purgeMarked cutoff m)
  | .purgeMarked cutoff m =>
    (db.committed.insert m).map fun T =>
      db.set i (.purgeDeleted m ((T.expired cutoff).map (·.sequenceNumber)))
  | .purgeDeleted m deleted =>
    (db.committed.insert m).map fun T =>
      db.commit i (T.delete fun e => deleted.contains e.sequenceNumber)

/-- One step.  The clock does not go back; a transaction can be rolled back at any
time. -/
def step (db : Database) : Action → Option Database
  | .tick now => if db.clock ≤ now then some { db with clock := now } else none
  | .beginLog i req =>
    match db.transactions i with
    | .idle => some (db.set i (.logBegun req))
    | _ => none
  | .beginPurge i r =>
    match db.transactions i with
    | .idle => (computeRetentionCutoff r db.clock).map fun cutoff =>
        db.set i (.purgeBegun cutoff r)
    | _ => none
  | .statement i => db.statement env i
  | .rollback i => some
      { db.set i .idle with
        lockHolder := if db.lockHolder = some i then none else db.lockHolder }

/-- No transaction is under way. -/
def Quiet (db : Database) : Prop := db.lockHolder = none ∧ ∀ i, db.transactions i = .idle

/-- What a step must satisfy in the state it is taken from: a logged row does not
pose as a purge marker, and the boundary a purge has read fits the committed table
when its marker is inserted and is stored as it is. -/
def Meets (db : Database) : Action → Prop
  | .beginLog _ req => req.NamesNoSurvivor env
  | .statement i => ∀ cutoff b, db.transactions i = .purgeLocked cutoff b →
      db.committed.Fits cutoff b ∧ env.KeepsMarker b
  | _ => True

/-! ## The invariant -/

/-- The marker `m` continues the committed table and records a boundary that fits
it. -/
def MarkerFits (T : AuditTable) (cutoff : DateTime) (m : AuditLogEntry) : Prop :=
  ∃ now b, cutoff ≤ now ∧ (T.Fits cutoff b ∧ env.KeepsMarker b) ∧
    AuditTable.IsNextEntry env T now b.request m

/-- What is known of a transaction in each place, given the committed table, the
clock, and whether the transaction holds the lock. -/
def Pending (T : AuditTable) (clock : DateTime) (held : Prop) : Transaction → Prop
  | .idle => True
  | .logBegun req => req.NamesNoSurvivor env
  | .logLocked req => held ∧ req.NamesNoSurvivor env
  | .logInserted e => held ∧ ∃ now req, req.NamesNoSurvivor env ∧
      AuditTable.IsNextEntry env T now req e
  | .purgeBegun cutoff _ => cutoff ≤ clock
  | .purgeRead cutoff _ _ => cutoff ≤ clock
  | .purgeBounded cutoff _ => cutoff ≤ clock
  | .purgeLocked cutoff _ => held ∧ cutoff ≤ clock
  | .purgeMarked cutoff m => held ∧ MarkerFits env T cutoff m
  | .purgeDeleted m deleted => held ∧ ∃ cutoff, MarkerFits env T cutoff m ∧
      deleted = (T.expired cutoff).map (·.sequenceNumber)

/-- The committed table is accepted and every transaction is in order. -/
structure Coherent (db : Database) : Prop where
  accepted : db.committed.Accepts env
  pending : ∀ i, Pending env db.committed db.clock (db.lockHolder = some i) (db.transactions i)

variable {env} {db db' : Database} {T T' : AuditTable} {clock clock' cutoff : DateTime}
  {held : Prop} {t : Transaction} {i : Nat}

theorem Pending.of_clock (h : Pending env T clock held t) (hle : clock ≤ clock') :
    Pending env T clock' held t := by
  cases t with
  | purgeBegun c _ => exact DateTime.le_trans h hle
  | purgeRead c _ _ => exact DateTime.le_trans h hle
  | purgeBounded c _ => exact DateTime.le_trans h hle
  | purgeLocked c _ => exact ⟨h.1, DateTime.le_trans h.2 hle⟩
  | _ => exact h

/-- Whoever does not hold the lock does not depend on the table. -/
theorem Pending.of_not_held (h : Pending env T clock held t) (hn : ¬ held) (held' : Prop) :
    Pending env T' clock held' t := by
  cases t with
  | logLocked _ => exact absurd h.1 hn
  | logInserted _ => exact absurd h.1 hn
  | purgeLocked _ _ => exact absurd h.1 hn
  | purgeMarked _ _ => exact absurd h.1 hn
  | purgeDeleted _ _ => exact absurd h.1 hn
  | _ => exact h

theorem Coherent.of_quiet (hacc : db.committed.Accepts env) (hq : db.Quiet) :
    Coherent env db :=
  ⟨hacc, fun i => by rw [hq.2 i]; trivial⟩

/-- One transaction moves on. -/
theorem Coherent.set (h : Coherent env db)
    (ht : Pending env db.committed db.clock (db.lockHolder = some i) t) :
    Coherent env (db.set i t) := by
  refine ⟨h.accepted, fun j => ?_⟩
  by_cases hj : j = i
  · subst hj
    simpa [Database.set] using ht
  · simpa [Database.set, Function.update_of_ne hj] using h.pending j

/-- Taking the lock: nobody held it. -/
theorem Coherent.lock (h : Coherent env db) (hl : db.lock i t = some db')
    (ht : Pending env db.committed db.clock True t) : Coherent env db' := by
  unfold Database.lock at hl
  split at hl
  · rename_i hfree
    obtain rfl := Option.some.inj hl
    refine ⟨h.accepted, fun j => ?_⟩
    by_cases hj : j = i
    · subst hj
      simpa [Database.set] using ht
    · have hfreej : ¬ db.lockHolder = some j := by rw [hfree]; simp
      simpa [Database.set, Function.update_of_ne hj] using
        (h.pending j).of_not_held hfreej (some i = some j)
  · cases hl

/-- A commit by the lock holder: the others do not depend on the table. -/
theorem Coherent.commit (h : Coherent env db) (hi : db.lockHolder = some i)
    (hacc : T.Accepts env) : Coherent env (db.commit i T) := by
  refine ⟨hacc, fun j => ?_⟩
  by_cases hj : j = i
  · subst hj
    simp [Database.commit, Database.set, Pending]
  · have hother : ¬ db.lockHolder = some j := by
      rw [hi]
      simpa using Ne.symm hj
    simpa [Database.commit, Database.set, Function.update_of_ne hj] using
      (h.pending j).of_not_held hother (none = some j)

theorem Coherent.rollback (h : Coherent env db) :
    Coherent env { db.set i .idle with
      lockHolder := if db.lockHolder = some i then none else db.lockHolder } := by
  refine ⟨h.accepted, fun j => ?_⟩
  by_cases hj : j = i
  · subst hj
    simp [Database.set, Pending]
  · have hpend := h.pending j
    by_cases hi : db.lockHolder = some i
    · have hother : ¬ db.lockHolder = some j := by
        rw [hi]
        simpa using Ne.symm hj
      simpa [Database.set, Function.update_of_ne hj, hi] using
        hpend.of_not_held hother (none = some j)
    · simpa [Database.set, Function.update_of_ne hj, hi] using hpend

/-! ## Writes -/

/-- The next row is appended by its insert. -/
theorem insert_nextEntry {now : DateTime} {req : LogRequest} {e : AuditLogEntry}
    (he : AuditTable.IsNextEntry env T now req e) (hins : T.insert e = some T') :
    T'.rows = T.rows ++ [e] := by
  obtain ⟨T₁, h₁, hrows⟩ := AuditTable.insert_rows_of_lt (T := T) (e := e) fun r hr => by
    rw [he.sequenceNumber]
    exact T.lt_nextSequence hr
  obtain rfl := Option.some.inj (h₁.symm.trans hins)
  exact hrows

/-- The rows the delete statement sees as expired are those of the committed
table: the marker is not one of them. -/
theorem expired_insert {m : AuditLogEntry} (hm : MarkerFits env T cutoff m)
    (hins : T.insert m = some T') : T'.expired cutoff = T.expired cutoff := by
  obtain ⟨now, b, hle, -, hnext⟩ := hm
  rw [AuditTable.expired, insert_nextEntry hnext hins, List.filter_append,
    List.filter_cons_of_neg, List.filter_nil, List.append_nil]
  · rfl
  · rw [hnext.timestamp]
    simpa [DateTime.not_lt] using hle

/-- Deleting the rows numbered like the expired ones deletes the expired ones. -/
theorem filter_contains_expired (T : AuditTable) (cutoff : DateTime) :
    T.rows.filter (fun e =>
      !((T.expired cutoff).map (·.sequenceNumber)).contains e.sequenceNumber) =
      T.retained cutoff := by
  refine List.filter_congr fun e he => ?_
  rw [← AuditTable.not_expired_iff, Bool.eq_iff_iff]
  simp only [Bool.not_eq_true', List.contains_eq_mem, decide_eq_false_iff_not, List.mem_map,
    not_exists, not_and]
  constructor
  · intro h hlt
    exact h e (List.mem_filter.mpr ⟨he, by simpa using hlt⟩) rfl
  · intro h x hx heq
    obtain ⟨hxT, hxlt⟩ := List.mem_filter.mp hx
    rw [T.eq_of_sequenceNumber_eq hxT he heq] at hxlt
    exact h (by simpa using hxlt)

/-- A purge commits what the boundary of its marker describes. -/
theorem isPurgeOf_commit {m : AuditLogEntry} {now : DateTime} {b : PurgeBoundary}
    (hfits : T.Fits cutoff b) (hkept : env.KeepsMarker b)
    (hm : AuditTable.IsNextEntry env T now b.request m)
    (hins : T.insert m = some T') :
    AuditTable.IsPurgeOf env T cutoff now b m (T'.delete fun e =>
      ((T.expired cutoff).map (·.sequenceNumber)).contains e.sequenceNumber) := by
  refine ⟨hfits, hkept, hm, ?_⟩
  have hnew : ((T.expired cutoff).map (·.sequenceNumber)).contains m.sequenceNumber = false := by
    simp only [List.contains_eq_mem, decide_eq_false_iff_not, List.mem_map, not_exists, not_and]
    intro x hx heq
    have := T.lt_nextSequence (List.mem_filter.mp hx).1
    rw [heq, hm.sequenceNumber] at this
    omega
  rw [AuditTable.delete_rows, insert_nextEntry hm hins, List.filter_append,
    filter_contains_expired, List.filter_cons_of_pos (by rw [hnew]; rfl), List.filter_nil]

/-! ## Steps and runs -/

/-- A statement keeps the invariant. -/
theorem Coherent.statement (h : Coherent env db) (hok : Meets env db (.statement i))
    (hs : db.statement env i = some db') : Coherent env db' := by
  have hpend := h.pending i
  unfold Database.statement at hs
  cases ht : db.transactions i with
  | idle => rw [ht] at hs; cases hs
  | logBegun req =>
    rw [ht] at hs hpend
    exact h.lock hs ⟨trivial, hpend⟩
  | logLocked req =>
    rw [ht] at hs hpend
    obtain ⟨e, he, rfl⟩ := Option.map_eq_some_iff.mp hs
    obtain ⟨e', he', hnext⟩ := AuditTable.nextEntry_spec env db.committed db.clock req
    obtain rfl := Option.some.inj (he.symm.trans he')
    exact h.set ⟨hpend.1, _, req, hpend.2, hnext⟩
  | logInserted e =>
    rw [ht] at hs hpend
    obtain ⟨T, hins, rfl⟩ := Option.map_eq_some_iff.mp hs
    obtain ⟨hheld, now, req, hname, hnext⟩ := hpend
    exact h.commit hheld
      (AuditTable.accepts_logged env h.accepted hnext (insert_nextEntry hnext hins) hname)
  | purgeBegun cutoff r =>
    rw [ht] at hs hpend
    dsimp only at hs
    split at hs
    · obtain rfl := Option.some.inj hs
      exact h.set trivial
    · obtain rfl := Option.some.inj hs
      exact h.set hpend
  | purgeRead cutoff r expired =>
    rw [ht] at hs hpend
    obtain ⟨b, -, rfl⟩ := Option.map_eq_some_iff.mp hs
    exact h.set hpend
  | purgeBounded cutoff b =>
    rw [ht] at hs hpend
    exact h.lock hs ⟨trivial, hpend⟩
  | purgeLocked cutoff b =>
    rw [ht] at hs hpend
    obtain ⟨m, hm, rfl⟩ := Option.map_eq_some_iff.mp hs
    obtain ⟨m', hm', hnext⟩ := AuditTable.nextEntry_spec env db.committed db.clock b.request
    obtain rfl := Option.some.inj (hm.symm.trans hm')
    exact h.set ⟨hpend.1, _, b, hpend.2, hok cutoff b ht, hnext⟩
  | purgeMarked cutoff m =>
    rw [ht] at hs hpend
    obtain ⟨T, hins, rfl⟩ := Option.map_eq_some_iff.mp hs
    exact h.set ⟨hpend.1, cutoff, hpend.2, by rw [expired_insert hpend.2 hins]⟩
  | purgeDeleted m deleted =>
    rw [ht] at hs hpend
    obtain ⟨T, hins, rfl⟩ := Option.map_eq_some_iff.mp hs
    obtain ⟨hheld, cutoff, ⟨now, b, -, ⟨hfits, hkept⟩, hnext⟩, rfl⟩ := hpend
    exact h.commit hheld ((isPurgeOf_commit hfits hkept hnext hins).accepts h.accepted)

/-- Every step that meets the condition keeps the invariant. -/
theorem Coherent.step (h : Coherent env db) {a : Action} (hok : Meets env db a)
    (hs : db.step env a = some db') : Coherent env db' := by
  cases a with
  | tick now =>
    simp only [Database.step] at hs
    split at hs
    · rename_i hle
      obtain rfl := Option.some.inj hs
      exact ⟨h.accepted, fun j => (h.pending j).of_clock hle⟩
    · cases hs
  | beginLog i req =>
    simp only [Database.step] at hs
    split at hs
    · obtain rfl := Option.some.inj hs
      exact h.set hok
    · cases hs
  | beginPurge i r =>
    simp only [Database.step] at hs
    split at hs
    · obtain ⟨cutoff, hcut, rfl⟩ := Option.map_eq_some_iff.mp hs
      exact h.set (computeRetentionCutoff_le hcut)
    · cases hs
  | statement i => exact h.statement hok hs
  | rollback i =>
    obtain rfl := Option.some.inj hs
    exact h.rollback

section Sequential
open AuditTable

/-- The transaction holds the lock. -/
def holding (db : Database) (i : Nat) (t : Transaction) : Database :=
  { db.set i t with lockHolder := some i }

/-- The condition asks nothing of a statement that inserts no marker. -/
def AsksOfMarkers (ok : Database → Action → Prop) : Prop :=
  ∀ (db : Database) (i : Nat), (∀ cutoff b, db.transactions i ≠ .purgeLocked cutoff b) →
    ok db (.statement i)

theorem asksOfMarkers_meets : AsksOfMarkers (Meets env) :=
  fun _ _ hno cutoff b h => absurd h (hno cutoff b)

theorem set_transactions : (db.set i t).transactions i = t := Function.update_self ..

theorem holding_transactions : (db.holding i t).transactions i = t := set_transactions

theorem set_set (t' : Transaction) : (db.set i t).set i t' = db.set i t' := by
  simp only [Database.set, Function.update_idem]

theorem holding_set (t' : Transaction) : (db.holding i t).set i t' = db.holding i t' := by
  simp only [holding, Database.set, Function.update_idem]

theorem holding_commit (hfree : db.lockHolder = none) (hidle : db.transactions i = .idle) :
    (db.holding i t).commit i T = { db with committed := T } := by
  simp only [Database.commit, holding_set]
  simp only [holding, Database.set]
  rw [← hidle, Function.update_eq_self, hfree]

theorem lock_eq (hfree : db.lockHolder = none) (t' : Transaction) :
    (db.set i t).lock i t' = some (db.holding i t') := by
  rw [Database.lock, if_pos (show (db.set i t).lockHolder = none from hfree), set_set, holding]

section Steps
variable {ok : Database → Action → Prop} {req : LogRequest} {b : PurgeBoundary} {r : Int}

/-- A statement that inserts no marker. -/
theorem reaches_statement (hok : AsksOfMarkers ok) (hat : db.transactions i = t)
    (hno : ∀ cutoff b, t ≠ .purgeLocked cutoff b) (h : db.statement env i = some db') :
    Reaches (Database.step env) ok db db' :=
  Reaches.refl.step (.statement i) (hok db i (hat.symm ▸ hno)) h

theorem reaches_tick {now : DateTime} (hok : ok db (.tick now)) (h : db.clock ≤ now) :
    Reaches (Database.step env) ok db { db with clock := now } :=
  Reaches.refl.step (.tick now) hok (if_pos h)

/-- A log transaction appends what `AuditService.log` appends, while nobody holds the lock. -/
theorem reaches_log (hok : AsksOfMarkers ok) (hbegin : ok db (.beginLog i req))
    (hfree : db.lockHolder = none) (hidle : db.transactions i = .idle)
    (hlog : db.committed.log env db.clock req = some T) :
    Reaches (Database.step env) ok db { db with committed := T } := by
  obtain ⟨e, he, hins⟩ := Option.bind_eq_some_iff.mp hlog
  have hbegun : Reaches (Database.step env) ok db (db.set i (.logBegun req)) :=
    Reaches.refl.step (.beginLog i req) hbegin (by rw [Database.step, hidle])
  have hlocked : Reaches (Database.step env) ok (db.set i (.logBegun req))
      (db.holding i (.logLocked req)) := by
    apply reaches_statement hok set_transactions (by simp)
    rw [Database.statement, set_transactions]
    exact lock_eq hfree _
  have hinserted : Reaches (Database.step env) ok (db.holding i (.logLocked req))
      (db.holding i (.logInserted e)) := by
    apply reaches_statement hok holding_transactions (by simp)
    rw [Database.statement, holding_transactions]
    show Option.map _ (db.committed.nextEntry env db.clock req) = _
    rw [he, Option.map_some, holding_set]
  have hcommitted : Reaches (Database.step env) ok (db.holding i (.logInserted e))
      { db with committed := T } := by
    apply reaches_statement hok holding_transactions (by simp)
    rw [Database.statement, holding_transactions]
    show Option.map _ (db.committed.insert e) = _
    rw [hins, Option.map_some, holding_commit hfree hidle]
  exact ((hbegun.trans hlocked).trans hinserted).trans hcommitted

theorem reaches_purgeBegun (hbegin : ok db (.beginPurge i r)) (hidle : db.transactions i = .idle)
    (hcutoff : computeRetentionCutoff r db.clock = some cutoff) :
    Reaches (Database.step env) ok db (db.set i (.purgeBegun cutoff r)) :=
  Reaches.refl.step (.beginPurge i r) hbegin
    (by rw [Database.step, hidle, hcutoff, Option.map_some])

/-- A purge for which nothing has expired. -/
theorem reaches_nothing (hok : AsksOfMarkers ok) (hbegin : ok db (.beginPurge i r))
    (hidle : db.transactions i = .idle)
    (hcutoff : computeRetentionCutoff r db.clock = some cutoff)
    (hnone : db.committed.expired cutoff = []) : Reaches (Database.step env) ok db db := by
  refine (reaches_purgeBegun hbegin hidle hcutoff).trans ?_
  apply reaches_statement hok set_transactions (by simp)
  rw [Database.statement, set_transactions]
  show (if (db.committed.expired cutoff).isEmpty then _ else _) = _
  rw [hnone, List.isEmpty_nil, if_pos rfl, set_set, Database.set, ← hidle, Function.update_eq_self]

/-- A purge reads its boundary. -/
theorem reaches_bounded (hok : AsksOfMarkers ok) (hbegin : ok db (.beginPurge i r))
    (hidle : db.transactions i = .idle)
    (hcutoff : computeRetentionCutoff r db.clock = some cutoff)
    (hb : purgeBoundary? (db.committed.expired cutoff) (db.committed.firstSurvivor? cutoff) r =
      some b) :
    Reaches (Database.step env) ok db (db.set i (.purgeBounded cutoff b)) := by
  have hread : Reaches (Database.step env) ok (db.set i (.purgeBegun cutoff r))
      (db.set i (.purgeRead cutoff r (db.committed.expired cutoff))) := by
    apply reaches_statement hok set_transactions (by simp)
    rw [Database.statement, set_transactions]
    show (if (db.committed.expired cutoff).isEmpty then _ else _) = _
    rw [if_neg, set_set]
    · rfl
    · intro hnone
      rw [List.isEmpty_iff.mp hnone] at hb
      cases hb
  have hbounded : Reaches (Database.step env) ok
      (db.set i (.purgeRead cutoff r (db.committed.expired cutoff)))
      (db.set i (.purgeBounded cutoff b)) := by
    apply reaches_statement hok set_transactions (by simp)
    rw [Database.statement, set_transactions]
    show Option.map _ (purgeBoundary? _ (db.committed.firstSurvivor? cutoff) r) = _
    rw [hb, Option.map_some, set_set]
  exact ((reaches_purgeBegun hbegin hidle hcutoff).trans hread).trans hbounded

/-- A purge goes on with the boundary that it has read. -/
theorem reaches_deleted (hok : AsksOfMarkers ok)
    (hmark : ok (db.holding i (.purgeLocked cutoff b)) (.statement i))
    (hfree : db.lockHolder = none) (hidle : db.transactions i = .idle)
    (hlog : db.committed.log env db.clock b.request = some T) :
    Reaches (Database.step env) ok (db.set i (.purgeBounded cutoff b))
      { db with
        committed := T.delete fun e =>
          ((T.expired cutoff).map (·.sequenceNumber)).contains e.sequenceNumber } := by
  obtain ⟨m, hm, hins⟩ := Option.bind_eq_some_iff.mp hlog
  have hlocked : Reaches (Database.step env) ok (db.set i (.purgeBounded cutoff b))
      (db.holding i (.purgeLocked cutoff b)) := by
    apply reaches_statement hok set_transactions (by simp)
    rw [Database.statement, set_transactions]
    exact lock_eq hfree _
  have hmarked : Reaches (Database.step env) ok (db.holding i (.purgeLocked cutoff b))
      (db.holding i (.purgeMarked cutoff m)) := by
    refine Reaches.refl.step (.statement i) hmark ?_
    rw [Database.step, Database.statement, holding_transactions]
    show Option.map _ (db.committed.nextEntry env db.clock b.request) = _
    rw [hm, Option.map_some, holding_set]
  have hdeleted : Reaches (Database.step env) ok (db.holding i (.purgeMarked cutoff m))
      (db.holding i (.purgeDeleted m ((T.expired cutoff).map (·.sequenceNumber)))) := by
    apply reaches_statement hok holding_transactions (by simp)
    rw [Database.statement, holding_transactions]
    show Option.map _ (db.committed.insert m) = _
    rw [hins, Option.map_some, holding_set]
  have hcommitted : Reaches (Database.step env) ok
      (db.holding i (.purgeDeleted m ((T.expired cutoff).map (·.sequenceNumber))))
      { db with
        committed := T.delete fun e =>
          ((T.expired cutoff).map (·.sequenceNumber)).contains e.sequenceNumber } := by
    apply reaches_statement hok holding_transactions (by simp)
    rw [Database.statement, holding_transactions]
    show Option.map _ (db.committed.insert m) = _
    rw [hins, Option.map_some, holding_commit hfree hidle]
  exact ((hlocked.trans hmarked).trans hdeleted).trans hcommitted

end Steps

/-! ## Undisturbed transactions

One transaction at a time, the system does what the functions `log` and
`purgeExpiredEntries` do, and meets the condition by itself. -/

/-- The database between transactions. -/
def quiet (T : AuditTable) (clock : DateTime) : Database := ⟨T, clock, none, fun _ => .idle⟩

theorem expired_eq_nil_of_boundary {expired : List AuditLogEntry}
    {survivor : Option AuditLogEntry} {r : Int} (h : purgeBoundary? expired survivor r = none) :
    expired = [] := by
  rcases List.eq_nil_or_concat expired with rfl | ⟨xs, x, rfl⟩
  · rfl
  · unfold purgeBoundary? at h
    split at h
    · cases h
    · rename_i hno
      cases hf : (xs.concat x).head? with
      | none => simp at hf
      | some first => exact absurd (by simp) (hno first x hf)

/-- An undisturbed purge transaction on a chained table meets the condition and
leaves what `purge_expired_entries` leaves. -/
theorem reaches_purge (hkeeps : env.KeepsMarkers) {clock now nowMarker : DateTime}
    {future : List DateTime} {r : Int} (hacc : T.Accepts env)
    (hroom : T.nextSequence ≤ Json.integerMax + 1) (hle : clock ≤ now)
    (hle' : now ≤ nowMarker) (hch : Chained T future)
    (hpurge : T.purgeExpiredEntries env now nowMarker r = some T') :
    Reaches (Database.step env) (Meets env) (quiet T clock) (quiet T' nowMarker) := by
  obtain ⟨cutoff, hcut, hrest⟩ := Option.bind_eq_some_iff.mp hpurge
  have hcutle : cutoff ≤ nowMarker := DateTime.le_trans (computeRetentionCutoff_le hcut) hle'
  have hok : AsksOfMarkers (Meets env) := asksOfMarkers_meets
  have hstart : Reaches (Database.step env) (Meets env) (quiet T clock) (quiet T now) :=
    reaches_tick trivial hle
  refine hstart.trans ?_
  cases hb : purgeBoundary? (T.expired cutoff) (T.firstSurvivor? cutoff) r with
  | none =>
    rw [hb] at hrest
    obtain rfl := Option.some.inj hrest
    have hend : Reaches (Database.step env) (Meets env) (quiet T now) (quiet T now) :=
      reaches_nothing (i := 0) hok trivial rfl hcut (expired_eq_nil_of_boundary hb)
    exact hend.trans (reaches_tick trivial hle')
  | some b =>
    rw [hb] at hrest
    obtain ⟨T₁, hlog, rfl⟩ := Option.map_eq_some_iff.mp hrest
    obtain ⟨m, hm, hins⟩ := Option.bind_eq_some_iff.mp hlog
    obtain ⟨m', hm', hnext⟩ := nextEntry_spec env T nowMarker b.request
    obtain rfl := Option.some.inj (hm.symm.trans hm')
    have hfits : T.Fits cutoff b := hch.fits hroom (computeRetentionCutoff_spec hcut).1 hb
    have hkept : env.KeepsMarker b := hkeeps b (hch.isRowHash hacc hb)
    have hbounded : Reaches (Database.step env) (Meets env) (quiet T now)
        ((quiet T now).set 0 (.purgeBounded cutoff b)) :=
      reaches_bounded hok trivial rfl hcut hb
    have hlater : Reaches (Database.step env) (Meets env)
        ((quiet T now).set 0 (.purgeBounded cutoff b))
        ((quiet T nowMarker).set 0 (.purgeBounded cutoff b)) := reaches_tick trivial hle'
    have hmeets : Meets env ((quiet T nowMarker).holding 0 (.purgeLocked cutoff b))
        (.statement 0) := by
      intro cutoff' b' h
      obtain ⟨rfl, rfl⟩ := Transaction.purgeLocked.inj (holding_transactions.symm.trans h)
      exact ⟨hfits, hkept⟩
    have htable : (T₁.delete fun e => ((T₁.expired cutoff).map (·.sequenceNumber)).contains
        e.sequenceNumber) = T₁.delete (·.timestamp < cutoff) := by
      apply AuditTable.ext
      rw [expired_insert (⟨nowMarker, b, hcutle, ⟨hfits, hkept⟩, hnext⟩ : MarkerFits env T cutoff m)
          hins, (isPurgeOf_commit hfits hkept hnext hins).rows, delete_expired_rows, retained,
        retained, insert_nextEntry hnext hins, List.filter_append,
        List.filter_cons_of_pos (by rw [hnext.timestamp]; simpa using hcutle), List.filter_nil]
    have hdeleted : Reaches (Database.step env) (Meets env)
        ((quiet T nowMarker).set 0 (.purgeBounded cutoff b))
        (quiet (T₁.delete (·.timestamp < cutoff)) nowMarker) := by
      rw [← htable]
      exact reaches_deleted hok hmeets rfl rfl hlog
    exact (hbounded.trans hlater).trans hdeleted

/-- **Calls executed one at a time are runs of transactions** that meet the
condition. -/
theorem reaches_runCalls (hkeeps : env.KeepsMarkers) {clock : DateTime} {cs : List Call}
    (hacc : T.Accepts env)
    (hch : Chained T (cs.flatMap Call.readings))
    (hroom : T.nextSequence + cs.length ≤ Json.integerMax + 1)
    (hclock : (clock :: cs.flatMap Call.readings).Pairwise (· ≤ ·))
    (hcut : ∀ c ∈ cs, c.CutoffExists) (hname : ∀ c ∈ cs, c.NamesNoSurvivor env) :
    ∃ T' clock', runCalls env T cs = some T' ∧
      Reaches (Database.step env) (Meets env) (quiet T clock) (quiet T' clock') := by
  induction cs generalizing T clock with
  | nil => exact ⟨T, clock, rfl, .refl⟩
  | cons c cs ih =>
    rw [List.flatMap_cons] at hch hclock
    rw [List.length_cons] at hroom
    obtain ⟨hle, hclock⟩ := List.pairwise_cons.mp hclock
    obtain ⟨-, hrest, hbefore⟩ := List.pairwise_append.mp hclock
    -- one call: the next state, the last clock reading, and the run between them
    have hstep : ∃ T₁ now, c.run env T = some T₁ ∧ T₁.Accepts env ∧
        Chained T₁ (cs.flatMap Call.readings) ∧ T₁.nextSequence ≤ T.nextSequence + 1 ∧
        now ∈ c.readings ∧
        Reaches (Database.step env) (Meets env) (quiet T clock) (quiet T₁ now) := by
      cases c with
      | log now req =>
        obtain ⟨T₁, hlog, hacc₁, hch₁, hnext⟩ := Chained.log hacc hch
          (fun t ht => hbefore now (by simp [Call.readings]) t ht)
          (hname (.log now req) (by simp))
        have hwait : Reaches (Database.step env) (Meets env) (quiet T clock) (quiet T now) :=
          reaches_tick trivial (hle now (by simp [Call.readings]))
        have hlogged : Reaches (Database.step env) (Meets env) (quiet T now) (quiet T₁ now) :=
          reaches_log (i := 0) asksOfMarkers_meets (hname (.log now req) (by simp)) rfl rfl hlog
        exact ⟨T₁, now, hlog, hacc₁, hch₁, hnext, by simp [Call.readings], hwait.trans hlogged⟩
      | purge now nowMarker r =>
        have hnow : now ≤ nowMarker := (List.pairwise_cons.mp hclock).1 nowMarker (by simp)
        obtain ⟨T₁, hpurge, hacc₁, hch₁, hnext⟩ := Chained.purge hkeeps hacc hch (by omega) hnow
          (fun t ht => hbefore nowMarker (by simp [Call.readings]) t ht)
          (hcut (.purge now nowMarker r) (by simp))
        exact ⟨T₁, nowMarker, hpurge, hacc₁, hch₁, hnext, by simp [Call.readings],
          reaches_purge hkeeps hacc (by omega) (hle now (by simp [Call.readings])) hnow hch hpurge⟩
    obtain ⟨T₁, now, hrun, hacc₁, hch₁, hnext, hnow, hreach⟩ := hstep
    obtain ⟨T', clock', hrun', hreach'⟩ := ih hacc₁ hch₁ (by omega)
      (List.pairwise_cons.mpr ⟨fun t ht => hbefore now hnow t ht, hrest⟩)
      (fun c hc => hcut c (by simp [hc])) (fun c hc => hname c (by simp [hc]))
    exact ⟨T', clock', by rw [runCalls, hrun]; exact hrun', hreach.trans hreach'⟩

theorem asksOfMarkers_true : AsksOfMarkers fun _ _ => True := fun _ _ _ => trivial

/-- An entry is logged after a purge has read its boundary, and before it takes the lock. -/
theorem reaches_lateLog {T₁ T₂ T₃ : AuditTable} {clock now : DateTime} {req : LogRequest}
    {b : PurgeBoundary} {r : Int} (hle : clock ≤ now)
    (hcutoff : computeRetentionCutoff r now = some cutoff)
    (hb : purgeBoundary? (T₁.expired cutoff) (T₁.firstSurvivor? cutoff) r = some b)
    (hlog : T₁.log env now req = some T₂) (hmarker : T₂.log env now b.request = some T₃) :
    Reaches (Database.step env) (fun _ _ => True) (quiet T₁ clock)
      (quiet (T₃.delete fun e => ((T₃.expired cutoff).map (·.sequenceNumber)).contains
        e.sequenceNumber) now) := by
  have hwait : Reaches (Database.step env) (fun _ _ => True) (quiet T₁ clock) (quiet T₁ now) :=
    reaches_tick trivial hle
  have hread : Reaches (Database.step env) (fun _ _ => True) (quiet T₁ now)
      ((quiet T₁ now).set 1 (.purgeBounded cutoff b)) :=
    reaches_bounded asksOfMarkers_true trivial rfl hcutoff hb
  have hlate : Reaches (Database.step env) (fun _ _ => True)
      ((quiet T₁ now).set 1 (.purgeBounded cutoff b))
      ((quiet T₂ now).set 1 (.purgeBounded cutoff b)) :=
    reaches_log (i := 2) asksOfMarkers_true trivial rfl rfl hlog
  exact ((hwait.trans hread).trans hlate).trans
    (reaches_deleted asksOfMarkers_true trivial rfl rfl hmarker)

/-- The tables of the run, and what is left at its end. -/
theorem rows_lateLog :
    let noon := januaryNoon 2
    let first := hashedRow spelledHash (januaryNoon 1) 1 .querySubmit "success" (.obj []) genesis
    let second := hashedRow spelledHash noon 2 .querySubmit "success" (.obj []) first.rowHash
    let boundary : PurgeBoundary := ⟨1, 1, 1, 0, first.rowHash, 1, none⟩
    ∃ T₁ T₂ T₃ : AuditTable,
      AuditTable.empty.log spelledHash (januaryNoon 1) { action := .querySubmit } = some T₁ ∧
      purgeBoundary? (T₁.expired noon) (T₁.firstSurvivor? noon) 0 = some boundary ∧
      T₁.log spelledHash noon { action := .querySubmit } = some T₂ ∧
      T₂.log spelledHash noon boundary.request = some T₃ ∧
      (T₃.delete fun e => ((T₃.expired noon).map (·.sequenceNumber)).contains
        e.sequenceNumber).rows = [second, hashedRow spelledHash noon 3 .auditPurge "success"
          boundary.context second.rowHash] :=
  ⟨_, _, _, rfl, rfl, rfl, rfl, rfl⟩

end Sequential
end Database
end QueryCraft
