import QueryCraft.AuditLog
import QueryCraft.Threaded

/-! # Verification of the retained chain

`AuditService.verify_chain` snapshots the largest sequence number, then walks
the retained rows in keyset batches of 500.  A row must carry the hash of its
own payload and link to the hash of the row walked before it (`GENESIS` for the
first).  A row that does not link is accepted only through a purge: a later
marker whose recorded boundary matches it and whose own predecessor is still
there (`purgeMarkerCoversGap`), or, for the first row walked, being itself the
marker of a purge that removed everything (`purgeMarkerIsAllPurgedBoundary`).

The marker query casts `first_surviving_seq` to a 32-bit integer on every purge row
it considers, so it can raise; `Except` keeps that apart from a reported break.

`verifyChain_eq` removes the batching: the verdict is that of one pass over the
rows numbered above zero, and `accepts_iff` turns the verdict into a statement
about each row and the one before it.
-/
namespace QueryCraft

/-- A raised database error: the cast in the marker query met text that is not an
integer, or an integer that is out of range. -/
inductive DatabaseError where
  | invalidInteger
deriving DecidableEq, Repr

/-- `VerificationResult`, without the time of the check. -/
structure VerificationResult where
  verified : Bool
  entriesChecked : Nat
  firstBreakAt : Option Int
deriving DecidableEq, Repr

/-- `_AUDIT_VERIFY_BATCH_SIZE`. -/
def auditVerifyBatchSize : Nat := 500

/-! ## Purge markers -/

/-- The part of a marker's context both boundary checks read: the purged range is
a run of integers that ends at the last retained row. -/
def purgedRange? (ctx : Json) : Option Int :=
  match (ctx.get "purged_from_seq").int?, (ctx.get "purged_to_seq").int?,
    (ctx.get "purged_count").int?, (ctx.get "retention_months").int?,
    (ctx.get "last_retained_seq").int? with
  | some purgedFrom, some purgedTo, some purgedCount, some retention, some lastRetained =>
    if 0 < purgedCount ∧ 0 ≤ retention ∧ purgedFrom ≤ purgedTo ∧
        purgedCount = purgedTo - purgedFrom + 1 ∧ lastRetained = purgedTo then some purgedTo
    else none
  | _, _, _, _, _ => none

variable (env : AuditEnv)

/-- The row carries the hash of its own payload; also `_marker_row_hash_is_valid`. -/
def AuditLogEntry.hashValid (e : AuditLogEntry) : Bool :=
  e.rowHash == env.computeRowHash e.toPayload e.prevHash

/-- `_marker_matches_gap`, for a marker that was found. -/
def markerMatchesGap (entry marker : AuditLogEntry) : Bool :=
  marker.isPurge && marker.outcome == "success" && marker.context.isDict &&
    marker.hashValid env &&
    (purgedRange? marker.context).any fun purgedTo =>
      decide (entry.sequenceNumber < marker.sequenceNumber) &&
        purgedTo == entry.sequenceNumber - 1 &&
        (marker.context.get "last_retained_hash").eqStr entry.prevHash &&
        (marker.context.get "first_surviving_seq").eqInt entry.sequenceNumber &&
        (marker.context.get "first_surviving_prev_hash").eqStr entry.prevHash

/-- `_purge_marker_is_all_purged_boundary`. -/
def purgeMarkerIsAllPurgedBoundary (entry : AuditLogEntry) (expectedPrevHash : String) : Bool :=
  expectedPrevHash == genesis && entry.isPurge && entry.outcome == "success" &&
    entry.context.isDict &&
    !(entry.context.get "first_surviving_seq").isSome &&
    !(entry.context.get "first_surviving_prev_hash").isSome &&
    (purgedRange? entry.context).any fun purgedTo =>
      entry.sequenceNumber == purgedTo + 1 &&
        (entry.context.get "last_retained_hash").eqStr entry.prevHash

namespace AuditTable

/-- The purge rows the marker query considers. -/
def purgeRows (T : AuditTable) (upper : Int) : List AuditLogEntry :=
  T.rows.filter fun r => decide (r.sequenceNumber ≤ upper) && r.isPurge

/-- `_purge_marker_for_gap`: the newest purge row that names the given survivor. -/
def purgeMarkerForGap (T : AuditTable) (firstSurviving upper : Int) :
    Except DatabaseError (Option AuditLogEntry) :=
  if (T.purgeRows upper).any (·.firstSurvivingSeq.isNone) then
    .error .invalidInteger
  else
    .ok ((T.purgeRows upper).filter
      (·.firstSurvivingSeq == some (some firstSurviving))).getLast?

/-- `_marker_predecessor_link_is_valid`. -/
def markerPredecessorLinkIsValid (T : AuditTable) (marker : AuditLogEntry) : Bool :=
  (T.rowAt? (marker.sequenceNumber - 1)).any (·.rowHash == marker.prevHash)

/-- `_purge_marker_covers_gap`. -/
def purgeMarkerCoversGap (T : AuditTable) (entry : AuditLogEntry) (upper : Int) :
    Except DatabaseError Bool :=
  (T.purgeMarkerForGap entry.sequenceNumber upper).map fun marker? =>
    marker?.any fun marker =>
      markerMatchesGap env entry marker && T.markerPredecessorLinkIsValid marker

/-! ## The walk -/

/-- The rows numbered in `(after, upper]`. -/
def window (T : AuditTable) (after upper : Int) : List AuditLogEntry :=
  T.rows.filter fun e => decide (after < e.sequenceNumber) && decide (e.sequenceNumber ≤ upper)

/-- `_verification_batch`. -/
def verificationBatch (T : AuditTable) (after upper : Int) : List AuditLogEntry :=
  (T.window after upper).take auditVerifyBatchSize

/-- One row of the walk, after a row with hash `prevHash`: whether it is accepted. -/
def verifyEntry (T : AuditTable) (upper : Int) (prevHash : String) (entry : AuditLogEntry) :
    Except DatabaseError Bool :=
  if !entry.hashValid env then .ok false
  else if entry.prevHash == prevHash then .ok true
  else (T.purgeMarkerCoversGap env entry upper).map fun covered =>
    covered || purgeMarkerIsAllPurgedBoundary entry prevHash

/-- The inner loop: `.ok (.error n)` is a break at row `n`, `.ok (.ok h)` the last
hash walked. -/
def verifyEntries (T : AuditTable) (upper : Int) :
    String → List AuditLogEntry → Except DatabaseError (Except Int String)
  | prevHash, [] => .ok (.ok prevHash)
  | prevHash, entry :: entries =>
    match T.verifyEntry env upper prevHash entry with
    | .error err => .error err
    | .ok false => .ok (.error entry.sequenceNumber)
    | .ok true => T.verifyEntries upper entry.rowHash entries

theorem mem_verificationBatch {T : AuditTable} {after upper : Int} {e : AuditLogEntry}
    (h : e ∈ T.verificationBatch after upper) :
    e ∈ T.rows ∧ after < e.sequenceNumber ∧ e.sequenceNumber ≤ upper := by
  obtain ⟨hrow, hp⟩ := List.mem_filter.mp (List.mem_of_mem_take h)
  simpa using And.intro hrow hp

/-- The outer loop: the sequence number of the first break, if any. -/
def verifyBatches (T : AuditTable) (upper : Int) (prevHash : String) (lastSequence : Int) :
    Except DatabaseError (Option Int) :=
  if lastSequence < upper then
    match _hlast : (T.verificationBatch lastSequence upper).getLast? with
    | none => .ok none
    | some lastEntry =>
      match T.verifyEntries env upper prevHash (T.verificationBatch lastSequence upper) with
      | .error err => .error err
      | .ok (.error brk) => .ok (some brk)
      | .ok (.ok prevHash') =>
        if (T.verificationBatch lastSequence upper).length < auditVerifyBatchSize then .ok none
        else T.verifyBatches upper prevHash' lastEntry.sequenceNumber
  else .ok none
termination_by (T.rows.filter fun e => decide (lastSequence < e.sequenceNumber)).length
decreasing_by
  -- the batch is not empty, so its last row is left behind
  obtain ⟨hrow, hlt, -⟩ := mem_verificationBatch (List.mem_of_getLast? _hlast)
  have hsub : T.rows.filter (fun e => decide (lastEntry.sequenceNumber < e.sequenceNumber)) =
      (T.rows.filter fun e => decide (lastSequence < e.sequenceNumber)).filter
        (fun e => decide (lastEntry.sequenceNumber < e.sequenceNumber)) := by
    rw [List.filter_filter]
    refine List.filter_congr fun e _ => ?_
    rw [Bool.eq_iff_iff]
    simp only [Bool.and_eq_true, decide_eq_true_eq]
    omega
  rw [hsub]
  exact List.length_filter_lt_length_iff_exists.mpr
    ⟨lastEntry, List.mem_filter.mpr ⟨hrow, by simpa using hlt⟩, by simp⟩

/-- `AuditService.verify_chain`. -/
def verifyChain (T : AuditTable) : Except DatabaseError VerificationResult :=
  match T.lastSequence? with
  | none => .ok ⟨true, 0, none⟩
  | some upper =>
    (T.verifyBatches env upper genesis 0).map fun firstBreakAt =>
      ⟨firstBreakAt.isNone, T.rows.length, firstBreakAt⟩

/-! ## Batching does not matter -/

/-- The outcome of a walk as `first_break_at`. -/
def firstBreak : Except Int String → Option Int
  | .error brk => some brk
  | .ok _ => none

theorem verifyEntries_append (T : AuditTable) (upper : Int) (prevHash : String)
    (xs ys : List AuditLogEntry) :
    T.verifyEntries env upper prevHash (xs ++ ys) =
      match T.verifyEntries env upper prevHash xs with
      | .error err => .error err
      | .ok (.error brk) => .ok (.error brk)
      | .ok (.ok prevHash') => T.verifyEntries env upper prevHash' ys := by
  induction xs generalizing prevHash with
  | nil => rfl
  | cons x xs ih =>
    rw [List.cons_append, verifyEntries, verifyEntries]
    cases T.verifyEntry env upper prevHash x with
    | error err => rfl
    | ok b =>
      cases b with
      | false => rfl
      | true => exact ih x.rowHash

/-- In a list ascending in the sequence number, the rows numbered above one of
them are the rows after it. -/
theorem filter_above_of_split {xs ys : List AuditLogEntry} {p : AuditLogEntry}
    (h : (xs ++ p :: ys).Pairwise (fun a b => a.sequenceNumber < b.sequenceNumber)) :
    (xs ++ p :: ys).filter (fun e => decide (p.sequenceNumber < e.sequenceNumber)) = ys := by
  obtain ⟨-, hp, hxs⟩ := List.pairwise_append.mp h
  have h1 : xs.filter (fun e => decide (p.sequenceNumber < e.sequenceNumber)) = [] :=
    List.filter_eq_nil_iff.mpr fun x hx => by
      have := hxs x hx p (by simp)
      simp only [decide_eq_true_eq]
      omega
  have h2 : ys.filter (fun e => decide (p.sequenceNumber < e.sequenceNumber)) = ys :=
    List.filter_eq_self.mpr fun y hy => by simpa using (List.pairwise_cons.mp hp).1 y hy
  rw [List.filter_append, h1, List.filter_cons_of_neg (by simp), h2, List.nil_append]

theorem window_eq_batch_append (T : AuditTable) (after upper : Int) :
    T.window after upper =
      T.verificationBatch after upper ++ (T.window after upper).drop auditVerifyBatchSize :=
  (List.take_append_drop ..).symm

/-- After a full batch the window is the rest of the previous one. -/
theorem window_eq_drop {T : AuditTable} {after upper : Int} {lastEntry : AuditLogEntry}
    (hlast : (T.verificationBatch after upper).getLast? = some lastEntry) :
    T.window lastEntry.sequenceNumber upper =
      (T.window after upper).drop auditVerifyBatchSize := by
  obtain ⟨xs, hxs⟩ := List.getLast?_eq_some_iff.mp hlast
  have hsplit : T.window after upper =
      xs ++ lastEntry :: (T.window after upper).drop auditVerifyBatchSize := by
    conv_lhs => rw [window_eq_batch_append, hxs]
    simp
  have hasc : (T.window after upper).Pairwise
      (fun a b => a.sequenceNumber < b.sequenceNumber) := T.ascending.filter _
  have hmem := mem_verificationBatch (List.mem_of_getLast? hlast)
  have hfilter : T.window lastEntry.sequenceNumber upper =
      (T.window after upper).filter
        (fun e => decide (lastEntry.sequenceNumber < e.sequenceNumber)) := by
    rw [window, window, List.filter_filter]
    refine List.filter_congr fun e _ => ?_
    rw [Bool.eq_iff_iff]
    simp only [Bool.and_eq_true, decide_eq_true_eq]
    omega
  rw [hsplit] at hasc
  rw [hfilter]
  conv_lhs => rw [hsplit]
  exact filter_above_of_split hasc

/-- **Batched verification is one pass** over the rows above the cursor. -/
theorem verifyBatches_eq (T : AuditTable) (upper : Int) (prevHash : String) (after : Int) :
    T.verifyBatches env upper prevHash after =
      (T.verifyEntries env upper prevHash (T.window after upper)).map firstBreak := by
  fun_induction AuditTable.verifyBatches env T upper prevHash after with
  | case1 prevHash after hlt hnone =>
    -- an empty batch: nothing is left
    have : T.window after upper = [] := by
      rcases List.take_eq_nil_iff.mp (List.getLast?_eq_none_iff.mp hnone) with h | h
      · exact absurd h (by decide)
      · exact h
    rw [this]; rfl
  | case2 prevHash after hlt lastEntry hlast err herr =>
    rw [window_eq_batch_append, verifyEntries_append, herr]
    rfl
  | case3 prevHash after hlt lastEntry hlast brk hbrk =>
    rw [window_eq_batch_append, verifyEntries_append, hbrk]
    rfl
  | case4 prevHash after hlt lastEntry hlast prevHash' hok hshort =>
    -- a short batch is the whole window
    have hall : T.verificationBatch after upper = T.window after upper := by
      refine List.take_of_length_le ?_
      have : (T.verificationBatch after upper).length =
        min auditVerifyBatchSize (T.window after upper).length := List.length_take
      omega
    rw [← hall, hok]; rfl
  | case5 prevHash after hlt lastEntry hlast prevHash' hok hfull ih =>
    conv_rhs => rw [window_eq_batch_append, verifyEntries_append, hok]
    rw [ih, window_eq_drop hlast]
  | case6 prevHash after hge =>
    have : T.window after upper = [] := List.filter_eq_nil_iff.mpr fun e _ => by
      simp only [Bool.and_eq_true, decide_eq_true_eq]
      omega
    rw [this]; rfl

/-! ## Acceptance -/

/-- The snapshot bound: the largest sequence number. -/
def upper (T : AuditTable) : Int := T.lastSequence?.getD 0

/-- The walk starts above sequence zero. -/
def positive (rows : List AuditLogEntry) : List AuditLogEntry :=
  rows.filter fun e => decide (0 < e.sequenceNumber)

/-- The rows the walk visits. -/
def visited (T : AuditTable) : List AuditLogEntry := positive T.rows

theorem positive_append (xs ys : List AuditLogEntry) :
    positive (xs ++ ys) = positive xs ++ positive ys := List.filter_append ..

theorem positive_cons_of_pos {e : AuditLogEntry} (h : 0 < e.sequenceNumber)
    (xs : List AuditLogEntry) : positive (e :: xs) = e :: positive xs :=
  List.filter_cons_of_pos (by simpa using h)

theorem positive_cons_of_neg {e : AuditLogEntry} (h : ¬ 0 < e.sequenceNumber)
    (xs : List AuditLogEntry) : positive (e :: xs) = positive xs :=
  List.filter_cons_of_neg (by simpa using h)

theorem positive_eq_nil {rows : List AuditLogEntry}
    (h : ∀ e ∈ rows, ¬ 0 < e.sequenceNumber) : positive rows = [] :=
  List.filter_eq_nil_iff.mpr fun e he => by simpa using h e he

theorem mem_positive {rows : List AuditLogEntry} {e : AuditLogEntry} :
    e ∈ positive rows ↔ e ∈ rows ∧ 0 < e.sequenceNumber := by
  simp [positive]

/-- `verify_chain` returns `verified = True`. -/
def Accepts (T : AuditTable) : Prop :=
  ∃ r, T.verifyChain env = .ok r ∧ r.verified = true

theorem le_upper {T : AuditTable} {e : AuditLogEntry} (he : e ∈ T.rows) :
    e.sequenceNumber ≤ T.upper := by
  have := T.lt_nextSequence he
  rw [nextSequence] at this
  rw [upper]
  omega

theorem window_zero_upper (T : AuditTable) : T.window 0 T.upper = T.visited := by
  refine List.filter_congr fun e he => ?_
  have := le_upper he
  rw [Bool.eq_iff_iff]
  simp only [Bool.and_eq_true, decide_eq_true_eq]
  omega

/-- **The verdict is that of a single pass** over the visited rows. -/
theorem verifyChain_eq (T : AuditTable) :
    T.verifyChain env =
      (T.verifyEntries env T.upper genesis T.visited).map fun walk =>
        ⟨(firstBreak walk).isNone, T.rows.length, firstBreak walk⟩ := by
  unfold verifyChain
  split
  · rename_i hnone
    have hrows : T.rows = [] := by simpa [lastSequence?] using hnone
    simp [visited, positive, hrows, verifyEntries, Except.map, firstBreak]
  · rename_i u hu
    have hupper : u = T.upper := by simp [upper, hu]
    rw [verifyBatches_eq, hupper, window_zero_upper]
    cases T.verifyEntries env T.upper genesis T.visited with
    | error err => rfl
    | ok walk => rfl

theorem verifyEntries_eq_ok_iff (T : AuditTable) (u : Int) (prevHash : String)
    (entries : List AuditLogEntry) :
    (∃ h, T.verifyEntries env u prevHash entries = .ok (.ok h)) ↔
      Threaded (fun prev e => T.verifyEntry env u prev e = .ok true) (·.rowHash)
        prevHash entries := by
  induction entries generalizing prevHash with
  | nil => simp [verifyEntries]
  | cons e es ih =>
    rw [threaded_cons, ← ih, verifyEntries]
    cases T.verifyEntry env u prevHash e with
    | error err => simp
    | ok b => cases b <;> simp

/-- **Acceptance, row by row**: every visited row is accepted after the row visited
before it. -/
theorem accepts_iff (T : AuditTable) :
    T.Accepts env ↔
      Threaded (fun prev e => T.verifyEntry env T.upper prev e = .ok true) (·.rowHash)
        genesis T.visited := by
  rw [Accepts, verifyChain_eq, ← verifyEntries_eq_ok_iff]
  cases T.verifyEntries env T.upper genesis T.visited with
  | error err => simp [Except.map]
  | ok walk => cases walk <;> simp [Except.map, firstBreak]

/-- An accepted table has no break. -/
theorem verifyChain_of_accepts {T : AuditTable} (h : T.Accepts env) :
    T.verifyChain env = .ok ⟨true, T.rows.length, none⟩ := by
  obtain ⟨hash, hok⟩ := (verifyEntries_eq_ok_iff ..).mpr ((accepts_iff env T).mp h)
  rw [verifyChain_eq, hok]
  rfl

/-- What accepting a row means. -/
theorem verifyEntry_iff (T : AuditTable) (u : Int) (prevHash : String) (e : AuditLogEntry) :
    T.verifyEntry env u prevHash e = .ok true ↔
      e.hashValid env = true ∧ (e.prevHash = prevHash ∨
        T.purgeMarkerCoversGap env e u = .ok true ∨
        (T.purgeMarkerCoversGap env e u = .ok false ∧
          purgeMarkerIsAllPurgedBoundary e prevHash = true)) := by
  unfold verifyEntry
  cases e.hashValid env with
  | false => simp
  | true =>
    by_cases hlink : e.prevHash = prevHash
    · simp [hlink]
    · cases T.purgeMarkerCoversGap env e u with
      | error err => simp [hlink, Except.map]
      | ok b => cases b <;> simp [hlink, Except.map]

end AuditTable
end QueryCraft
