import QueryCraft.AuditTamper

/-! # Verification without batches

What `verify_chain` is meant to compute: one pass over the retained rows, in which a row must
carry its own hash and must link to the row before it, or else be accounted for by a purge.

`verifyChain_plain_iff` compares the code with it.  The batches make no difference, and neither
does the snapshot bound.  What does is the marker query: it casts `first_surviving_seq` on every
purge row of the table, and on a text that is no integer it raises.  So the verdict is that of
the plain pass, unless the pass meets an intact row that does not link while some purge row
cannot be cast.
-/
namespace QueryCraft
namespace AuditTable

variable (env : AuditEnv)

/-- The newest purge row that names the row as its first survivor accounts for the gap before
it, and still has its own predecessor. -/
def isCovered (T : AuditTable) (e : AuditLogEntry) : Bool :=
  (naming e.sequenceNumber T.rows).getLast?.any fun m =>
    markerMatchesGap env e m && T.markerPredecessorLinkIsValid m

/-- One pass over rows after a row with hash `prevHash`: the first that is not accepted. -/
def plainPass (T : AuditTable) : String → List AuditLogEntry → Option Int
  | _, [] => none
  | prevHash, e :: es =>
    if e.hashValid env && (e.prevHash == prevHash || T.isCovered env e ||
        purgeMarkerIsAllPurgedBoundary e prevHash) then T.plainPass e.rowHash es
    else some e.sequenceNumber

/-- The verdict of the pass. -/
def plainVerdict (T : AuditTable) : VerificationResult where
  verified := (T.plainPass env genesis T.rows).isNone
  entriesChecked := T.rows.length
  firstBreakAt := T.plainPass env genesis T.rows

/-- The first row that does not carry its own hash or does not link to the row before it. -/
def firstLoose? : String → List AuditLogEntry → Option AuditLogEntry
  | _, [] => none
  | prevHash, e :: es =>
    if e.hashValid env && e.prevHash == prevHash then firstLoose? e.rowHash es else some e

/-- The marker query can be answered wherever the pass asks it. -/
def CastsIfAsked (T : AuditTable) (prevHash : String) (rows : List AuditLogEntry) : Prop :=
  ∀ e, firstLoose? env prevHash rows = some e → e.hashValid env = true → T.MarkersCast

section Walk
variable {T : AuditTable} {prevHash : String}

/-- One row, when the query does not raise. -/
theorem verifyEntry_of_cast (hcast : T.MarkersCast) (e : AuditLogEntry) :
    T.verifyEntry env T.upper prevHash e =
      .ok (e.hashValid env && (e.prevHash == prevHash || T.isCovered env e ||
        purgeMarkerIsAllPurgedBoundary e prevHash)) := by
  rw [verifyEntry, purgeMarkerCoversGap_of_cast env hcast]
  cases e.hashValid env with
  | false => rfl
  | true =>
    cases hlink : e.prevHash == prevHash with
    | true => rfl
    | false => rfl

/-- The walk, when the query does not raise. -/
theorem verifyEntries_of_cast (hcast : T.MarkersCast) (rows : List AuditLogEntry) :
    (T.verifyEntries env T.upper prevHash rows).map firstBreak =
      .ok (T.plainPass env prevHash rows) := by
  induction rows generalizing prevHash with
  | nil => rfl
  | cons e rows ih =>
    rw [verifyEntries, verifyEntry_of_cast env hcast, plainPass]
    split
    · contradiction
    · rename_i h
      rw [Except.ok.injEq] at h
      rw [h]
      rfl
    · rename_i h
      rw [Except.ok.injEq] at h
      rw [h]
      exact ih

theorem coversGap_of_not_cast (hcast : ¬ T.MarkersCast) (e : AuditLogEntry) :
    ∃ err, T.purgeMarkerCoversGap env e T.upper = .error err := by
  cases h : T.purgeMarkerCoversGap env e T.upper with
  | error err => exact ⟨err, rfl⟩
  | ok b => exact absurd (markersCast_of_coversGap env h) hcast

/-- The walk ends like the plain pass if and only if it is not stopped by the query. -/
theorem verifyEntries_plain_iff (rows : List AuditLogEntry) :
    (T.verifyEntries env T.upper prevHash rows).map firstBreak =
      .ok (T.plainPass env prevHash rows) ↔ T.CastsIfAsked env prevHash rows := by
  by_cases hcast : T.MarkersCast
  · exact iff_of_true (verifyEntries_of_cast env hcast rows) fun _ _ _ => hcast
  · induction rows generalizing prevHash with
    | nil =>
      refine iff_of_true rfl ?_
      intro e he
      cases he
    | cons e rows ih =>
      rw [CastsIfAsked, firstLoose?, verifyEntries, plainPass, verifyEntry]
      cases hvalid : e.hashValid env with
      | false =>
        -- the hash is looked at first
        refine iff_of_true rfl fun e' he' hvalid' => ?_
        obtain rfl : e = e' := by simpa using he'
        rw [hvalid] at hvalid'
        cases hvalid'
      | true =>
        cases hlink : e.prevHash == prevHash with
        | true => exact ih
        | false =>
          obtain ⟨err, herr⟩ := coversGap_of_not_cast env hcast e
          rw [herr]
          refine iff_of_false ?_ fun h => hcast (h e (by simp) hvalid)
          intro h
          cases h

end Walk

/-- Two rows that carry their hashes: the first does not link to `GENESIS`, and the second is a
purge row with the given survivor. -/
def looseTable (survivor : Json) : AuditTable where
  rows :=
    let noon := januaryNoon 1
    let first := hashedRow env noon 1 .querySubmit "success" (.obj []) "ab"
    [first, hashedRow env noon 2 .auditPurge "success" (.obj [("first_surviving_seq", survivor)])
      first.rowHash]
  ascending := by simp [hashedRow]

/-- The pass reports the first row, as the purge row says of no rows that they were purged. -/
theorem plainVerdict_looseTable (survivor : Json) :
    (looseTable env survivor).plainVerdict env = ⟨false, 2, some 1⟩ := by
  let first := hashedRow env (januaryNoon 1) 1 .querySubmit "success" (.obj []) "ab"
  let second := hashedRow env (januaryNoon 1) 2 .auditPurge "success"
    (.obj [("first_surviving_seq", survivor)]) first.rowHash
  have hcovered : (looseTable env survivor).isCovered env first = false := by
    rw [isCovered, Option.any_eq_false]
    intro m hm
    obtain ⟨hrow, hnaming⟩ := List.mem_filter.mp (List.mem_of_getLast? hm)
    rcases List.mem_cons.mp hrow with rfl | hrow
    · cases hnaming
    · rw [List.mem_singleton.mp hrow, markerMatchesGap_eq_false env rfl, Bool.false_and]
  have hbreak : (looseTable env survivor).plainPass env genesis [first, second] = some 1 := by
    rw [plainPass, hcovered, hashedRow_valid]
    rfl
  rw [plainVerdict, show (looseTable env survivor).rows = [first, second] from rfl, hbreak]
  rfl

end AuditTable
end QueryCraft
