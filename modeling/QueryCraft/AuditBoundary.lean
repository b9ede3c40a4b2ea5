import QueryCraft.AuditVerification

/-! # How writes keep a table accepted

Acceptance of a row depends on the row before it and, where the two do not link,
on the purge rows of the table.  `Covers` states the marker test without the
query machinery, and `verifyEntry_transfer` says what a row's acceptance may be
moved across: dropping or replacing rows below it, and appending rows that do
not name it as a survivor.

From it come the two facts the retention and the concurrency results share:

* `accepts_log`: a logged row keeps an accepted table accepted, unless it names a
  row of the table as a survivor;
* `IsPurgeOf.accepts`: removing an expired prefix keeps a table accepted if the
  boundary its marker records describes what the deletion leaves (`Describes`).

Neither asks where the table came from.
-/
namespace QueryCraft

/-- A request with the action `audit.purge` leaves `first_surviving_seq` out of its
context (as it is stored). -/
def LogRequest.NamesNoSurvivor (env : AuditEnv) (req : LogRequest) : Prop :=
  req.action = .auditPurge →
    (env.redactAuditValue req.context).get "first_surviving_seq" = .null

namespace AuditTable

variable (env : AuditEnv)

/-- Every purge row's `first_surviving_seq` can be cast to a 32-bit integer, so that the
marker query does not raise. -/
def MarkersCast (T : AuditTable) : Prop :=
  ∀ r ∈ T.rows, r.isPurge = true → r.firstSurvivingSeq ≠ none

/-- A marker of the table covers the row, as the code decides it. -/
def Covers (T : AuditTable) (e : AuditLogEntry) : Prop :=
  T.purgeMarkerCoversGap env e T.upper = .ok true

/-- The purge rows that name `n` as the first survivor. -/
def naming (n : Int) (rows : List AuditLogEntry) : List AuditLogEntry :=
  rows.filter fun r => r.isPurge && r.firstSurvivingSeq == some (some n)

theorem naming_append (n : Int) (xs ys : List AuditLogEntry) :
    naming n (xs ++ ys) = naming n xs ++ naming n ys := List.filter_append ..

theorem purgeRows_upper (T : AuditTable) :
    T.purgeRows T.upper = T.rows.filter (·.isPurge) := by
  refine List.filter_congr fun r hr => ?_
  simp [le_upper hr]

theorem purgeMarkerForGap_of_cast {T : AuditTable} (hc : T.MarkersCast) (n : Int) :
    T.purgeMarkerForGap n T.upper = .ok (naming n T.rows).getLast? := by
  unfold purgeMarkerForGap
  rw [purgeRows_upper, if_neg, List.filter_filter]
  · congr 3
    funext r
    exact Bool.and_comm _ _
  · intro hany
    obtain ⟨r, hr, hnone⟩ := List.any_eq_true.mp hany
    obtain ⟨hrow, hp⟩ := List.mem_filter.mp hr
    exact hc r hrow hp (by simpa using hnone)

theorem markersCast_of_ok {T : AuditTable} {n : Int} {m : Option AuditLogEntry}
    (h : T.purgeMarkerForGap n T.upper = .ok m) : T.MarkersCast := by
  intro r hr hp hnone
  unfold purgeMarkerForGap at h
  rw [purgeRows_upper, if_pos] at h
  · cases h
  · exact List.any_eq_true.mpr ⟨r, List.mem_filter.mpr ⟨hr, hp⟩, by simp [hnone]⟩

/-- The marker test, when the query does not raise. -/
theorem purgeMarkerCoversGap_of_cast {T : AuditTable} (hc : T.MarkersCast) (e : AuditLogEntry) :
    T.purgeMarkerCoversGap env e T.upper =
      .ok ((naming e.sequenceNumber T.rows).getLast?.any fun m =>
        markerMatchesGap env e m && T.markerPredecessorLinkIsValid m) := by
  rw [purgeMarkerCoversGap, purgeMarkerForGap_of_cast hc]
  rfl

theorem markersCast_of_coversGap {T : AuditTable} {e : AuditLogEntry} {b : Bool}
    (h : T.purgeMarkerCoversGap env e T.upper = .ok b) : T.MarkersCast := by
  unfold purgeMarkerCoversGap at h
  cases hm : T.purgeMarkerForGap e.sequenceNumber T.upper with
  | error err => rw [hm] at h; cases h
  | ok m => exact markersCast_of_ok hm

theorem covers_iff (T : AuditTable) (e : AuditLogEntry) :
    T.Covers env e ↔ T.MarkersCast ∧
      ∃ m, (naming e.sequenceNumber T.rows).getLast? = some m ∧
        markerMatchesGap env e m = true ∧ T.markerPredecessorLinkIsValid m = true := by
  constructor
  · intro h
    have hc := markersCast_of_coversGap env h
    rw [Covers, purgeMarkerCoversGap_of_cast env hc] at h
    cases hm : (naming e.sequenceNumber T.rows).getLast? with
    | none => rw [hm] at h; cases h
    | some m =>
      rw [hm] at h
      exact ⟨hc, m, rfl, by simpa using Except.ok.inj h⟩
  · rintro ⟨hc, m, hm, h1, h2⟩
    rw [Covers, purgeMarkerCoversGap_of_cast env hc, hm]
    simp [h1, h2]

/-- A marker that matches a row is numbered above it. -/
theorem lt_of_markerMatchesGap {e m : AuditLogEntry} (h : markerMatchesGap env e m = true) :
    e.sequenceNumber < m.sequenceNumber := by
  unfold markerMatchesGap at h
  simp only [Bool.and_eq_true] at h
  obtain ⟨-, h⟩ := h
  cases hr : purgedRange? m.context with
  | none => rw [hr] at h; cases h
  | some purgedTo =>
    rw [hr] at h
    simp only [Option.any_some, Bool.and_eq_true, decide_eq_true_eq] at h
    exact h.1.1.1.1

/-- Rows below a row of an ascending list's tail are numbered below it. -/
theorem lt_of_mem_append {T : AuditTable} {xs ys : List AuditLogEntry} (h : T.rows = xs ++ ys)
    {x y : AuditLogEntry} (hx : x ∈ xs) (hy : y ∈ ys) : x.sequenceNumber < y.sequenceNumber := by
  have hasc := T.ascending
  rw [h] at hasc
  exact (List.pairwise_append.mp hasc).2.2 x hx y hy

/-- A row of the table numbered at least as high as one of the tail is in the
tail. -/
theorem mem_tail_of_le {T : AuditTable} {xs ys : List AuditLogEntry} (h : T.rows = xs ++ ys)
    {e r : AuditLogEntry} (he : e ∈ ys) (hr : r ∈ T.rows)
    (hle : e.sequenceNumber ≤ r.sequenceNumber) : r ∈ ys := by
  rw [h] at hr
  rcases List.mem_append.mp hr with hx | hy
  · have := lt_of_mem_append h hx he
    omega
  · exact hy

section Transfer
variable {T T' : AuditTable} {xs ys S N : List AuditLogEntry} {e : AuditLogEntry}

theorem markersCast_transfer (hT : T.rows = xs ++ S) (hT' : T'.rows = ys ++ S ++ N)
    (hys : ∀ r ∈ ys, r.isPurge = true → r.firstSurvivingSeq ≠ none)
    (hN : ∀ r ∈ N, r.isPurge = true → r.firstSurvivingSeq ≠ none)
    (hc : T.MarkersCast) : T'.MarkersCast := by
  intro r hr hp
  rw [hT'] at hr
  rcases List.mem_append.mp hr with hr | hr
  · rcases List.mem_append.mp hr with hr | hr
    · exact hys r hr hp
    · exact hc r (by rw [hT]; exact List.mem_append_right _ hr) hp
  · exact hN r hr hp

/-- A covered row stays covered when rows below it change and rows that do not
name it are appended. -/
theorem covers_transfer (hT : T.rows = xs ++ S) (hT' : T'.rows = ys ++ S ++ N) (he : e ∈ S)
    (hys : ∀ r ∈ ys, r.isPurge = true → r.firstSurvivingSeq ≠ none)
    (hN : ∀ r ∈ N, r.isPurge = true → r.firstSurvivingSeq ≠ none ∧
      r.firstSurvivingSeq ≠ some (some e.sequenceNumber))
    (h : T.Covers env e) : T'.Covers env e := by
  obtain ⟨hc, m, hm, hmatch, hpred⟩ := (covers_iff env T e).mp h
  refine (covers_iff env T' e).mpr
    ⟨markersCast_transfer hT hT' hys (fun r hr hp => (hN r hr hp).1) hc, m, ?_, hmatch, ?_⟩
  · -- the newest marker naming `e` lies above `e`, hence in the common part
    have hmS : m ∈ S := by
      have hmem : m ∈ T.rows := (List.mem_filter.mp (List.mem_of_getLast? hm)).1
      exact mem_tail_of_le hT he hmem (Int.le_of_lt (lt_of_markerMatchesGap env hmatch))
    have hmName : m ∈ naming e.sequenceNumber S :=
      List.mem_filter.mpr ⟨hmS, (List.mem_filter.mp (List.mem_of_getLast? hm)).2⟩
    have hne : naming e.sequenceNumber S ≠ [] := List.ne_nil_of_mem hmName
    have hNnil : naming e.sequenceNumber N = [] := List.filter_eq_nil_iff.mpr fun r hr => by
      intro hp
      simp only [Bool.and_eq_true, beq_iff_eq] at hp
      exact (hN r hr hp.1).2 hp.2
    rw [hT, naming_append, List.getLast?_append_of_ne_nil _ hne] at hm
    rw [hT', naming_append, naming_append, hNnil, List.append_nil,
      List.getLast?_append_of_ne_nil _ hne, hm]
  · -- its predecessor is `e` or lies above it
    unfold markerPredecessorLinkIsValid at hpred ⊢
    cases hp : T.rowAt? (m.sequenceNumber - 1) with
    | none => rw [hp] at hpred; cases hpred
    | some p =>
      obtain ⟨hpm, hpn⟩ := (T.rowAt?_eq_some_iff).mp hp
      have hlt := lt_of_markerMatchesGap env hmatch
      have hpS : p ∈ S := mem_tail_of_le hT he hpm (by omega)
      have hp' : T'.rowAt? (m.sequenceNumber - 1) = some p :=
        (T'.rowAt?_eq_some_iff).mpr ⟨by rw [hT']; simp [hpS], hpn⟩
      rw [hp'] ; rw [hp] at hpred
      exact hpred

/-- **What a row's acceptance depends on.** -/
theorem verifyEntry_transfer {prevHash : String} (hT : T.rows = xs ++ S)
    (hT' : T'.rows = ys ++ S ++ N) (he : e ∈ S)
    (hys : ∀ r ∈ ys, r.isPurge = true → r.firstSurvivingSeq ≠ none)
    (hN : ∀ r ∈ N, r.isPurge = true → r.firstSurvivingSeq ≠ none ∧
      r.firstSurvivingSeq ≠ some (some e.sequenceNumber))
    (h : T.verifyEntry env T.upper prevHash e = .ok true) :
    T'.verifyEntry env T'.upper prevHash e = .ok true := by
  rw [verifyEntry_iff] at h ⊢
  obtain ⟨hhash, hlink | hcov | ⟨hcov, hall⟩⟩ := h
  · exact ⟨hhash, Or.inl hlink⟩
  · exact ⟨hhash, Or.inr (Or.inl (covers_transfer env hT hT' he hys hN hcov))⟩
  · have hc' : T'.MarkersCast := markersCast_transfer hT hT' hys (fun r hr hp => (hN r hr hp).1)
      (markersCast_of_coversGap env hcov)
    refine ⟨hhash, Or.inr ?_⟩
    rw [purgeMarkerCoversGap_of_cast env hc']
    cases (naming e.sequenceNumber T'.rows).getLast?.any _ with
    | true => exact Or.inl rfl
    | false => exact Or.inr ⟨rfl, hall⟩

end Transfer
/-! ## Logging -/

/-- The row `log` builds links to the row visited last. -/
theorem IsNextEntry.prevHash_eq {T : AuditTable} {now : DateTime} {req : LogRequest}
    {e : AuditLogEntry} (h : IsNextEntry env T now req e) (hpos : 0 < e.sequenceNumber) :
    e.prevHash = stateAfter (·.rowHash) genesis T.visited := by
  rw [h.sequenceNumber] at hpos
  rcases List.eq_nil_or_concat T.rows with hnil | ⟨xs, last, hrows⟩
  · rw [h.first (by simp [nextSequence, lastSequence?, hnil]), visited, hnil]
    rfl
  · rw [List.concat_eq_append] at hrows
    have hnext := nextSequence_concat hrows
    by_cases h1 : T.nextSequence = 1
    · -- every row is numbered zero or below, so none was visited
      have hnone : T.visited = [] := positive_eq_nil fun r hr => by
        have := T.lt_nextSequence hr
        omega
      rw [h.first h1, hnone]
      rfl
    · rw [h.linked xs last hrows h1, visited, hrows, positive_append,
        positive_cons_of_pos (by omega)]
      exact (stateAfter_concat ..).symm

theorem hashValid_of_eq {e : AuditLogEntry}
    (h : e.rowHash = env.computeRowHash e.toPayload e.prevHash) : e.hashValid env = true := by
  simpa [AuditLogEntry.hashValid] using h

/-- **Logging keeps a table accepted**, as long as the row does not name a row of
the table as the survivor of a purge. -/
theorem accepts_log {T T' : AuditTable} {now : DateTime} {req : LogRequest} {e : AuditLogEntry}
    (hacc : T.Accepts env) (he : IsNextEntry env T now req e) (hrows : T'.rows = T.rows ++ [e])
    (hname : e.isPurge = true → e.firstSurvivingSeq ≠ none ∧
      ∀ r ∈ T.rows, e.firstSurvivingSeq ≠ some (some r.sequenceNumber)) : T'.Accepts env := by
  rw [accepts_iff] at hacc ⊢
  rw [visited, hrows, positive_append, threaded_append]
  refine ⟨hacc.imp fun prev r hr hok => ?_, ?_⟩
  · have hmem := (mem_positive.mp hr).1
    have hT : T.rows = [] ++ T.rows := rfl
    have hT' : T'.rows = [] ++ T.rows ++ [e] := by simpa using hrows
    refine verifyEntry_transfer env hT hT' hmem (by simp) ?_ hok
    intro n hn hp
    rw [List.mem_singleton.mp hn] at hp ⊢
    exact ⟨(hname hp).1, (hname hp).2 r hmem⟩
  · by_cases hpos : 0 < e.sequenceNumber
    · rw [positive_cons_of_pos hpos]
      refine ⟨(verifyEntry_iff ..).mpr ⟨hashValid_of_eq env he.rowHash, Or.inl ?_⟩, trivial⟩
      exact he.prevHash_eq env hpos
    · rw [positive_cons_of_neg hpos]
      trivial

/-- The row of such a request names nobody, if it is a purge row at all. -/
theorem IsNextEntry.firstSurvivingSeq_eq {T : AuditTable} {now : DateTime} {req : LogRequest}
    {e : AuditLogEntry} (h : IsNextEntry env T now req e) (hname : req.NamesNoSurvivor env)
    (hp : e.isPurge = true) : e.firstSurvivingSeq = some none := by
  have hact : req.action = .auditPurge := by
    refine AuditActionType.value_eq_purge ?_
    rw [← h.actionType]
    simpa [AuditLogEntry.isPurge] using hp
  rw [AuditLogEntry.firstSurvivingSeq, h.context, hname hact]
  rfl

theorem accepts_logged {T T' : AuditTable} {now : DateTime} {req : LogRequest}
    {e : AuditLogEntry} (hacc : T.Accepts env) (he : IsNextEntry env T now req e)
    (hrows : T'.rows = T.rows ++ [e]) (hname : req.NamesNoSurvivor env) : T'.Accepts env := by
  refine accepts_log env hacc he hrows fun hp => ?_
  rw [he.firstSurvivingSeq_eq env hname hp]
  simp

/-! ## Purging -/

/-- The rows with `timestamp >= cutoff`. -/
def retained (T : AuditTable) (cutoff : DateTime) : List AuditLogEntry :=
  T.rows.filter (cutoff ≤ ·.timestamp)

/-- The boundary describes what a deletion of the expired rows leaves: it names the
first retained row and ends right before it; or nothing is retained and it ends
with the last row; or nothing is deleted and it names no row of the table. -/
inductive Describes (T : AuditTable) (cutoff : DateTime) (b : PurgeBoundary) : Prop where
  | survivor (s : AuditLogEntry) (rest : List AuditLogEntry)
      (retained : T.retained cutoff = s :: rest)
      (named : b.firstSurviving = some (s.sequenceNumber, s.prevHash))
      (upTo : b.purgedToSeq = s.sequenceNumber - 1) (hash : b.lastRetainedHash = s.prevHash)
  | everything (last : AuditLogEntry) (retained : T.retained cutoff = [])
      (isLast : T.rows.getLast? = some last) (named : b.firstSurviving = none)
      (upTo : b.purgedToSeq = last.sequenceNumber) (hash : b.lastRetainedHash = last.rowHash)
  | nothing (expired : T.expired cutoff = [])
      (named : ∀ r ∈ T.rows, b.firstSurviving.map (·.1) ≠ some r.sequenceNumber)

/-- The boundary fits the table: the expired rows come before every other row, the
boundary records them as an unbroken run and describes what is left, and neither the
retained purge rows nor the marker make the marker query raise. -/
structure Fits (T : AuditTable) (cutoff : DateTime) (b : PurgeBoundary) : Prop where
  split : T.rows = T.expired cutoff ++ T.retained cutoff
  range : purgedRange? b.context = some b.purgedToSeq
  describes : T.Describes cutoff b
  cast : ∀ r ∈ T.retained cutoff, r.isPurge = true → r.firstSurvivingSeq ≠ none
  named : ∀ s ∈ b.firstSurviving, Json.inIntegerRange s.1 = true

theorem firstSurvivor?_eq (T : AuditTable) (cutoff : DateTime) :
    T.firstSurvivor? cutoff = (T.retained cutoff).head? := by
  rw [retained, List.head?_filter]
  rfl

/-- The purged range a marker records is a run of integers that ends at the last
purged row. -/
theorem purgedRange?_context {b : PurgeBoundary} (hcount : 0 < b.purgedCount)
    (hret : 0 ≤ b.retentionMonths) (hlast : b.lastRetainedSeq = b.purgedToSeq)
    (hrun : b.purgedCount = b.purgedToSeq - b.purgedFromSeq + 1) :
    purgedRange? b.context = some b.purgedToSeq := by
  have hle : b.purgedFromSeq ≤ b.purgedToSeq := by omega
  exact if_pos ⟨hcount, hret, hle, hrun, hlast⟩

/-- A purge row without a purged range matches no gap. -/
theorem markerMatchesGap_eq_false {m : AuditLogEntry} (h : purgedRange? m.context = none)
    (e : AuditLogEntry) : markerMatchesGap env e m = false := by
  rw [markerMatchesGap, h, Option.any_none, Bool.and_false]

/-- A marker that names a survivor matches the gap before it. -/
theorem markerMatchesGap_of_context {e m : AuditLogEntry} {b : PurgeBoundary}
    (hpurge : m.actionType = AuditActionType.auditPurge.value) (hout : m.outcome = "success")
    (hhash : m.hashValid env = true) (hctx : m.context = b.context)
    (hrange : purgedRange? b.context = some b.purgedToSeq)
    (hlt : e.sequenceNumber < m.sequenceNumber)
    (hto : b.purgedToSeq = e.sequenceNumber - 1) (hlast : b.lastRetainedHash = e.prevHash)
    (hfirst : b.firstSurviving = some (e.sequenceNumber, e.prevHash)) :
    markerMatchesGap env e m = true := by
  have hget : b.context.get "first_surviving_seq" = .int e.sequenceNumber := by
    show (b.firstSurviving.map (fun s => Json.int s.1)).getD .null = _
    rw [hfirst]; rfl
  have hgetHash : b.context.get "first_surviving_prev_hash" = .str e.prevHash := by
    show (b.firstSurviving.map (fun s => Json.str s.2)).getD .null = _
    rw [hfirst]; rfl
  have hgetLast : b.context.get "last_retained_hash" = .str b.lastRetainedHash := rfl
  have hdict : b.context.isDict = true := rfl
  simp [markerMatchesGap, AuditLogEntry.isPurge, hpurge, hout, hhash, hctx, hdict, hrange, hlt, hto,
    hget, hgetHash, hgetLast, hlast, Json.eqInt, Json.eqStr]

/-- A marker that names no survivor is the boundary of a purge of everything. -/
theorem allPurgedBoundary_of_context {m : AuditLogEntry} {b : PurgeBoundary}
    (hpurge : m.actionType = AuditActionType.auditPurge.value) (hout : m.outcome = "success")
    (hctx : m.context = b.context) (hrange : purgedRange? b.context = some b.purgedToSeq)
    (hto : m.sequenceNumber = b.purgedToSeq + 1) (hlast : b.lastRetainedHash = m.prevHash)
    (hfirst : b.firstSurviving = none) :
    purgeMarkerIsAllPurgedBoundary m genesis = true := by
  have hget : b.context.get "first_surviving_seq" = .null := by
    show (b.firstSurviving.map (fun s => Json.int s.1)).getD .null = _
    rw [hfirst]; rfl
  have hgetHash : b.context.get "first_surviving_prev_hash" = .null := by
    show (b.firstSurviving.map (fun s => Json.str s.2)).getD .null = _
    rw [hfirst]; rfl
  have hgetLast : b.context.get "last_retained_hash" = .str b.lastRetainedHash := rfl
  have hdict : b.context.isDict = true := rfl
  simp [purgeMarkerIsAllPurgedBoundary, AuditLogEntry.isPurge, hpurge, hout, hctx, hdict, hrange,
    hto, hget, hgetHash, hgetLast, hlast, Json.isSome, Json.eqStr]

theorem firstSurvivingSeq_context {m : AuditLogEntry} {b : PurgeBoundary}
    (hctx : m.context = b.context)
    (hnamed : ∀ s ∈ b.firstSurviving, Json.inIntegerRange s.1 = true) :
    m.firstSurvivingSeq = some (b.firstSurviving.map (·.1)) := by
  rw [AuditLogEntry.firstSurvivingSeq, hctx]
  show ((b.firstSurviving.map (fun s => Json.int s.1)).getD .null).asInteger = _
  cases hb : b.firstSurviving with
  | none => rfl
  | some s => exact if_pos (hnamed s hb)

/-- What `purge_expired_entries` computes from the rows it read. -/
theorem purgeBoundary?_spec {expired : List AuditLogEntry} {survivor : Option AuditLogEntry}
    {r : Int} {b : PurgeBoundary} (h : purgeBoundary? expired survivor r = some b) :
    ∃ first last, expired.head? = some first ∧ expired.getLast? = some last ∧
      b = ⟨first.sequenceNumber, last.sequenceNumber, expired.length, r, last.rowHash,
        last.sequenceNumber, survivor.map (fun s => (s.sequenceNumber, s.prevHash))⟩ := by
  unfold purgeBoundary? at h
  split at h
  · rename_i first last hf hl
    exact ⟨first, last, hf, hl, (Option.some.inj h).symm⟩
  · cases h

/-- The boundary read from a table whose expired rows are an unbroken run that the
first retained row continues, by number and by hash, fits it. -/
theorem fits_of_boundary {T : AuditTable} {cutoff : DateTime} {r : Int} {b : PurgeBoundary}
    (hb : purgeBoundary? (T.expired cutoff) (T.firstSurvivor? cutoff) r = some b) (hr : 0 ≤ r)
    (hsplit : T.rows = T.expired cutoff ++ T.retained cutoff)
    (hrun : ∀ first last, (T.expired cutoff).head? = some first →
      (T.expired cutoff).getLast? = some last →
      last.sequenceNumber = first.sequenceNumber + (T.expired cutoff).length - 1)
    (hlinked : ∀ last s, (T.expired cutoff).getLast? = some last →
      (T.retained cutoff).head? = some s →
      s.sequenceNumber = last.sequenceNumber + 1 ∧ s.prevHash = last.rowHash)
    (hcast : ∀ r ∈ T.retained cutoff, r.isPurge = true → r.firstSurvivingSeq ≠ none)
    (hnamed : ∀ s ∈ T.retained cutoff, Json.inIntegerRange s.sequenceNumber = true) :
    T.Fits cutoff b := by
  obtain ⟨first, last, hf, hl, rfl⟩ := purgeBoundary?_spec hb
  have hlen : 0 < (T.expired cutoff).length := by
    rw [List.length_pos_iff]
    rintro hnil
    rw [hnil] at hf
    cases hf
  have hnum := hrun first last hf hl
  refine ⟨hsplit, purgedRange?_context ?_ hr rfl ?_, ?_, hcast, fun s hs => ?_⟩
  · show (0 : Int) < ((T.expired cutoff).length : Int)
    omega
  · show ((T.expired cutoff).length : Int) = last.sequenceNumber - first.sequenceNumber + 1
    omega
  · cases hret : T.retained cutoff with
    | nil =>
      refine .everything last hret ?_ ?_ rfl rfl
      · rw [hsplit, hret, List.append_nil, hl]
      · show (T.firstSurvivor? cutoff).map _ = none
        rw [firstSurvivor?_eq, hret]
        rfl
    | cons s rest =>
      obtain ⟨hseq, hlink⟩ := hlinked last s hl (by rw [hret]; rfl)
      refine .survivor s rest hret ?_ ?_ hlink.symm
      · show (T.firstSurvivor? cutoff).map _ = _
        rw [firstSurvivor?_eq, hret]
        rfl
      · show last.sequenceNumber = _
        omega
  · obtain ⟨e, he, rfl⟩ := Option.map_eq_some_iff.mp (Option.mem_def.mp hs)
    rw [firstSurvivor?_eq] at he
    exact hnamed e (List.mem_of_mem_head? he)

section Hashes
variable {env} {A : AuditTable} {xs S : List AuditLogEntry} {e : AuditLogEntry}

/-- The rows above a row of an accepted table are accepted in the states they had. -/
theorem Accepts.threaded_tail (hacc : A.Accepts env) (hA : A.rows = xs ++ e :: S)
    (hpos : 0 < e.sequenceNumber) :
    A.verifyEntry env A.upper (stateAfter (·.rowHash) genesis (positive xs)) e = .ok true ∧
      Threaded (fun prev r => A.verifyEntry env A.upper prev r = .ok true) (·.rowHash)
        e.rowHash (positive S) := by
  rw [accepts_iff, visited, hA, positive_append, threaded_append, positive_cons_of_pos hpos] at hacc
  exact hacc.2

theorem Accepts.hashValid (hacc : A.Accepts env) (he : e ∈ A.rows) (hpos : 0 < e.sequenceNumber) :
    e.rowHash = env.computeRowHash e.toPayload e.prevHash := by
  obtain ⟨xs, S, hA⟩ := List.append_of_mem he
  have hok := ((verifyEntry_iff ..).mp (hacc.threaded_tail hA hpos).1).1
  simpa [AuditLogEntry.hashValid] using hok

/-- The first row links to `GENESIS`, or a purge accounts for what was before it. -/
theorem Accepts.first (hacc : A.Accepts env) (hA : A.rows = e :: S) (hpos : 0 < e.sequenceNumber) :
    e.prevHash = genesis ∨ A.Covers env e ∨ purgeMarkerIsAllPurgedBoundary e genesis = true := by
  have hsplit : A.rows = [] ++ e :: S := hA
  have hok : A.verifyEntry env A.upper genesis e = .ok true := (hacc.threaded_tail hsplit hpos).1
  obtain ⟨-, hlink | hcovers | ⟨-, hall⟩⟩ := (verifyEntry_iff ..).mp hok
  · exact .inl hlink
  · exact .inr (.inl hcovers)
  · exact .inr (.inr hall)

end Hashes

/-- `T'` is what a purge of `T` leaves, its marker being `m`. -/
structure IsPurgeOf (T : AuditTable) (cutoff now : DateTime) (b : PurgeBoundary)
    (m : AuditLogEntry) (T' : AuditTable) : Prop where
  fits : T.Fits cutoff b
  kept : env.KeepsMarker b
  marker : IsNextEntry env T now b.request m
  rows : T'.rows = T.retained cutoff ++ [m]

namespace IsPurgeOf
variable {env} {T T' : AuditTable} {cutoff now : DateTime} {b : PurgeBoundary}
  {m s last : AuditLogEntry} {rest : List AuditLogEntry}

theorem context_eq (h : IsPurgeOf env T cutoff now b m T') : m.context = b.context :=
  h.marker.context.trans h.kept

theorem hashValid (h : IsPurgeOf env T cutoff now b m T') : m.hashValid env = true :=
  hashValid_of_eq env h.marker.rowHash

theorem firstSurvivingSeq (h : IsPurgeOf env T cutoff now b m T') :
    m.firstSurvivingSeq = some (b.firstSurviving.map (·.1)) :=
  firstSurvivingSeq_context h.context_eq h.fits.named

/-- The rows of the purged table never make the marker query raise. -/
theorem markersCast (h : IsPurgeOf env T cutoff now b m T') : T'.MarkersCast := by
  intro n hn hp
  rw [h.rows] at hn
  rcases List.mem_append.mp hn with hn | hn
  · exact h.fits.cast n hn hp
  · rw [List.mem_singleton.mp hn, h.firstSurvivingSeq]
    simp

/-- The purge of everything leaves its marker alone. -/
theorem accepts_of_everything (h : IsPurgeOf env T cutoff now b m T')
    (hnil : T.retained cutoff = []) (hlast : T.rows.getLast? = some last)
    (hfirst : b.firstSurviving = none) (hto : b.purgedToSeq = last.sequenceNumber)
    (hhash : b.lastRetainedHash = last.rowHash) : T'.Accepts env := by
  have hrows : T'.rows = [m] := by rw [h.rows, hnil]; rfl
  obtain ⟨xs, hT⟩ := List.getLast?_eq_some_iff.mp hlast
  rw [accepts_iff, visited, hrows]
  by_cases hpos : 0 < m.sequenceNumber
  · rw [positive_cons_of_pos hpos]
    refine ⟨(verifyEntry_iff ..).mpr ⟨h.hashValid, ?_⟩, trivial⟩
    by_cases h1 : T.nextSequence = 1
    · exact Or.inl (h.marker.first h1)
    · have hname : naming m.sequenceNumber T'.rows = [] := by
        refine List.filter_eq_nil_iff.mpr fun n hn => ?_
        rw [hrows] at hn
        rw [List.mem_singleton.mp hn, h.firstSurvivingSeq, hfirst]
        simp
      refine Or.inr (Or.inr ⟨?_, allPurgedBoundary_of_context h.marker.actionType h.marker.outcome
        h.context_eq h.fits.range ?_ ?_ hfirst⟩)
      · rw [purgeMarkerCoversGap_of_cast env h.markersCast, hname]
        rfl
      · rw [h.marker.sequenceNumber, nextSequence_concat hT, hto]
      · rw [hhash, h.marker.linked xs last hT h1]
  · rw [positive_cons_of_neg hpos]
    trivial

/-- A purge that deletes nothing only logs its marker. -/
theorem accepts_of_nothing (h : IsPurgeOf env T cutoff now b m T') (hacc : T.Accepts env)
    (hnil : T.expired cutoff = [])
    (hname : ∀ r ∈ T.rows, b.firstSurviving.map (·.1) ≠ some r.sequenceNumber) :
    T'.Accepts env := by
  have hrows : T'.rows = T.rows ++ [m] := by
    rw [h.rows, h.fits.split, hnil, List.nil_append]
  refine accepts_log env hacc h.marker hrows fun _ => ⟨?_, fun r hr => ?_⟩
  · rw [h.firstSurvivingSeq]
    simp
  · rw [h.firstSurvivingSeq]
    exact fun heq => hname r hr (Option.some.inj heq)

section Survivors
variable (h : IsPurgeOf env T cutoff now b m T') (hret : T.retained cutoff = s :: rest)
include h hret

theorem split_cons : T.rows = T.expired cutoff ++ (s :: rest) := hret ▸ h.fits.split

theorem rows_cons : T'.rows = (s :: rest) ++ [m] := hret ▸ h.rows

theorem survivor_lt {e : AuditLogEntry} (he : e ∈ rest) : s.sequenceNumber < e.sequenceNumber := by
  have hasc := T.ascending
  rw [h.split_cons hret] at hasc
  exact (List.pairwise_cons.mp (List.pairwise_append.mp hasc).2.1).1 e he

/-- The last row of the table survives the purge. -/
theorem exists_last : ∃ zs z, s :: rest = zs ++ [z] ∧ T.rows = (T.expired cutoff ++ zs) ++ [z] ∧
    s.sequenceNumber ≤ z.sequenceNumber := by
  rcases List.eq_nil_or_concat (s :: rest) with hnil | ⟨zs, z, hz⟩
  · cases hnil
  · rw [List.concat_eq_append] at hz
    refine ⟨zs, z, hz, by rw [h.split_cons hret, hz, List.append_assoc], ?_⟩
    have hmem : z ∈ s :: rest := by rw [hz]; simp
    rcases List.mem_cons.mp hmem with rfl | hmem
    · exact Int.le_refl _
    · exact Int.le_of_lt (h.survivor_lt hret hmem)

/-- The marker links to the last surviving row. -/
theorem prevHash_eq (hpos : 0 < m.sequenceNumber) :
    m.prevHash = stateAfter (·.rowHash) genesis (positive (s :: rest)) := by
  obtain ⟨zs, z, hz, hT, -⟩ := h.exists_last hret
  have hnext := nextSequence_concat hT
  rw [h.marker.prevHash_eq env hpos, visited, hT, hz, positive_append, positive_append zs]
  by_cases hzpos : 0 < z.sequenceNumber
  · rw [positive_cons_of_pos hzpos]
    exact (stateAfter_concat ..).trans (stateAfter_concat ..).symm
  · -- nothing is numbered above zero, so nothing is visited on either side
    have hnone : ∀ e ∈ T.rows, ¬ 0 < e.sequenceNumber := fun e he => by
      have := T.lt_nextSequence he
      omega
    have hall : positive (T.expired cutoff ++ zs) = [] :=
      positive_eq_nil fun e he => hnone e (by rw [hT]; exact List.mem_append_left _ he)
    have hzs : positive zs = [] := positive_eq_nil fun e he => hnone e (by rw [hT]; simp [he])
    rw [hall, hzs]

/-- Every surviving row but the first keeps its acceptance when the marker names
none of them. -/
theorem verifyEntry_survivor {prev : String} {e : AuditLogEntry} (he : e ∈ s :: rest)
    (hne : b.firstSurviving.map (·.1) ≠ some e.sequenceNumber)
    (hok : T.verifyEntry env T.upper prev e = .ok true) :
    T'.verifyEntry env T'.upper prev e = .ok true := by
  have hT' : T'.rows = [] ++ s :: rest ++ [m] := by simpa using h.rows_cons hret
  refine verifyEntry_transfer env (h.split_cons hret) hT' he (by simp) ?_ hok
  intro n hn _
  rw [List.mem_singleton.mp hn, h.firstSurvivingSeq]
  simpa using hne

variable (hfirst : b.firstSurviving = some (s.sequenceNumber, s.prevHash))
  (hto : b.purgedToSeq = s.sequenceNumber - 1) (hhash : b.lastRetainedHash = s.prevHash)
include hfirst hto hhash

/-- The marker covers the first surviving row. -/
theorem covers_survivor (hpos : 0 < s.sequenceNumber) : T'.Covers env s := by
  obtain ⟨zs, z, hz, hT, hle⟩ := h.exists_last hret
  have hnext := nextSequence_concat hT
  have hseq := h.marker.sequenceNumber
  refine (covers_iff env T' s).mpr ⟨h.markersCast, m, ?_, ?_, ?_⟩
  · have hname : naming s.sequenceNumber [m] = [m] := by
      rw [naming, List.filter_cons_of_pos, List.filter_nil]
      simp [AuditLogEntry.isPurge, h.marker.actionType, PurgeBoundary.request,
        h.firstSurvivingSeq, hfirst]
    rw [h.rows_cons hret, naming_append, hname, List.getLast?_concat]
  · exact markerMatchesGap_of_context env h.marker.actionType h.marker.outcome h.hashValid
      h.context_eq h.fits.range (by omega) hto hhash hfirst
  · -- the marker's predecessor is the last surviving row
    have hrow : T'.rowAt? (m.sequenceNumber - 1) = some z := by
      refine (T'.rowAt?_eq_some_iff).mpr ⟨?_, by omega⟩
      rw [h.rows_cons hret, hz]
      simp
    rw [markerPredecessorLinkIsValid, hrow, h.marker.linked _ z hT (by omega)]
    simp

theorem threaded_survivors (hacc : T.Accepts env) :
    Threaded (fun prev e => T'.verifyEntry env T'.upper prev e = .ok true) (·.rowHash)
      genesis (positive (s :: rest)) := by
  have hnamed : ∀ e : AuditLogEntry, e.sequenceNumber ≠ s.sequenceNumber →
      b.firstSurviving.map (·.1) ≠ some e.sequenceNumber := fun e hne => by
    rw [hfirst]
    simpa using fun heq => hne heq.symm
  rw [accepts_iff, visited, h.split_cons hret, positive_append, threaded_append] at hacc
  by_cases hpos : 0 < s.sequenceNumber
  · rw [positive_cons_of_pos hpos] at hacc ⊢
    obtain ⟨hsok, hrest⟩ := hacc.2
    refine ⟨(verifyEntry_iff ..).mpr ⟨((verifyEntry_iff ..).mp hsok).1,
      Or.inr (Or.inl (h.covers_survivor hret hfirst hto hhash hpos))⟩,
      hrest.imp fun prev e he hok => ?_⟩
    have hmem := (mem_positive.mp he).1
    have hlt := h.survivor_lt hret hmem
    exact h.verifyEntry_survivor hret (List.mem_cons_of_mem _ hmem) (hnamed e (by omega)) hok
  · -- the first survivor is not visited, and nothing before it was
    have hnone : positive (T.expired cutoff) = [] := positive_eq_nil fun e he => by
      have := lt_of_mem_append (h.split_cons hret) he (y := s) (by simp)
      omega
    rw [hnone] at hacc
    refine hacc.2.imp fun prev e he hok => ?_
    obtain ⟨hmem, hepos⟩ := mem_positive.mp he
    exact h.verifyEntry_survivor hret hmem (hnamed e (by omega)) hok

/-- The purge of a proper prefix: the marker covers the first retained row, every
other retained row keeps the predecessor it had, and the marker links to the last
of them. -/
theorem accepts_of_survivor (hacc : T.Accepts env) : T'.Accepts env := by
  rw [accepts_iff, visited, h.rows_cons hret, positive_append, threaded_append]
  refine ⟨h.threaded_survivors hret hfirst hto hhash hacc, ?_⟩
  by_cases hpos : 0 < m.sequenceNumber
  · rw [positive_cons_of_pos hpos]
    exact ⟨(verifyEntry_iff ..).mpr ⟨h.hashValid, Or.inl (h.prevHash_eq hret hpos)⟩, trivial⟩
  · rw [positive_cons_of_neg hpos]
    trivial

end Survivors

/-- **A purge whose boundary fits the table keeps it accepted.** -/
theorem accepts (h : IsPurgeOf env T cutoff now b m T') (hacc : T.Accepts env) :
    T'.Accepts env := by
  cases h.fits.describes with
  | survivor s rest hret hnamed hto hhash =>
    exact h.accepts_of_survivor hret hnamed hto hhash hacc
  | everything last hret hlast hnamed hto hhash =>
    exact h.accepts_of_everything hret hlast hnamed hto hhash
  | nothing hnil hnamed => exact h.accepts_of_nothing hacc hnil hnamed

end IsPurgeOf
end AuditTable
end QueryCraft
