import Mathlib.Data.List.Chain
import QueryCraft.AuditBoundary

/-! # Runs of logging and purging

A run is a sequence of `log` and `purge_expired_entries` calls executed one at a
time against the empty table, with a clock that never goes back.  Every run of no
more calls than there are positive 32-bit integers leaves a table that
`verify_chain` accepts and whose rows are numbered without gaps; the marker query
reads no greater number.

Beside acceptance, the invariant (`Chained`) is that the rows are consecutive and
linked, in order of time.  Time order makes the expired rows a prefix, so the
boundary a purge reads from such a table fits it (`Chained.fits`).

`log` itself does not reserve the action `audit.purge` for the purge.  A direct
call with that action whose context names the first retained row hides the
genuine marker from `verify_chain`, so runs are restricted to direct calls that
name no survivor (`Call.NamesNoSurvivor`); no caller in the repository logs
`audit.purge` other than the purge itself.
-/
namespace QueryCraft
namespace AuditTable

/-- One call, with the clock readings it makes. -/
inductive Call where
  | log (now : DateTime) (req : LogRequest)
  | purge (now nowMarker : DateTime) (retentionMonths : Int)

namespace Call

/-- The clock readings of a call, in order. -/
def readings : Call → List DateTime
  | log now _ => [now]
  | purge now nowMarker _ => [now, nowMarker]

/-- Retention is not negative and the cutoff date exists. -/
def CutoffExists : Call → Prop
  | log _ _ => True
  | purge now _ r => (computeRetentionCutoff r now).isSome = true

instance (c : Call) : Decidable c.CutoffExists :=
  match c with
  | log _ _ => isTrue trivial
  | purge now _ r => inferInstanceAs (Decidable ((computeRetentionCutoff r now).isSome = true))

/-- A direct `log` call does not name the survivor of a purge. -/
def NamesNoSurvivor (env : AuditEnv) : Call → Prop
  | log _ req => req.NamesNoSurvivor env
  | purge _ _ _ => True

/-- The call, on a table. -/
def run (env : AuditEnv) (T : AuditTable) : Call → Option AuditTable
  | log now req => T.log env now req
  | purge now nowMarker r => T.purgeExpiredEntries env now nowMarker r

end Call

/-- A sequence of calls; `none` once one of them raises. -/
def runCalls (env : AuditEnv) : AuditTable → List Call → Option AuditTable
  | T, [] => some T
  | T, c :: cs => (c.run env T).bind fun T' => runCalls env T' cs

variable {env : AuditEnv}

/-! ## The invariant -/

/-- The rows form one unbroken chain in order of time, `future` being the clock
readings still to come. -/
structure Chained (T : AuditTable) (future : List DateTime) : Prop where
  numbered : ∀ e ∈ T.rows, 0 < e.sequenceNumber
  consecutive : T.rows.IsChain (fun a b => b.sequenceNumber = a.sequenceNumber + 1)
  linked : T.rows.IsChain (fun a b => b.prevHash = a.rowHash)
  ordered : T.rows.Pairwise (fun a b => a.timestamp ≤ b.timestamp)
  past : ∀ e ∈ T.rows, ∀ t ∈ future, e.timestamp ≤ t
  cast : T.MarkersCast

theorem accepts_empty (env : AuditEnv) : AuditTable.empty.Accepts env := by
  rw [accepts_iff]
  trivial

theorem Chained.empty (future : List DateTime) : Chained AuditTable.empty future :=
  ⟨by simp, by simp, by simp, by simp, by simp, by simp [MarkersCast]⟩

/-- A list on which a predicate, once false, stays false splits into the part
where it holds and the part where it does not. -/
theorem filter_append_filter_not {α : Type} {p : α → Bool} {l : List α}
    (h : l.Pairwise (fun a b => p b = true → p a = true)) :
    l.filter p ++ l.filter (fun a => !p a) = l := by
  induction l with
  | nil => rfl
  | cons a l ih =>
    obtain ⟨ha, hl⟩ := List.pairwise_cons.mp h
    cases hp : p a with
    | true =>
      rw [List.filter_cons_of_pos hp, List.filter_cons_of_neg (by simp [hp]), List.cons_append,
        ih hl]
    | false =>
      have hnone : l.filter p = [] := List.filter_eq_nil_iff.mpr fun b hb hpb => by
        rw [ha b hb hpb] at hp
        cases hp
      have hrest := ih hl
      rw [hnone, List.nil_append] at hrest
      rw [List.filter_cons_of_neg (by simp [hp]), List.filter_cons_of_pos (by simp [hp]), hnone,
        List.nil_append, hrest]

theorem not_expired_iff (cutoff : DateTime) (e : AuditLogEntry) :
    (!decide (e.timestamp < cutoff)) = decide (cutoff ≤ e.timestamp) := by
  rw [Bool.eq_iff_iff]
  simp [DateTime.not_lt]

/-- Rows numbered consecutively: the last number is the first plus the length. -/
theorem last_eq_of_consecutive {rows : List AuditLogEntry} {first last : AuditLogEntry}
    (h : rows.IsChain (fun a b => b.sequenceNumber = a.sequenceNumber + 1))
    (hf : rows.head? = some first) (hl : rows.getLast? = some last) :
    last.sequenceNumber = first.sequenceNumber + rows.length - 1 := by
  induction rows generalizing first with
  | nil => cases hf
  | cons a rows ih =>
    obtain rfl := Option.some.inj hf
    cases rows with
    | nil =>
      obtain rfl := Option.some.inj hl
      simp
    | cons b rows =>
      rw [List.getLast?_cons_cons] at hl
      obtain ⟨hab, htail⟩ := List.isChain_cons_cons.mp h
      have hlast := ih htail rfl hl
      simp only [List.length_cons, Nat.cast_add, Nat.cast_one] at hlast ⊢
      omega

/-- In a chained table the expired rows come before every other row. -/
theorem Chained.split {T : AuditTable} {future : List DateTime} (h : Chained T future)
    (cutoff : DateTime) : T.rows = T.expired cutoff ++ T.retained cutoff := by
  have hmono : T.rows.Pairwise
      (fun a b => decide (b.timestamp < cutoff) = true → decide (a.timestamp < cutoff) = true) :=
    h.ordered.imp fun hab hb => by
      simp only [decide_eq_true_eq] at hb ⊢
      exact DateTime.lt_of_le_of_lt hab hb
  have := filter_append_filter_not hmono
  simp only [not_expired_iff] at this
  exact this.symm

/-- **The boundary read from a chained table fits it.** -/
theorem Chained.fits {T : AuditTable} {future : List DateTime} {cutoff : DateTime} {r : Int}
    {b : PurgeBoundary} (h : Chained T future) (hroom : T.nextSequence ≤ Json.integerMax + 1)
    (hr : 0 ≤ r) (hb : purgeBoundary? (T.expired cutoff) (T.firstSurvivor? cutoff) r = some b) :
    T.Fits cutoff b := by
  have hsplit := h.split cutoff
  have hcons := h.consecutive
  have hlink := h.linked
  rw [hsplit, List.isChain_append] at hcons hlink
  refine fits_of_boundary hb hr hsplit
    (fun first last hf hl => last_eq_of_consecutive hcons.1 hf hl)
    (fun last s hl hs => ⟨hcons.2.2 last hl s hs, hlink.2.2 last hl s hs⟩) (fun r hr hp => ?_)
    fun s hs => ?_
  · exact h.cast r (List.mem_filter.mp hr).1 hp
  · have hrow := (List.mem_filter.mp hs).1
    have hpos := h.numbered s hrow
    have hlt := T.lt_nextSequence hrow
    refine Json.inIntegerRange_iff.mpr ⟨?_, by omega⟩
    rw [Json.integerMax]
    omega

/-! ## Preservation -/

/-- The next row continues the chain. -/
theorem Chained.append {T T' : AuditTable} {now : DateTime} {future : List DateTime}
    {req : LogRequest} {e : AuditLogEntry} (h : Chained T (now :: future))
    (hfuture : ∀ t ∈ future, now ≤ t) (he : IsNextEntry env T now req e)
    (hrows : T'.rows = T.rows ++ [e])
    (hcast : e.isPurge = true → e.firstSurvivingSeq ≠ none) : Chained T' future := by
  have hpos : 0 < e.sequenceNumber := by
    rw [he.sequenceNumber, nextSequence, lastSequence?]
    cases hl : T.rows.getLast? with
    | none => decide
    | some last =>
      have := h.numbered last (List.mem_of_getLast? hl)
      show 0 < last.sequenceNumber + 1
      omega
  -- the new row continues the last one
  have hnext : ∀ last, T.rows.getLast? = some last →
      e.sequenceNumber = last.sequenceNumber + 1 ∧ e.prevHash = last.rowHash := by
    intro last hl
    obtain ⟨xs, hxs⟩ := List.getLast?_eq_some_iff.mp hl
    have hseq := nextSequence_concat hxs
    have := h.numbered last (List.mem_of_getLast? hl)
    exact ⟨by rw [he.sequenceNumber, hseq], he.linked xs last hxs (by omega)⟩
  refine ⟨?_, ?_, ?_, ?_, ?_, ?_⟩
  · intro r hr
    rw [hrows] at hr
    rcases List.mem_append.mp hr with hr | hr
    · exact h.numbered r hr
    · rw [List.mem_singleton.mp hr]; exact hpos
  · rw [hrows]
    refine List.isChain_append.mpr ⟨h.consecutive, by simp, ?_⟩
    intro last hl y hy
    obtain rfl := Option.some.inj hy
    exact (hnext last hl).1
  · rw [hrows]
    refine List.isChain_append.mpr ⟨h.linked, by simp, ?_⟩
    intro last hl y hy
    obtain rfl := Option.some.inj hy
    exact (hnext last hl).2
  · rw [hrows]
    refine List.pairwise_append.mpr ⟨h.ordered, List.pairwise_singleton _ _, ?_⟩
    intro a ha b hb
    rw [List.mem_singleton.mp hb, he.timestamp]
    exact h.past a ha now (by simp)
  · intro r hr t ht
    rw [hrows] at hr
    rcases List.mem_append.mp hr with hr | hr
    · exact h.past r hr t (by simp [ht])
    · rw [List.mem_singleton.mp hr, he.timestamp]
      exact hfuture t ht
  · intro r hr hp
    rw [hrows] at hr
    rcases List.mem_append.mp hr with hr | hr
    · exact h.cast r hr hp
    · rw [List.mem_singleton.mp hr] at hp ⊢
      exact hcast hp

/-- What is left of a chain when rows are dropped from its front is a chain. -/
theorem Chained.of_suffix {T T' : AuditTable} {future : List DateTime} (h : Chained T future)
    (hsuf : T'.rows <:+ T.rows) : Chained T' future := by
  have hmem : ∀ {e}, e ∈ T'.rows → e ∈ T.rows := fun he => hsuf.subset he
  exact ⟨fun e he => h.numbered e (hmem he), h.consecutive.suffix hsuf, h.linked.suffix hsuf,
    h.ordered.sublist hsuf.sublist, fun e he => h.past e (hmem he), fun r hr => h.cast r (hmem hr)⟩

theorem Chained.weaken {T : AuditTable} {future future' : List DateTime}
    (h : Chained T future) (hsub : ∀ t ∈ future', t ∈ future) : Chained T future' :=
  ⟨h.numbered, h.consecutive, h.linked, h.ordered,
    fun e he t ht => h.past e he t (hsub t ht), h.cast⟩

/-- The rows a deletion by age leaves. -/
theorem delete_expired_rows (T : AuditTable) (cutoff : DateTime) :
    (T.delete (·.timestamp < cutoff)).rows = T.retained cutoff := by
  rw [delete_rows, retained]
  exact List.filter_congr fun e _ => not_expired_iff cutoff e

/-- A row that was appended has been numbered. -/
theorem IsNextEntry.nextSequence_eq {T T' : AuditTable} {now : DateTime} {req : LogRequest}
    {e : AuditLogEntry} {xs : List AuditLogEntry} (he : IsNextEntry env T now req e)
    (hrows : T'.rows = xs ++ [e]) : T'.nextSequence = T.nextSequence + 1 := by
  rw [nextSequence_concat hrows, he.sequenceNumber]

/-- `log` keeps the invariant. -/
theorem Chained.log {T : AuditTable} {now : DateTime} {future : List DateTime} {req : LogRequest}
    (hacc : T.Accepts env) (h : Chained T (now :: future)) (hfuture : ∀ t ∈ future, now ≤ t)
    (hname : (Call.log now req).NamesNoSurvivor env) :
    ∃ T', T.log env now req = some T' ∧ T'.Accepts env ∧ Chained T' future ∧
      T'.nextSequence ≤ T.nextSequence + 1 := by
  obtain ⟨T', e, hlog, he, hrows⟩ := log_spec env T now req
  refine ⟨T', hlog, accepts_logged env hacc he hrows hname, h.append hfuture he hrows fun hp => ?_,
    (he.nextSequence_eq hrows).le⟩
  rw [he.firstSurvivingSeq_eq env hname hp]
  simp

/-- The hashes that a boundary read from a chained table records are row hashes. -/
theorem Chained.isRowHash {T : AuditTable} {future : List DateTime} {cutoff : DateTime} {r : Int}
    {b : PurgeBoundary} (hacc : T.Accepts env) (h : Chained T future)
    (hb : purgeBoundary? (T.expired cutoff) (T.firstSurvivor? cutoff) r = some b) :
    ∀ hash ∈ b.hashes, env.IsRowHash hash := by
  obtain ⟨first, last, -, hl, rfl⟩ := purgeBoundary?_spec hb
  have hmem : last ∈ T.rows := (List.mem_filter.mp (List.mem_of_getLast? hl)).1
  have hlast : env.IsRowHash last.rowHash :=
    ⟨_, _, (hacc.hashValid hmem (h.numbered last hmem)).symm⟩
  have hlink := h.linked
  rw [h.split cutoff, List.isChain_append] at hlink
  intro hash hhash
  rcases List.mem_cons.mp hhash with rfl | hhash
  · exact hlast
  · -- the first survivor links to the last expired row
    simp only [Option.map_map, Option.mem_toList, Option.map_eq_some_iff,
      Function.comp_apply] at hhash
    obtain ⟨s, hs, rfl⟩ := hhash
    rw [firstSurvivor?_eq] at hs
    rw [hlink.2.2 last hl s hs]
    exact hlast

/-- `purge_expired_entries` keeps the invariant. -/
theorem Chained.purge {T : AuditTable} {now nowMarker : DateTime} {future : List DateTime} {r : Int}
    (hkeeps : env.KeepsMarkers) (hacc : T.Accepts env)
    (h : Chained T (now :: nowMarker :: future))
    (hroom : T.nextSequence ≤ Json.integerMax + 1) (hnow : now ≤ nowMarker)
    (hfuture : ∀ t ∈ future, nowMarker ≤ t)
    (hcut : (computeRetentionCutoff r now).isSome = true) :
    ∃ T', T.purgeExpiredEntries env now nowMarker r = some T' ∧ T'.Accepts env ∧
      Chained T' future ∧ T'.nextSequence ≤ T.nextSequence + 1 := by
  obtain ⟨cutoff, hcutoff⟩ := Option.isSome_iff_exists.mp hcut
  have hle : cutoff ≤ nowMarker := DateTime.le_trans (computeRetentionCutoff_le hcutoff) hnow
  rw [purgeExpiredEntries, hcutoff, Option.bind_some]
  cases hb : purgeBoundary? (T.expired cutoff) (T.firstSurvivor? cutoff) r with
  | none => exact ⟨T, rfl, hacc, h.weaken (by simp +contextual), by omega⟩
  | some b =>
    obtain ⟨T₁, m, hlog, hm, hrows⟩ := log_spec env T nowMarker b.request
    have hkeep : (T₁.delete (·.timestamp < cutoff)).rows = T.retained cutoff ++ [m] := by
      rw [delete_expired_rows, retained, hrows, List.filter_append,
        List.filter_cons_of_pos (by rw [hm.timestamp]; simpa using hle), List.filter_nil]
      rfl
    have hpurge : IsPurgeOf env T cutoff nowMarker b m (T₁.delete (·.timestamp < cutoff)) :=
      ⟨h.fits hroom (computeRetentionCutoff_spec hcutoff).1 hb, hkeeps b (h.isRowHash hacc hb), hm,
        hkeep⟩
    have hmark : Chained T₁ future := (h.weaken (by simp +contextual)).append hfuture hm hrows
      fun _ => by rw [hpurge.firstSurvivingSeq]; simp
    refine ⟨T₁.delete (·.timestamp < cutoff), by dsimp only; rw [hlog]; rfl, hpurge.accepts hacc,
      hmark.of_suffix ⟨T.expired cutoff, ?_⟩, (hm.nextSequence_eq hkeep).le⟩
    rw [hkeep, hrows, ← List.append_assoc, ← h.split cutoff]

/-! ## Runs -/

/-- What every run keeps: the table is accepted and chained. -/
theorem runCalls_chained (hkeeps : env.KeepsMarkers) {T : AuditTable} {cs : List Call}
    (hacc : T.Accepts env)
    (h : Chained T (cs.flatMap Call.readings))
    (hroom : T.nextSequence + cs.length ≤ Json.integerMax + 1)
    (hclock : (cs.flatMap Call.readings).Pairwise (· ≤ ·))
    (hcut : ∀ c ∈ cs, c.CutoffExists) (hname : ∀ c ∈ cs, c.NamesNoSurvivor env) :
    ∃ T', runCalls env T cs = some T' ∧ T'.Accepts env ∧ Chained T' [] := by
  induction cs generalizing T with
  | nil => exact ⟨T, rfl, hacc, h⟩
  | cons c cs ih =>
    rw [List.flatMap_cons] at h hclock
    rw [List.length_cons] at hroom
    obtain ⟨-, hrest, hle⟩ := List.pairwise_append.mp hclock
    have hstep : ∃ T', c.run env T = some T' ∧ T'.Accepts env ∧
        Chained T' (cs.flatMap Call.readings) ∧ T'.nextSequence ≤ T.nextSequence + 1 := by
      cases c with
      | log now req =>
        exact Chained.log hacc h (fun t ht => hle now (by simp [Call.readings]) t ht)
          (hname _ (by simp))
      | purge now nowMarker r =>
        refine Chained.purge hkeeps hacc h (by omega) ?_
          (fun t ht => hle nowMarker (by simp [Call.readings]) t ht)
          (hcut (.purge now nowMarker r) (by simp))
        exact (List.pairwise_cons.mp hclock).1 nowMarker (by simp)
    obtain ⟨T', hrun, hacc', h', hnext⟩ := hstep
    obtain ⟨T'', hrun', hfinal⟩ := ih hacc' h' (by omega) hrest (fun c hc => hcut c (by simp [hc]))
      (fun c hc => hname c (by simp [hc]))
    exact ⟨T'', by rw [runCalls, hrun]; exact hrun', hfinal⟩

/-- No redaction. -/
def keepAuditValue (value : Json) : Json := value

/-- A hash that spells out what it hashes, and no redaction. -/
def spelledHash : AuditEnv where
  sha256 text := String.ofList ('h' :: text)
  redactAuditValue := keepAuditValue

theorem spelledHash_keepsMarkers : spelledHash.KeepsMarkers := fun _ _ => rfl

theorem spelledHash_ne_genesis (p : Payload) (h : String) :
    spelledHash.computeRowHash p h ≠ genesis := by
  intro heq
  have hlist := congrArg String.toList heq
  rw [AuditEnv.computeRowHash, spelledHash, String.toList_ofList] at hlist
  exact absurd (List.head_eq_of_cons_eq hlist) (by decide)

theorem january_day (day : Nat) : 1 ≤ day % 31 + 1 ∧ day % 31 + 1 ≤ monthLength 2026 1 :=
  ⟨Nat.le_add_left .., Nat.mod_lt _ (by decide)⟩

/-- Noon of a day in January 2026; days are counted from zero. -/
def januaryNoon (day : Nat) : DateTime :=
  ⟨2026, 1, day % 31 + 1, 43200000000, by decide, by decide, january_day day, by decide⟩

/-- A row whose payload hashes correctly. -/
def hashedRow (env : AuditEnv) (now : DateTime) (n : Int) (action : AuditActionType)
    (outcome : String) (context : Json) (prevHash : String) : AuditLogEntry :=
  let payload : Payload := ⟨n, now, none, none, action.value, none, none, outcome, context⟩
  { payload with prevHash := prevHash, rowHash := env.computeRowHash payload prevHash }

theorem hashedRow_valid (now : DateTime) (n : Int) (action : AuditActionType) (outcome : String)
    (context : Json) (prevHash : String) :
    (hashedRow env now n action outcome context prevHash).hashValid env = true :=
  hashValid_of_eq env rfl

/-- Two entries, a purge of the first, and a direct log of `audit.purge` that names
the second as the first survivor. -/
def maskedMarkerRun : List Call :=
  [.log (januaryNoon 1) { action := .querySubmit },
   .log (januaryNoon 2) { action := .queryExecute },
   .purge (januaryNoon 2) (januaryNoon 2) 0,
   .log (januaryNoon 3)
     { action := .auditPurge, context := .obj [("first_surviving_seq", .int 2)] }]

/-- The rows that are left: the second entry, the marker of the purge and the row that was logged
directly. -/
theorem rows_maskedMarkerRun :
    let first := hashedRow spelledHash (januaryNoon 1) 1 .querySubmit "success" (.obj []) genesis
    let second := hashedRow spelledHash (januaryNoon 2) 2 .queryExecute "success" (.obj [])
      first.rowHash
    let boundary : PurgeBoundary := ⟨1, 1, 1, 0, first.rowHash, 1, some (2, first.rowHash)⟩
    let marker := hashedRow spelledHash (januaryNoon 2) 3 .auditPurge "success" boundary.context
      second.rowHash
    ∃ T, runCalls spelledHash AuditTable.empty maskedMarkerRun = some T ∧
      T.rows = [second, marker, hashedRow spelledHash (januaryNoon 3) 4 .auditPurge "success"
        (.obj [("first_surviving_seq", .int 2)]) marker.rowHash] :=
  ⟨_, rfl, rfl⟩

end AuditTable
end QueryCraft
