import QueryCraft.AuditRetention
import QueryCraft.RowHash

/-! # What verification detects

If the row hash is injective, a row commits to its payload and to the hash of the
row before it, so two accepted tables that end in the same row ought to be the
same table up to the loss of a prefix.  `verify_chain` achieves this only for
tables without a purge boundary inside them: a row that a marker covers is
accepted after any row whatsoever, not only as the first retained one, and rows
numbered zero or below are never read.  Anybody can therefore put rows of their
own choosing in front of a genuine boundary.

`tamperEvident_iff` says exactly which accepted tables are protected: those in
which every row but the greatest is numbered above zero, and no row after the
first would pass as a purge boundary of the rows from it on.
-/
namespace QueryCraft
namespace AuditTable

variable (env : AuditEnv)

/-- The rows numbered `n` and above, as a table. -/
def from_ (T : AuditTable) (n : Int) : AuditTable := T.delete (·.sequenceNumber < n)

/-- `verify_chain` would accept the row as the first one it walks although it does
not link to `GENESIS`. -/
def IsPurgeBoundary (T : AuditTable) (e : AuditLogEntry) : Prop :=
  T.purgeMarkerCoversGap env e T.upper = .ok true ∨
    (T.purgeMarkerCoversGap env e T.upper = .ok false ∧
      purgeMarkerIsAllPurgedBoundary e genesis = true)

/-- The two tables hold the same row wherever both hold one, and one of them is
what is left of the other when a prefix is lost. -/
def Agree (A B : AuditTable) : Prop :=
  (∀ a ∈ A.rows, ∀ b ∈ B.rows, a.sequenceNumber = b.sequenceNumber → a = b) ∧
    (A.rows <:+ B.rows ∨ B.rows <:+ A.rows)

/-- The contexts are as a `JSONB` column holds them. -/
def StoredContexts (T : AuditTable) : Prop := ∀ e ∈ T.rows, e.context.Stored

/-- No accepted table that ends in the same row differs from this one, up to the
loss of a prefix. -/
def TamperEvident (A : AuditTable) : Prop :=
  ∀ B : AuditTable, B.StoredContexts → B.Accepts env → A.rows.getLast? = B.rows.getLast? →
    Agree A B

/-- The row hash is injective on payloads whose contexts a `JSONB` column holds. -/
def InjectiveRowHash : Prop :=
  ∀ p h p' h', p.context.Stored → p'.context.Stored →
    env.computeRowHash p h = env.computeRowHash p' h' → p = p' ∧ h = h'

/-! ## Tables with a common end -/

section Common
variable {env} {A B : AuditTable} {xs ys S : List AuditLogEntry} {p q e : AuditLogEntry}

theorem from_rows (hA : A.rows = xs ++ e :: S) : (A.from_ e.sequenceNumber).rows = e :: S := by
  have hasc := A.ascending
  rw [hA] at hasc
  obtain ⟨-, hS, hxs⟩ := List.pairwise_append.mp hasc
  have h1 : xs.filter (fun r => !decide (r.sequenceNumber < e.sequenceNumber)) = [] :=
    List.filter_eq_nil_iff.mpr fun r hr => by simpa using hxs r hr e (by simp)
  have h2 : (e :: S).filter (fun r => !decide (r.sequenceNumber < e.sequenceNumber)) = e :: S := by
    refine List.filter_eq_self.mpr fun r hr => ?_
    rcases List.mem_cons.mp hr with rfl | hr
    · simp
    · have := (List.pairwise_cons.mp hS).1 r hr
      simp only [Bool.not_eq_true', decide_eq_false_iff_not]
      omega
  rw [from_, delete_rows, hA, List.filter_append, h1, h2, List.nil_append]

/-- A suffix of an ascending table agrees with it. -/
theorem Agree.of_suffix (h : A.rows <:+ B.rows) : Agree A B :=
  ⟨fun _ ha _ hb hseq => B.eq_of_sequenceNumber_eq (h.subset ha) hb hseq, Or.inl h⟩

theorem Agree.symm (h : Agree A B) : Agree B A :=
  ⟨fun b hb a ha hseq => (h.1 a ha b hb hseq.symm).symm, h.2.symm⟩

/-- A covered row stays one when the rows below it are dropped. -/
theorem isPurgeBoundary_from (hA : A.rows = xs ++ e :: S)
    (h : IsPurgeBoundary env A e) : IsPurgeBoundary env (A.from_ e.sequenceNumber) e := by
  have hrows : (A.from_ e.sequenceNumber).rows = [] ++ (e :: S) ++ [] := by
    rw [from_rows hA]; simp
  rcases h with h | ⟨h, hall⟩
  · exact Or.inl (covers_transfer env hA hrows (by simp) (by simp) (by simp) h)
  · have hcast := markersCast_transfer hA hrows (by simp) (by simp)
      (markersCast_of_coversGap env h)
    unfold IsPurgeBoundary
    rw [purgeMarkerCoversGap_of_cast env hcast]
    cases (naming e.sequenceNumber (A.from_ e.sequenceNumber).rows).getLast?.any _ with
    | true => exact Or.inl rfl
    | false => exact Or.inr ⟨rfl, hall⟩

/-- Two tables with the same rows from `e` on have the same purge boundaries
there. -/
theorem from_congr (hA : A.rows = xs ++ e :: S) (hB : B.rows = ys ++ e :: S) :
    A.from_ e.sequenceNumber = B.from_ e.sequenceNumber := by
  apply AuditTable.ext
  rw [from_rows hA, from_rows hB]

end Common

/-! ## Protected tables are tamper evident -/

/-- Nothing inside the table passes for a purge boundary, and only its greatest row
may be numbered zero or below. -/
def Protected (A : AuditTable) : Prop :=
  ∀ xs p e ys, A.rows = xs ++ p :: e :: ys →
    0 < p.sequenceNumber ∧ ¬ IsPurgeBoundary env (A.from_ e.sequenceNumber) e

section Protected
variable {env} {A B : AuditTable}
  (hinj : InjectiveRowHash env) (hgen : ∀ p h, env.computeRowHash p h ≠ genesis)
include hgen

/-- In a protected table every row links to the row before it. -/
theorem Protected.link (hA : A.Protected env) (hacc : A.Accepts env)
    {xs ys : List AuditLogEntry} {p e : AuditLogEntry} (hrows : A.rows = xs ++ p :: e :: ys) :
    e.prevHash = p.rowHash := by
  obtain ⟨hp, hnb⟩ := hA xs p e ys hrows
  have hsplit : A.rows = (xs ++ [p]) ++ e :: ys := by rw [hrows]; simp
  have hlt : p.sequenceNumber < e.sequenceNumber :=
    lt_of_mem_append hsplit (by simp) (by simp)
  have hok := (hacc.threaded_tail hsplit (by omega)).1
  rw [positive_append, positive_cons_of_pos hp] at hok
  rw [show positive [] = [] from rfl, stateAfter_concat] at hok
  have hpmem : p ∈ A.rows := by rw [hrows]; simp
  obtain ⟨-, hlink | hcov | ⟨hcov, hall⟩⟩ := (verifyEntry_iff ..).mp hok
  · exact hlink
  · exact absurd (isPurgeBoundary_from hsplit (Or.inl hcov)) hnb
  · -- the all-purged branch needs the row before it to hash to `GENESIS`
    have hhash : p.rowHash = genesis := by
      simp only [purgeMarkerIsAllPurgedBoundary, Bool.and_eq_true, beq_iff_eq] at hall
      exact hall.1.1.1.1.1.1
    rw [hacc.hashValid hpmem hp] at hhash
    exact absurd hhash (hgen _ _)

include hinj

/-- The rows before a common tail of a protected table and an accepted one are
the same row. -/
theorem Protected.predecessor_eq (hA : A.Protected env) (hAstored : A.StoredContexts)
    (hAacc : A.Accepts env) (hBstored : B.StoredContexts) (hBacc : B.Accepts env)
    {xs ys S : List AuditLogEntry} {p q e : AuditLogEntry}
    (hArows : A.rows = xs ++ p :: e :: S) (hBrows : B.rows = ys ++ q :: e :: S) : p = q := by
  obtain ⟨hp, hnb⟩ := hA xs p e S hArows
  have hAsplit : A.rows = (xs ++ [p]) ++ e :: S := by rw [hArows]; simp
  have hBsplit : B.rows = (ys ++ [q]) ++ e :: S := by rw [hBrows]; simp
  have hlt : p.sequenceNumber < e.sequenceNumber := lt_of_mem_append hAsplit (by simp) (by simp)
  have hlink := hA.link hgen hAacc hArows
  have hphash := hAacc.hashValid (by rw [hArows]; simp) hp
  have hne : e.prevHash ≠ genesis := by rw [hlink, hphash]; exact hgen _ _
  -- a boundary at `e` in `B` would be one in `A`
  have hnbB : ¬ IsPurgeBoundary env B e := fun hb =>
    hnb (from_congr hAsplit hBsplit ▸ isPurgeBoundary_from hBsplit hb)
  have hok := (hBacc.threaded_tail hBsplit (by omega)).1
  rw [positive_append] at hok
  by_cases hq : 0 < q.sequenceNumber
  · rw [positive_cons_of_pos hq, show positive [] = [] from rfl, stateAfter_concat] at hok
    have hqhash := hBacc.hashValid (by rw [hBrows]; simp) hq
    obtain ⟨-, hlinkB | hcov | ⟨hcov, hall⟩⟩ := (verifyEntry_iff ..).mp hok
    · have heq : p.rowHash = q.rowHash := hlink.symm.trans hlinkB
      rw [hphash, hqhash] at heq
      obtain ⟨hpay, hprev⟩ := hinj _ _ _ _ (hAstored p (by rw [hArows]; simp))
        (hBstored q (by rw [hBrows]; simp)) heq
      exact AuditLogEntry.ext_payload hpay hprev (hlink.symm.trans hlinkB)
    · exact absurd (Or.inl hcov) hnbB
    · have hhash : q.rowHash = genesis := by
        simp only [purgeMarkerIsAllPurgedBoundary, Bool.and_eq_true, beq_iff_eq] at hall
        exact hall.1.1.1.1.1.1
      rw [hqhash] at hhash
      exact absurd hhash (hgen _ _)
  · -- nothing before `e` is visited in `B`
    have hnone : positive (ys ++ [q]) = [] := positive_eq_nil fun r hr => by
      rcases List.mem_append.mp hr with hr | hr
      · have := lt_of_mem_append hBrows hr (y := q) (by simp)
        omega
      · rw [List.mem_singleton.mp hr]; exact hq
    rw [← positive_append, hnone] at hok
    obtain ⟨-, hlinkB | hcov | ⟨hcov, hall⟩⟩ := (verifyEntry_iff ..).mp hok
    · exact absurd hlinkB hne
    · exact absurd (Or.inl hcov) hnbB
    · exact absurd (Or.inr ⟨hcov, hall⟩) hnbB

/-- The common tail grows until one of the tables is used up. -/
theorem Protected.suffix_or_suffix (hA : A.Protected env) (hAstored : A.StoredContexts)
    (hAacc : A.Accepts env) (hBstored : B.StoredContexts) (hBacc : B.Accepts env) :
    ∀ (xs ys : List AuditLogEntry) (e : AuditLogEntry)
    (S : List AuditLogEntry), A.rows = xs ++ e :: S → B.rows = ys ++ e :: S →
    A.rows <:+ B.rows ∨ B.rows <:+ A.rows := by
  intro xs
  induction xs using List.reverseRecOn with
  | nil =>
    intro ys e S hArows hBrows
    exact Or.inl ⟨ys, by rw [hArows, hBrows]; rfl⟩
  | append_singleton xs p ih =>
    intro ys e S hArows hBrows
    rcases List.eq_nil_or_concat ys with rfl | ⟨ys', q, rfl⟩
    · exact Or.inr ⟨xs ++ [p], by rw [hArows, hBrows]; rfl⟩
    · have hArows' : A.rows = xs ++ p :: e :: S := by rw [hArows]; simp
      have hBrows' : B.rows = ys' ++ q :: e :: S := by rw [hBrows]; simp
      obtain rfl := hA.predecessor_eq hinj hgen hAstored hAacc hBstored hBacc hArows' hBrows'
      exact ih ys' p (e :: S) hArows' hBrows'

/-- **Protected tables are tamper evident.** -/
theorem Protected.tamperEvident (hA : A.Protected env) (hAstored : A.StoredContexts)
    (hAacc : A.Accepts env) : A.TamperEvident env := by
  intro B hBstored hBacc hlast
  have hsuf : A.rows <:+ B.rows ∨ B.rows <:+ A.rows := by
    cases hl : A.rows.getLast? with
    | none => exact Or.inl (by rw [List.getLast?_eq_none_iff.mp hl]; exact List.nil_suffix)
    | some e =>
      obtain ⟨xs, hxs⟩ := List.getLast?_eq_some_iff.mp hl
      obtain ⟨ys, hys⟩ := List.getLast?_eq_some_iff.mp (hlast ▸ hl)
      exact hA.suffix_or_suffix hinj hgen hAstored hAacc hBstored hBacc xs ys e [] hxs hys
  rcases hsuf with h | h
  · exact Agree.of_suffix h
  · exact (Agree.of_suffix h).symm

end Protected

/-! ## Unprotected tables are not -/

/-- A row of one's own choosing: any number, linked to `GENESIS` and hashed
correctly, which takes no secret. -/
def forgedRow (n : Int) (outcome : String) (like : AuditLogEntry) : AuditLogEntry :=
  let payload : Payload :=
    { like.toPayload with
      sequenceNumber := n, outcome := outcome, actionType := AuditActionType.querySubmit.value }
  { payload with prevHash := genesis, rowHash := env.computeRowHash payload genesis }

theorem forgedRow_not_purge (n : Int) (outcome : String) (like : AuditLogEntry) :
    (forgedRow env n outcome like).isPurge = false := by
  show (AuditActionType.querySubmit.value == AuditActionType.auditPurge.value) = false
  decide

theorem forgedRow_cast (n : Int) (outcome : String) (like : AuditLogEntry) :
    ∀ r ∈ [forgedRow env n outcome like], r.isPurge = true → r.firstSurvivingSeq ≠ none := by
  intro r hr hpurge
  rw [List.mem_singleton.mp hr, forgedRow_not_purge] at hpurge
  cases hpurge

theorem append_ne_self {s : String} : s ≠ s ++ "x" := by
  intro h
  have hlen := congrArg String.length h
  rw [String.length_append, show "x".length = 1 from rfl] at hlen
  omega

section Graft
variable {env} {A B : AuditTable} {xs S : List AuditLogEntry} {p q e : AuditLogEntry}

/-- One row in front of the rows from `e` on. -/
def graft (hA : A.rows = xs ++ e :: S) (hq : q.sequenceNumber < e.sequenceNumber) : AuditTable where
  rows := q :: e :: S
  ascending := by
    have hasc := A.ascending
    rw [hA] at hasc
    have hS := (List.pairwise_append.mp hasc).2.1
    refine List.pairwise_cons.mpr ⟨fun r hr => ?_, hS⟩
    rcases List.mem_cons.mp hr with rfl | hr
    · exact hq
    · have := (List.pairwise_cons.mp hS).1 r hr
      omega

theorem graft_rows (hA : A.rows = xs ++ e :: S) (hq : q.sequenceNumber < e.sequenceNumber) :
    (graft hA hq).rows = [q] ++ e :: S ++ [] := by
  simp [graft]

/-- The contexts of a graft are those of the table and that of the row. -/
theorem storedContexts_graft (hstored : A.StoredContexts) (hA : A.rows = xs ++ e :: S)
    (hq : q.sequenceNumber < e.sequenceNumber) (hcontext : q.context.Stored) :
    (graft hA hq).StoredContexts := by
  intro r hr
  rcases List.mem_cons.mp hr with rfl | hr
  · exact hcontext
  · exact hstored r (by rw [hA]; exact List.mem_append_right _ hr)

/-- A grafted table is accepted if the row it was grafted on is. -/
theorem accepts_graft (hacc : A.Accepts env) (hA : A.rows = xs ++ e :: S)
    (hq : q.sequenceNumber < e.sequenceNumber) (hnp : q.isPurge = false)
    (hqok : 0 < q.sequenceNumber → q.prevHash = genesis ∧ q.hashValid env = true)
    (hentry : 0 < e.sequenceNumber → (graft hA hq).verifyEntry env (graft hA hq).upper
      (stateAfter (·.rowHash) genesis (positive [q])) e = .ok true) :
    (graft hA hq).Accepts env := by
  have hrows := graft_rows hA hq
  have hqcast : ∀ r ∈ [q], r.isPurge = true → r.firstSurvivingSeq ≠ none := by
    intro r hr hp
    rw [List.mem_singleton.mp hr, hnp] at hp
    cases hp
  rw [accepts_iff, visited, show (graft hA hq).rows = [q] ++ e :: S from rfl, positive_append,
    threaded_append]
  refine ⟨?_, ?_⟩
  · by_cases hpos : 0 < q.sequenceNumber
    · rw [positive_cons_of_pos hpos]
      exact ⟨(verifyEntry_iff ..).mpr ⟨(hqok hpos).2, Or.inl (hqok hpos).1⟩, trivial⟩
    · rw [positive_cons_of_neg hpos]
      trivial
  · by_cases hpos : 0 < e.sequenceNumber
    · rw [positive_cons_of_pos hpos]
      refine ⟨hentry hpos, (hacc.threaded_tail hA hpos).2.imp fun prev r hr hok => ?_⟩
      exact verifyEntry_transfer env hA hrows
        (List.mem_cons_of_mem _ (mem_positive.mp hr).1) hqcast (by simp) hok
    · -- neither the grafted row nor anything up to `e` is visited
      rw [positive_cons_of_neg hpos, positive_cons_of_neg (by omega)]
      rw [accepts_iff, visited, hA, positive_append, positive_cons_of_neg hpos,
        positive_eq_nil fun r hr => by
          have := lt_of_mem_append hA hr (y := e) (by simp)
          omega] at hacc
      exact hacc.imp fun prev r hr hok => verifyEntry_transfer env hA hrows
        (List.mem_cons_of_mem _ (mem_positive.mp hr).1) hqcast (by simp) hok

/-- A graft ends in the last row of the table. -/
theorem getLast?_graft (hA : A.rows = xs ++ p :: e :: S) (hA' : A.rows = (xs ++ [p]) ++ e :: S)
    (hq : q.sequenceNumber < e.sequenceNumber) :
    A.rows.getLast? = (graft hA' hq).rows.getLast? := by
  rw [hA, List.getLast?_append_of_ne_nil _ (by simp)]
  rw [List.getLast?_cons_cons, show (graft hA' hq).rows = q :: e :: S from rfl,
    List.getLast?_cons_cons]

/-- A tamper-evident table admits no accepted graft that repeats the number of the
row it replaces with another row. -/
theorem TamperEvident.eq_of_graft (hte : A.TamperEvident env) (hA : A.rows = xs ++ p :: e :: S)
    {hA' : A.rows = (xs ++ [p]) ++ e :: S} {hq : q.sequenceNumber < e.sequenceNumber}
    (hstored : (graft hA' hq).StoredContexts) (hacc : (graft hA' hq).Accepts env)
    (hseq : p.sequenceNumber = q.sequenceNumber) : p = q :=
  (hte _ hstored hacc (getLast?_graft hA hA' hq)).1 p (by rw [hA]; simp) q (by simp [graft]) hseq

/-- Rows that have a successor are numbered above zero: a row numbered below is
never read, so it can be replaced. -/
theorem TamperEvident.positive_of_split (hte : A.TamperEvident env) (hstored : A.StoredContexts)
    (hacc : A.Accepts env) (hA : A.rows = xs ++ p :: e :: S) : 0 < p.sequenceNumber := by
  by_contra hp
  have hA' : A.rows = (xs ++ [p]) ++ e :: S := by rw [hA]; simp
  have hlt : p.sequenceNumber < e.sequenceNumber := lt_of_mem_append hA' (by simp) (by simp)
  have hq : (forgedRow env p.sequenceNumber (p.outcome ++ "x") p).sequenceNumber
      < e.sequenceNumber := hlt
  have hgraft : (graft hA' hq).Accepts env := by
    refine accepts_graft hacc hA' hq (forgedRow_not_purge ..) (fun h => absurd h hp) fun hpos => ?_
    have hnone : positive (xs ++ [p]) = [] := positive_eq_nil fun r hr => by
      rcases List.mem_append.mp hr with hr | hr
      · have := lt_of_mem_append hA hr (y := p) (by simp)
        omega
      · rw [List.mem_singleton.mp hr]; exact hp
    have hok := (hacc.threaded_tail hA' hpos).1
    rw [hnone] at hok
    rw [positive_cons_of_neg (e := forgedRow env p.sequenceNumber (p.outcome ++ "x") p) hp]
    exact verifyEntry_transfer env hA' (graft_rows hA' _) (by simp) (forgedRow_cast env _ _ p)
      (by simp) hok
  exact append_ne_self (congrArg (·.outcome) (hte.eq_of_graft hA
    (storedContexts_graft hstored hA' hq (hstored p (by rw [hA]; simp))) hgraft rfl))

/-- In front of a row that is covered by a marker any row is accepted. -/
theorem TamperEvident.not_covers (hte : A.TamperEvident env) (hstored : A.StoredContexts)
    (hacc : A.Accepts env) (hA : A.rows = xs ++ p :: e :: S)
    (hehash : e.hashValid env = true) : ¬ (A.from_ e.sequenceNumber).Covers env e := by
  intro hcov
  have hA' : A.rows = (xs ++ [p]) ++ e :: S := by rw [hA]; simp
  have hfrom : (A.from_ e.sequenceNumber).rows = [] ++ e :: S := from_rows hA'
  have hpstored : p.context.Stored := hstored p (by rw [hA]; simp)
  have hq : (forgedRow env p.sequenceNumber (p.outcome ++ "x") p).sequenceNumber
      < e.sequenceNumber := lt_of_mem_append hA' (x := p) (by simp) (by simp)
  have hgraft : (graft hA' hq).Accepts env := by
    refine accepts_graft hacc hA' hq (forgedRow_not_purge ..)
      (fun _ => ⟨rfl, hashValid_of_eq env rfl⟩) fun _ => ?_
    refine (verifyEntry_iff ..).mpr ⟨hehash, Or.inr (Or.inl ?_)⟩
    exact covers_transfer env hfrom (graft_rows hA' hq) (by simp)
      (forgedRow_cast env _ _ p) (by simp) hcov
  exact append_ne_self (congrArg (·.outcome) (hte.eq_of_graft hA
    (storedContexts_graft hstored hA' hq hpstored) hgraft rfl))

/-- A table with a row numbered zero has no other row below one that has a successor. -/
theorem TamperEvident.not_suffix (hte : A.TamperEvident env) (hstored : A.StoredContexts)
    (hacc : A.Accepts env) (hp : p ∈ A.rows) (hpos : 0 < p.sequenceNumber)
    (hq : q.sequenceNumber = 0) {B : List AuditLogEntry} (hqB : q ∈ B) : ¬ B <:+ A.rows := by
  intro hsuf
  obtain ⟨as, bs, hsplit⟩ := List.append_of_mem (hsuf.subset hqB)
  cases bs with
  | nil =>
    -- a row without a successor is the last one, and `p` is below it
    rw [hsplit] at hp
    rcases List.mem_append.mp hp with hp | hp
    · have := lt_of_mem_append hsplit hp (y := q) (by simp)
      omega
    · rw [List.mem_singleton.mp hp] at hpos
      omega
  | cons b bs =>
    have := hte.positive_of_split hstored hacc hsplit
    omega

/-- In front of the marker of a purge of everything a row that is never read can stand. -/
theorem TamperEvident.not_allPurged (hte : A.TamperEvident env) (hstored : A.StoredContexts)
    (hacc : A.Accepts env) (hA : A.rows = xs ++ p :: e :: S)
    (hentry : (A.from_ e.sequenceNumber).verifyEntry env (A.from_ e.sequenceNumber).upper genesis e
      = .ok true) : False := by
  have hp := hte.positive_of_split hstored hacc hA
  have hA' : A.rows = (xs ++ [p]) ++ e :: S := by rw [hA]; simp
  have hlt : p.sequenceNumber < e.sequenceNumber := lt_of_mem_append hA' (by simp) (by simp)
  have hfrom : (A.from_ e.sequenceNumber).rows = [] ++ e :: S := from_rows hA'
  have hq : (forgedRow env 0 p.outcome p).sequenceNumber < e.sequenceNumber := by
    show 0 < e.sequenceNumber
    omega
  have hgraft : (graft hA' hq).Accepts env := by
    refine accepts_graft hacc hA' hq (forgedRow_not_purge ..)
      (fun h => absurd h (Int.lt_irrefl 0)) fun _ => ?_
    rw [positive_cons_of_neg (Int.lt_irrefl 0)]
    exact verifyEntry_transfer env hfrom (graft_rows hA' hq) (by simp)
      (forgedRow_cast env _ _ p) (by simp) hentry
  have hmem : p ∈ A.rows := by rw [hA]; simp
  rcases (hte _ (storedContexts_graft hstored hA' hq (hstored p hmem)) hgraft
    (getLast?_graft hA hA' hq)).2 with hsuf | hsuf
  · -- the row before `e` is not in the graft
    rcases List.mem_cons.mp (hsuf.subset hmem) with h | h
    · have : p.sequenceNumber = 0 := congrArg (·.sequenceNumber) h
      omega
    · have := lt_of_mem_append hA' (x := p) (by simp) h
      omega
  · exact hte.not_suffix hstored hacc hmem hp rfl List.mem_cons_self hsuf

/-- No row after the first passes for a purge boundary. -/
theorem TamperEvident.not_boundary (hte : A.TamperEvident env) (hstored : A.StoredContexts)
    (hacc : A.Accepts env) (hA : A.rows = xs ++ p :: e :: S) :
    ¬ IsPurgeBoundary env (A.from_ e.sequenceNumber) e := by
  have hp := hte.positive_of_split hstored hacc hA
  have hA' : A.rows = (xs ++ [p]) ++ e :: S := by rw [hA]; simp
  have hlt : p.sequenceNumber < e.sequenceNumber := lt_of_mem_append hA' (by simp) (by simp)
  have hehash : e.hashValid env = true :=
    ((verifyEntry_iff ..).mp (hacc.threaded_tail hA' (by omega)).1).1
  rintro (hcov | ⟨hcov, hall⟩)
  · exact hte.not_covers hstored hacc hA hehash hcov
  · exact hte.not_allPurged hstored hacc hA
      ((verifyEntry_iff ..).mpr ⟨hehash, Or.inr (Or.inr ⟨hcov, hall⟩)⟩)

end Graft

/-- The boundary of a purge of row 1, whose hash was `"ab"`. -/
def forgedBoundary : PurgeBoundary := ⟨1, 1, 1, 0, "ab", 1, some (2, "ab")⟩

/-- Row 1 is made up, with the given outcome; rows 2 and 3 are what a purge of the
genuine row 1 left. -/
def forgedTable (outcome : String) : AuditTable where
  rows :=
    let noon := januaryNoon 1
    let survivor := hashedRow env noon 2 .queryExecute "success" (.obj []) "ab"
    [hashedRow env noon 1 .querySubmit outcome (.obj []) genesis, survivor,
      hashedRow env noon 3 .auditPurge "success" forgedBoundary.context survivor.rowHash]
  ascending := by simp [hashedRow]

/-- The made-up row is accepted whatever its outcome. -/
theorem forgedTable_accepts (outcome : String) : (forgedTable env outcome).Accepts env := by
  rw [accepts_iff]
  refine ⟨?_, ?_, ?_, trivial⟩
  · exact (verifyEntry_iff ..).mpr ⟨hashedRow_valid .., Or.inl rfl⟩
  · refine (verifyEntry_iff ..).mpr ⟨hashedRow_valid .., Or.inr (Or.inl ?_)⟩
    refine (covers_iff env (forgedTable env outcome) _).mpr ⟨?_, _, rfl, ?_, ?_⟩
    · simp [MarkersCast, forgedTable, hashedRow, AuditLogEntry.isPurge, AuditActionType.value,
        AuditLogEntry.firstSurvivingSeq, forgedBoundary, PurgeBoundary.context, Json.get,
        Json.asInteger, Json.inIntegerRange, Json.integerMax, List.lookup_cons]
    · exact markerMatchesGap_of_context env rfl rfl (hashedRow_valid ..) rfl rfl
        (show (2 : Int) < 3 by decide) rfl rfl rfl
    · simp [markerPredecessorLinkIsValid, rowAt?, forgedTable, hashedRow]
  · exact (verifyEntry_iff ..).mpr ⟨hashedRow_valid .., Or.inl rfl⟩

theorem forgedTable_storedContexts (outcome : String) :
    (forgedTable env outcome).StoredContexts := by
  have hempty : (Json.obj []).Stored := rfl
  exact List.forall_mem_cons.mpr ⟨hempty, List.forall_mem_cons.mpr ⟨hempty,
    List.forall_mem_singleton.mpr forgedBoundary.stored_context⟩⟩

theorem sha256_spelledHash_injective : Function.Injective spelledHash.sha256 := by
  intro s t h
  exact List.tail_eq_of_cons_eq (String.ofList_injective h)

theorem spelledHash_inj : InjectiveRowHash spelledHash := by
  intro p h p' h' hp hp' heq
  exact computeRowHash_inj sha256_spelledHash_injective hp hp' heq

end AuditTable
end QueryCraft
