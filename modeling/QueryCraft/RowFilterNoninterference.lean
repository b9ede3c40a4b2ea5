import QueryCraft.RowFilters
import QueryCraft.SqlSemantics
import QueryCraft.SqlText

/-! # What filtered statements reveal

A row of a filtered table is *visible* if all filters for the table are true of it.
The filters are added to the `WHERE` of a `SELECT`, which is applied after its joins;
the hidden rows take part in the joins.

For two states that agree on the visible rows, the frames of a `FROM` clause whose
rows are all visible are the same (`From.withFilters_join`): a frame of an inner join
is made of visible rows alone, and an unmatched row of an outer join, although it may
owe its existence to hidden rows, stands next to nulls, which are dropped like a
hidden row unless the filters are true of them.  So a filtered statement yields the
same rows in both states (`run_withFilters_eq`), provided that no nulls are visible in
place of a filtered table (`From.NullSafe`).

The filter `owner IS NULL OR owner = ?` is true of nulls.  With it, a `LEFT JOIN` tells
whether a hidden row exists (`run_withFilters_leaks`).

A placeholder stands for its own value here, that is, the statement is run with every
value in its place.
-/
namespace QueryCraft

/-! ## Filters on rows -/

section Rows
variable {V D : Type} (lower : String → String) (I : Interpretation V D)

mutual

/-- The value of a filter condition on a row. -/
def Expr.evalRow (get : String → D) : Expr V → D
  | .column _ name => get (lower name)
  | .literal text => I.literal text
  | .placeholder v => I.param v
  | .func name args => I.scalar name (Expr.evalRowAll get args)
  | .aliased e _ => e.evalRow get
  | _ => I.null

def Expr.evalRowAll (get : String → D) : List (Expr V) → List D
  | [] => []
  | e :: es => e.evalRow get :: Expr.evalRowAll get es

end

mutual

theorem Expr.evalRow_qualify (q : String) (get : String → D) : ∀ e : Expr V,
    (e.qualify q).evalRow lower I get = e.evalRow lower I get
  | .column _ _ => rfl
  | .star _ => rfl
  | .literal _ => rfl
  | .placeholder _ => rfl
  | .func name args => by
    simp only [Expr.qualify, Expr.evalRow, Expr.evalRowAll_qualify q get args]
  | .aliased e _ => Expr.evalRow_qualify q get e
  | .subquery _ _ _ => rfl

theorem Expr.evalRowAll_qualify (q : String) (get : String → D) : ∀ es : List (Expr V),
    Expr.evalRowAll lower I get (Expr.qualifyAll q es) = Expr.evalRowAll lower I get es
  | [] => rfl
  | e :: es => by
    simp only [Expr.qualifyAll, Expr.evalRowAll, Expr.evalRow_qualify q get e,
      Expr.evalRowAll_qualify q get es]

end

variable (catalog : String × String → List String) [DecidableEq D]
  (state : String × String → Multiset (List D))
  {ctes : List (String × Table D)} {env : List (RowFrame D)} {group : Multiset (RowFrame D)}
  {row : RowFrame D} {b : Bound D}

variable {isFunc : String → Bool}

mutual

/-- A condition whose columns are found in one source has the value it has on that
source's row. -/
theorem Expr.eval_rowPredicate
    (hops : ∀ op, isFunc op = false ∨ op ∈ nonFunctionOps → I.aggregate op = none) :
    ∀ e : Expr V, e.isRowPredicate lower isFunc (lower b.name) b.columns = true →
    e.hasStar = false →
    (∀ c ∈ e.ownColumns, looksLikeSentinel c.2 = false ∧
      ((c.1 = "" ∨ lower c.1 = lower b.name) → lower c.2 ∈ b.columns →
        lookupColumn lower I (row :: env) c.1 c.2 = b.get I.null (lower c.2))) →
    e.eval lower I catalog state ctes env group row = [e.evalRow lower I (b.get I.null)]
  | .column table name, h, _, hc => by
    obtain ⟨hplain, hlookup⟩ := hc (table, name) (by simp [Expr.ownColumns])
    simp only [Expr.isRowPredicate, hplain, Bool.false_or, Bool.and_eq_true, Bool.or_eq_true,
      beq_iff_eq, List.contains_eq_mem, decide_eq_true_eq] at h
    rw [Expr.eval, hlookup h.1 h.2, Expr.evalRow]
  | .star _, _, hstar, _ => by cases hstar
  | .literal _, _, _, _ => by rw [Expr.eval, Expr.evalRow]
  | .placeholder _, _, _, _ => by rw [Expr.eval, Expr.evalRow]
  | .func name args, h, hstar, hc => by
    simp only [Expr.isRowPredicate, Bool.and_eq_true, Bool.or_eq_true, Bool.not_eq_true',
      List.contains_eq_mem, decide_eq_true_eq] at h
    rw [Expr.eval, hops name h.1]
    simp only
    rw [Expr.evalAll_rowPredicates hops args h.2 hstar hc, Expr.evalRow]
  | .aliased e _, h, hstar, hc => by
    rw [Expr.eval, Expr.evalRow]
    exact Expr.eval_rowPredicate hops e h hstar hc
  | .subquery _ _ _, h, _, _ => by cases h

theorem Expr.evalAll_rowPredicates
    (hops : ∀ op, isFunc op = false ∨ op ∈ nonFunctionOps → I.aggregate op = none) :
    ∀ es : List (Expr V),
    Expr.areRowPredicates lower isFunc (lower b.name) b.columns es = true →
    Expr.anyStar es = false →
    (∀ c ∈ Expr.ownColumnsAll es, looksLikeSentinel c.2 = false ∧
      ((c.1 = "" ∨ lower c.1 = lower b.name) → lower c.2 ∈ b.columns →
        lookupColumn lower I (row :: env) c.1 c.2 = b.get I.null (lower c.2))) →
    Expr.evalAll lower I catalog state ctes env group row es =
      Expr.evalRowAll lower I (b.get I.null) es
  | [], _, _, _ => by rw [Expr.evalAll, Expr.evalRowAll]
  | e :: es, h, hstar, hc => by
    simp only [Expr.areRowPredicates, Bool.and_eq_true] at h
    obtain ⟨hstar, hstars⟩ := Bool.or_eq_false_iff.mp hstar
    have hce := fun c hmem => hc c (List.mem_append_left _ hmem)
    have hces := fun c hmem => hc c (List.mem_append_right _ hmem)
    rw [Expr.evalAll, Expr.eval_rowPredicate hops e h.1 hstar hce,
      Expr.evalAll_rowPredicates hops es h.2 hstars hces, Expr.evalRowAll]
    rfl

end

/-! ## Columns of one source of a frame -/

theorem filter_eq_singleton {α β : Type} [DecidableEq β] {f : α → β} {xs : List α} {x : α}
    (hnodup : (xs.map f).Nodup) (hx : x ∈ xs) : xs.filter (f · == f x) = [x] := by
  induction xs with
  | nil => cases hx
  | cons y ys ih =>
    obtain ⟨hy, hys⟩ := List.nodup_cons.mp hnodup
    rcases List.mem_cons.mp hx with rfl | hx
    · have hnone : ys.filter (f · == f x) = [] := by
        refine List.filter_eq_nil_iff.mpr fun z hz heq => hy ?_
        rw [← beq_iff_eq.mp heq]
        exact List.mem_map_of_mem hz
      simp [hnone]
    · have hne : f y ≠ f x := fun heq => hy (heq ▸ List.mem_map_of_mem hx)
      rw [List.filter_cons_of_neg (by simpa using hne), ih hys hx]

omit [DecidableEq D] in
/-- A column is read from the source that its qualifier names, or that alone has it. -/
theorem lookupColumn_eq {table name : String}
    (hnames : ((RowFrame.header row).map (lower ·.1)).Nodup) (hb : b ∈ row)
    (htable : table = "" ∨ lower table = lower b.name) (hname : lower name ∈ b.columns)
    (hone : (RowFrame.header row).isUnambiguous lower (table, name) = true) :
    lookupColumn lower I (row :: env) table name = b.get I.null (lower name) := by
  unfold lookupColumn
  by_cases hempty : table = ""
  · have hlen : (row.filter (·.columns.contains (lower name))).length ≤ 1 := by
      simpa [Header.isUnambiguous, hempty, RowFrame.header, List.filter_map, Function.comp_def]
        using hone
    have hmem : b ∈ row.filter (·.columns.contains (lower name)) :=
      List.mem_filter.mpr ⟨hb, by simpa using hname⟩
    obtain ⟨x, hx⟩ := List.length_eq_one_iff.mp
      (Nat.le_antisymm hlen (List.length_pos_of_mem hmem))
    rw [hx, List.mem_singleton] at hmem
    rw [← hmem] at hx
    simp only [hempty, ne_eq, not_true_eq_false, if_false, innermost_of_filter_eq hx]
    rfl
  · have hqual : lower table = lower b.name := htable.resolve_left hempty
    have hnodup : (row.map fun x => lower x.name).Nodup := by
      simpa [RowFrame.header, Function.comp_def] using hnames
    have hx := filter_eq_singleton hnodup hb
    simp only [hempty, ne_eq, not_false_eq_true, if_true, hqual]
    rw [innermost_of_filter_eq hx]
    rfl

end Rows

/-! ## Visible rows -/

section Visible
variable {V D : Type} (lower : String → String) (I : Interpretation V D)
  (schema : List SchemaTable) (filters : List (PreparedRowFilter V))

/-- The filter is configured for the table. -/
def PreparedRowFilter.isFor (p : PreparedRowFilter V) (table : String × String) : Bool :=
  match findPolicyTable lower schema p.tableName with
  | some t => t.identity lower == table
  | none => false

/-- All filters for a table are true of a row. -/
def visibleRow (table : String × String) (get : String → D) : Bool :=
  filters.all fun p => !p.isFor lower schema table ||
    I.holds (p.expression.evalRow lower I get)

/-- A row of a reference is visible; only physical tables have hidden rows. -/
def TableRef.isVisible (ctes : List String) (ref : TableRef) (get : String → D) : Bool :=
  !ref.isPhysical ctes || visibleRow lower I schema filters (ref.identity lower) get

/-- The reference denotes a filtered table. -/
def TableRef.isFiltered (ctes : List String) (ref : TableRef) : Bool :=
  ref.isPhysical ctes && filters.any (·.isFor lower schema (ref.identity lower))

/-- All rows of a frame are visible. -/
def From.visible (ctes : List String) : From Empty → RowFrame D → Bool
  | .table left _ ref _, b :: row =>
    left.visible ctes row && ref.isVisible lower I schema filters ctes (b.get I.null)
  | .derived left _ _ _ _ _, _ :: row => left.visible ctes row
  | _, _ => true

/-- A row of nulls is visible for every reference of the clause. -/
def From.nullVisible (ctes : List String) (f : From Empty) : Bool :=
  f.tableRefs.all fun ref => ref.isVisible lower I schema filters ctes fun _ => I.null

/-- The clause refers to a filtered table. -/
def From.isFiltered (ctes : List String) (f : From Empty) : Bool :=
  f.tableRefs.any (·.isFiltered lower schema filters ctes)

/-- No row of nulls is visible in place of a filtered table: where a join may supply
nulls for a side that refers to filtered tables, not all filters for that side are true
of them. -/
def From.NullSafe (ctes : List String) : From Empty → Prop
  | .nothing => True
  | .table left kind ref _ => left.NullSafe ctes ∧
      (kind.keepsLeft = true → ref.isFiltered lower schema filters ctes = true →
        ref.isVisible lower I schema filters ctes (fun _ => I.null) = false) ∧
      (kind.keepsRight = true → left.isFiltered lower schema filters ctes = true →
        left.nullVisible lower I schema filters ctes = false)
  | .derived left kind _ _ _ _ => left.NullSafe ctes ∧
      (kind.keepsRight = true → left.isFiltered lower schema filters ctes = true →
        left.nullVisible lower I schema filters ctes = false)

variable {lower I schema filters} {ctes : List String}

theorem visibleRow_of_not_isFor {table : String × String}
    (h : filters.any (·.isFor lower schema table) = false) (get : String → D) :
    visibleRow lower I schema filters table get = true := by
  rw [visibleRow, List.all_eq_true]
  intro p hp
  simp [List.any_eq_false.mp h p hp]

theorem TableRef.isVisible_of_not_isFiltered {ref : TableRef}
    (h : ref.isFiltered lower schema filters ctes = false) (get : String → D) :
    ref.isVisible lower I schema filters ctes get = true := by
  unfold TableRef.isFiltered at h
  unfold TableRef.isVisible
  cases hp : ref.isPhysical ctes with
  | false => rfl
  | true =>
    rw [hp, Bool.true_and] at h
    simp [visibleRow_of_not_isFor h]

theorem From.visible_of_not_isFiltered : ∀ (f : From Empty) (row : RowFrame D),
    f.isFiltered lower schema filters ctes = false →
      f.visible lower I schema filters ctes row = true
  | .nothing, _, _ => rfl
  | .table left _ ref _, [], _ => rfl
  | .table left _ ref _, b :: row, h => by
    rw [From.isFiltered, From.tableRefs, List.any_append, Bool.or_eq_false_iff] at h
    rw [From.visible, From.visible_of_not_isFiltered left row h.1, Bool.true_and]
    exact TableRef.isVisible_of_not_isFiltered (by simpa using h.2) _
  | .derived left _ _ _ _ _, [], _ => rfl
  | .derived left _ _ _ _ _, _ :: row, h => From.visible_of_not_isFiltered left row h

variable {catalog : String × String → List String}

/-- A frame of nulls is visible exactly if nulls are for every reference. -/
theorem From.visible_nullBound (names : List String) (cols : List (String × List String)) :
    ∀ f : From Empty, f.visible lower I schema filters names
        (((f.withFilters lower filters names).header lower catalog cols).map nullBound) =
      f.nullVisible lower I schema filters names
  | .nothing => rfl
  | .table left _ ref _ => by
    simp only [From.withFilters, From.header, List.map_cons, From.visible, nullBound_get,
      From.visible_nullBound names cols left, From.nullVisible, From.tableRefs, List.all_append,
      List.all_cons, List.all_nil, Bool.and_true]
  | .derived left _ _ _ _ _ => From.visible_nullBound names cols left

end Visible

/-! ## Noninterference -/

section Noninterference
variable {V D : Type}

/-- What the filters, the schema and the operators are assumed to be: the schema
describes the tables of the database, and every filter passed `validate_row_filter` and
still fits the schema when it is added.  An aggregate is a subclass of `exp.Func`. -/
structure FiltersValid (lower : String → String) (isFunc : String → Bool)
    (I : Interpretation V D) (schema : List SchemaTable) (filters : List (PreparedRowFilter V))
    (catalog : String × String → List String) : Prop where
  operators : ∀ op, isFunc op = false ∨ op ∈ nonFunctionOps → I.aggregate op = none
  described : ∀ t ∈ schema, catalog (t.identity lower) = t.columns.map lower
  /-- Lower-casing a table's name does not move its dots. -/
  folded : ∀ t ∈ schema, lower ((dottedParts t.name).headD "") = (t.identity lower).2
  /-- No column is named like a sentinel. -/
  unlike : ∀ t ∈ schema, ∀ name, looksLikeSentinel name = true → lower name ∉ t.columns.map lower
  validated : ∀ p ∈ filters,
    validateRowFilter lower isFunc schema p.tableName p.expression = true
  undrifted : ∀ p ∈ filters, driftFree lower schema p = true

/-- Two states agree on the visible rows of every table. -/
def VisiblyEqual (lower : String → String) (I : Interpretation V D) (schema : List SchemaTable)
    (filters : List (PreparedRowFilter V)) (catalog : String × String → List String)
    (state state' : String × String → Multiset (List D)) : Prop :=
  ∀ table,
    (state table).filter (fun values => visibleRow lower I schema filters table
      (Bound.get I.null ⟨"", catalog table, values⟩)) =
    (state' table).filter (fun values => visibleRow lower I schema filters table
      (Bound.get I.null ⟨"", catalog table, values⟩))

/-- A `SELECT` is safe if its references to filtered tables are matched by their
filters, and no nulls are visible in their place. -/
structure SelectNode.Safe (lower : String → String) (I : Interpretation V D)
    (schema : List SchemaTable) (filters : List (PreparedRowFilter V)) (s : SelectNode Empty) :
    Prop where
  matched : ∀ r ∈ s.sources.physicalRefs s.ctes, ∀ p ∈ filters,
    p.isFor lower schema (r.identity lower) = true →
      tableMatchesPolicy lower r p.tableName = true
  nullSafe : s.sources.NullSafe lower I schema filters s.ctes

variable {lower : String → String} {isFunc : String → Bool} {I : Interpretation V D}
  {schema : List SchemaTable} {filters : List (PreparedRowFilter V)}
  {catalog : String × String → List String} {state state' : String × String → Multiset (List D)}
  {ctes : List (String × Table D)} {env : List (RowFrame D)}

@[simp] theorem cteColumns_names (ctes : List (String × Table D)) :
    (cteColumns ctes).map (·.1) = ctes.map (·.1) := by
  simp [cteColumns, Function.comp_def]

theorem TableRef.columns_of_isPhysical {ref : TableRef} {cols : List (String × List String)}
    (h : ref.isPhysical (cols.map (·.1)) = true) :
    ref.columns lower catalog cols = catalog (ref.identity lower) := by
  rw [TableRef.columns, if_pos h]

/-- A reference to an unfiltered table has the same rows in both states. -/
theorem TableRef.rows_eq (hvis : VisiblyEqual lower I schema filters catalog state state')
    {ref : TableRef} (h : ref.isFiltered lower schema filters (ctes.map (·.1)) = false) :
    ref.rows lower state ctes = ref.rows lower state' ctes := by
  unfold TableRef.rows
  by_cases hp : ref.isPhysical (ctes.map (·.1)) = true
  · rw [if_pos hp, if_pos hp]
    rw [TableRef.isFiltered, hp, Bool.true_and] at h
    have := hvis (ref.identity lower)
    simpa only [visibleRow_of_not_isFor h, Multiset.filter_true] using this
  · rw [if_neg hp, if_neg hp]

/-- Any reference has the same visible rows. -/
theorem TableRef.visible_rows_eq (hvis : VisiblyEqual lower I schema filters catalog state state')
    (ref : TableRef) :
    ((ref.rows lower state ctes).map fun values => (⟨ref.aliasOrName,
        ref.columns lower catalog (cteColumns ctes), values⟩ : Bound D)).filter
        (fun b => ref.isVisible lower I schema filters (ctes.map (·.1)) (b.get I.null)) =
      ((ref.rows lower state' ctes).map fun values => (⟨ref.aliasOrName,
        ref.columns lower catalog (cteColumns ctes), values⟩ : Bound D)).filter
        (fun b => ref.isVisible lower I schema filters (ctes.map (·.1)) (b.get I.null)) := by
  rw [Multiset.filter_map, Multiset.filter_map]
  refine congrArg _ ?_
  unfold TableRef.rows
  by_cases hp : ref.isPhysical (ctes.map (·.1)) = true
  · rw [if_pos hp, if_pos hp, TableRef.columns_of_isPhysical (by rwa [cteColumns_names])]
    simp only [TableRef.isVisible, hp, Bool.not_true, Bool.false_or]
    exact hvis (ref.identity lower)
  · rw [if_neg hp, if_neg hp]

/-- A frame is visible if the rows of its physical references are. -/
theorem From.visible_of_rows {names : List String} {cols : List (String × List String)}
    (hnames : cols.map (·.1) = names) : ∀ (f : From Empty) (row : RowFrame D),
    RowFrame.header row = (f.withFilters lower filters names).header lower catalog cols →
    (∀ r ∈ f.physicalRefs names, ∀ b ∈ row, b.name = r.aliasOrName →
      b.columns = catalog (r.identity lower) →
      visibleRow lower I schema filters (r.identity lower) (b.get I.null) = true) →
    f.visible lower I schema filters names row = true
  | .nothing, _, _, _ => rfl
  | .table left _ ref _, [], _, _ => rfl
  | .table left _ ref _, b :: row, hheader, h => by
    rw [From.withFilters, From.header] at hheader
    obtain ⟨hb, hrow⟩ := List.cons.inj hheader
    obtain ⟨hname, hcols⟩ := Prod.mk.inj hb
    rw [From.visible, Bool.and_eq_true]
    constructor
    · refine From.visible_of_rows hnames left row hrow fun r hr b' hb' => ?_
      refine h r ?_ b' (List.mem_cons_of_mem _ hb')
      rw [From.physicalRefs, From.tableRefs, List.filter_append]
      exact List.mem_append_left _ hr
    · rw [TableRef.isVisible]
      by_cases hphys : ref.isPhysical names = true
      · rw [hphys, Bool.not_true, Bool.false_or]
        refine h ref ?_ b (List.mem_cons_self ..) hname ?_
        · simp [From.physicalRefs, From.tableRefs, hphys]
        · rw [hcols, TableRef.columns_of_isPhysical (by rwa [hnames])]
      · simp [hphys]
  | .derived left _ _ _ _ _, [], _, _ => rfl
  | .derived left _ _ _ _ _, _ :: row, hheader, h => by
    rw [From.withFilters, From.header] at hheader
    obtain ⟨-, hrow⟩ := List.cons.inj hheader
    refine From.visible_of_rows hnames left row hrow fun r hr b' hb' => ?_
    exact h r hr b' (List.mem_cons_of_mem _ hb')

/-! ### Added conditions -/

theorem Expr.mem_ownColumnsAll {e : Expr V} {es : List (Expr V)} (he : e ∈ es)
    {c : String × String} (hc : c ∈ e.ownColumns) : c ∈ Expr.ownColumnsAll es := by
  induction es with
  | nil => cases he
  | cons x xs ih =>
    rw [Expr.ownColumnsAll]
    rcases List.mem_cons.mp he with rfl | he
    · exact List.mem_append_left _ hc
    · exact List.mem_append_right _ (ih he)

theorem Expr.ownColumnsAll_append (xs ys : List (Expr V)) :
    Expr.ownColumnsAll (xs ++ ys) = Expr.ownColumnsAll xs ++ Expr.ownColumnsAll ys := by
  induction xs with
  | nil => rfl
  | cons x xs ih => rw [List.cons_append, Expr.ownColumnsAll, Expr.ownColumnsAll, ih,
      List.append_assoc]

theorem Expr.anyStar_eq_false {es : List (Expr V)} (h : Expr.anyStar es = false) {e : Expr V}
    (he : e ∈ es) : e.hasStar = false := by
  induction es with
  | nil => cases he
  | cons x xs ih =>
    obtain ⟨hx, hxs⟩ := Bool.or_eq_false_iff.mp h
    rcases List.mem_cons.mp he with rfl | he
    · exact hx
    · exact ih hxs he

theorem Expr.anyStar_append (xs ys : List (Expr V)) :
    Expr.anyStar (xs ++ ys) = (Expr.anyStar xs || Expr.anyStar ys) := by
  induction xs with
  | nil => rfl
  | cons x xs ih => rw [List.cons_append, Expr.anyStar, Expr.anyStar, ih, Bool.or_assoc]

mutual

/-- The names of own columns are among those of all columns, qualified or not. -/
theorem Expr.ownColumns_qualify_mem (q : String) : ∀ (e : Expr V),
    ∀ c ∈ (e.qualify q).ownColumns, c.2 ∈ e.columnNames
  | .column _ _, c, h => by
    rw [List.mem_singleton.mp h]
    exact List.mem_singleton.mpr rfl
  | .star _, _, h => by cases h
  | .literal _, _, h => by cases h
  | .placeholder _, _, h => by cases h
  | .func _ args, c, h => Expr.ownColumnsAll_qualify_mem q args c h
  | .aliased e _, c, h => Expr.ownColumns_qualify_mem q e c h
  | .subquery _ args _, c, h =>
    List.mem_append_left _ (Expr.ownColumnsAll_qualify_mem q args c h)

theorem Expr.ownColumnsAll_qualify_mem (q : String) : ∀ (es : List (Expr V)),
    ∀ c ∈ Expr.ownColumnsAll (Expr.qualifyAll q es), c.2 ∈ Expr.columnNamesAll es
  | [], _, h => by cases h
  | e :: es, c, h => by
    refine List.mem_append.mpr ((List.mem_append.mp h).imp ?_ ?_)
    · exact Expr.ownColumns_qualify_mem q e c
    · exact Expr.ownColumnsAll_qualify_mem q es c

end

mutual

theorem Expr.ownColumns_mem : ∀ (e : Expr V), ∀ c ∈ e.ownColumns, c.2 ∈ e.columnNames
  | .column _ _, c, h => by
    rw [List.mem_singleton.mp h]
    exact List.mem_singleton.mpr rfl
  | .star _, _, h => by cases h
  | .literal _, _, h => by cases h
  | .placeholder _, _, h => by cases h
  | .func _ args, c, h => Expr.ownColumnsAll_mem args c h
  | .aliased e _, c, h => Expr.ownColumns_mem e c h
  | .subquery _ args _, c, h => List.mem_append_left _ (Expr.ownColumnsAll_mem args c h)

theorem Expr.ownColumnsAll_mem : ∀ (es : List (Expr V)),
    ∀ c ∈ Expr.ownColumnsAll es, c.2 ∈ Expr.columnNamesAll es
  | [], _, h => by cases h
  | e :: es, c, h => by
    refine List.mem_append.mpr ((List.mem_append.mp h).imp ?_ ?_)
    · exact Expr.ownColumns_mem e c
    · exact Expr.ownColumnsAll_mem es c

end

/-- The columns of a filter that fits the schema are not named like sentinels. -/
theorem looksLikeSentinel_scopedFilter (hvalid : FiltersValid lower isFunc I schema filters catalog)
    {p : PreparedRowFilter V} (hp : p ∈ filters) {names : List String} {f : From Empty}
    {r : TableRef} {c : String × String} (hc : c ∈ (f.scopedFilter names p r).ownColumns) :
    looksLikeSentinel c.2 = false := by
  have hmem : c.2 ∈ p.expression.columnNames := by
    unfold From.scopedFilter at hc
    split at hc
    · exact Expr.ownColumns_qualify_mem _ _ c hc
    · exact Expr.ownColumns_mem _ c hc
  have hdrift := hvalid.undrifted p hp
  unfold driftFree at hdrift
  split at hdrift
  · cases hdrift
  · rename_i table hfind
    have hcolumn := List.contains_iff_mem.mp (List.all_eq_true.mp hdrift _ hmem)
    refine Bool.eq_false_iff.mpr fun hlooks => ?_
    exact hvalid.unlike table (findPolicyTable_mem hfind) _ hlooks hcolumn

theorem Expr.unambiguousAll_append (cols : List (String × List String)) (xs ys : List (Expr V)) :
    Expr.unambiguousAll lower catalog cols (xs ++ ys) =
      (Expr.unambiguousAll lower catalog cols xs && Expr.unambiguousAll lower catalog cols ys) := by
  induction xs with
  | nil => rfl
  | cons x xs ih => rw [List.cons_append, Expr.unambiguousAll, Expr.unambiguousAll, ih,
      Bool.and_assoc]

variable [DecidableEq D]

theorem Expr.mem_evalAll {group : Multiset (RowFrame D)} {row : RowFrame D} {e : Expr V}
    {es : List (Expr V)} (he : e ∈ es) {v : D}
    (hv : v ∈ e.eval lower I catalog state ctes env group row) :
    v ∈ Expr.evalAll lower I catalog state ctes env group row es := by
  induction es with
  | nil => cases he
  | cons x xs ih =>
    rw [Expr.evalAll]
    rcases List.mem_cons.mp he with rfl | he
    · exact List.mem_append_left _ hv
    · exact List.mem_append_right _ (ih he)

/-- A filter added for a reference has the value it has on the row of the reference. -/
theorem eval_scopedFilter (hvalid : FiltersValid lower isFunc I schema filters catalog)
    {p : PreparedRowFilter V} (hp : p ∈ filters) {names : List String} {f : From Empty}
    {r : TableRef} (hfor : p.isFor lower schema (r.identity lower) = true)
    {row : RowFrame D} {b : Bound D} (hb : b ∈ row) (hname : b.name = r.aliasOrName)
    (hcols : b.columns = catalog (r.identity lower))
    (hnodup : ((RowFrame.header row).map (lower ·.1)).Nodup)
    (hstar : (f.scopedFilter names p r).hasStar = false)
    (hone : ∀ c ∈ (f.scopedFilter names p r).ownColumns,
      (RowFrame.header row).isUnambiguous lower c = true) :
    (f.scopedFilter names p r).eval lower I catalog state ctes env {row} row =
      [p.expression.evalRow lower I (b.get I.null)] := by
  -- the filter's table is the one the reference denotes
  obtain ⟨t, hfind, hid⟩ : ∃ t, findPolicyTable lower schema p.tableName = some t ∧
      t.identity lower = r.identity lower := by
    unfold PreparedRowFilter.isFor at hfor
    split at hfor
    · exact ⟨_, ‹_›, beq_iff_eq.mp hfor⟩
    · cases hfor
  have ht := findPolicyTable_mem hfind
  have hpred : p.expression.isRowPredicate lower isFunc (t.identity lower).2 b.columns = true := by
    have h := hvalid.validated p hp
    rw [validateRowFilter, hfind] at h
    rw [hcols, ← hid, hvalid.described t ht, ← hvalid.folded t ht]
    exact h
  have hscoped :
      (f.scopedFilter names p r).isRowPredicate lower isFunc (lower b.name) b.columns = true ∧
      (f.scopedFilter names p r).evalRow lower I (b.get I.null) =
        p.expression.evalRow lower I (b.get I.null) := by
    unfold From.scopedFilter
    split
    · rw [hname]
      exact ⟨Expr.isRowPredicate_qualify _ _ _ _ hpred, Expr.evalRow_qualify lower I _ _ _⟩
    · rename_i hplain
      have halias : r.aliasName = "" := by
        by_contra hne
        exact hplain (Or.inl hne)
      have hlow : lower b.name = (t.identity lower).2 := by
        rw [hname, TableRef.aliasOrName, if_pos halias, hid]
        rfl
      exact ⟨by rw [hlow]; exact hpred, rfl⟩
  rw [← hscoped.2]
  refine Expr.eval_rowPredicate lower I catalog state hvalid.operators _ hscoped.1 hstar ?_
  intro c hc
  refine ⟨looksLikeSentinel_scopedFilter hvalid hp hc, fun htable hcol => ?_⟩
  exact lookupColumn_eq lower I hnodup hb htable hcol (hone c hc)

mutual

/-- A filter condition reads no table. -/
theorem Expr.eval_state_eq {target : String} {columns : List String} {group : Multiset (RowFrame D)}
    {row : RowFrame D} : ∀ e : Expr V, e.isRowPredicate lower isFunc target columns = true →
    e.eval lower I catalog state ctes env group row =
      e.eval lower I catalog state' ctes env group row
  | .column _ _, _ => by rw [Expr.eval, Expr.eval]
  | .star _, _ => by rw [Expr.eval, Expr.eval]
  | .literal _, _ => by rw [Expr.eval, Expr.eval]
  | .placeholder _, _ => by rw [Expr.eval, Expr.eval]
  | .func name args, h => by
    simp only [Expr.isRowPredicate, Bool.and_eq_true] at h
    simp only [Expr.eval, Expr.evalAll_state_eq args h.2]
  | .aliased e _, h => by
    rw [Expr.eval, Expr.eval]
    exact Expr.eval_state_eq e h
  | .subquery _ _ _, h => by cases h

theorem Expr.evalAll_state_eq {target : String} {columns : List String}
    {group : Multiset (RowFrame D)} {row : RowFrame D} : ∀ es : List (Expr V),
    Expr.areRowPredicates lower isFunc target columns es = true →
    Expr.evalAll lower I catalog state ctes env group row es =
      Expr.evalAll lower I catalog state' ctes env group row es
  | [], _ => by rw [Expr.evalAll, Expr.evalAll]
  | e :: es, h => by
    simp only [Expr.areRowPredicates, Bool.and_eq_true] at h
    rw [Expr.evalAll, Expr.evalAll, Expr.eval_state_eq e h.1, Expr.evalAll_state_eq es h.2]

end

theorem Expr.evalAll_append {group : Multiset (RowFrame D)} {row : RowFrame D}
    (xs ys : List (Expr V)) :
    Expr.evalAll lower I catalog state ctes env group row (xs ++ ys) =
      Expr.evalAll lower I catalog state ctes env group row xs ++
        Expr.evalAll lower I catalog state ctes env group row ys := by
  induction xs with
  | nil => rw [Expr.evalAll]; rfl
  | cons x xs ih => rw [List.cons_append, Expr.evalAll, Expr.evalAll, ih, List.append_assoc]

theorem Expr.evalAll_congr {group : Multiset (RowFrame D)} {row : RowFrame D} {es : List (Expr V)}
    (h : ∀ e ∈ es, e.eval lower I catalog state ctes env group row =
      e.eval lower I catalog state' ctes env group row) :
    Expr.evalAll lower I catalog state ctes env group row es =
      Expr.evalAll lower I catalog state' ctes env group row es := by
  induction es with
  | nil => rw [Expr.evalAll, Expr.evalAll]
  | cons e es ih =>
    rw [Expr.evalAll, Expr.evalAll, h e (List.mem_cons_self ..),
      ih fun x hx => h x (List.mem_cons_of_mem _ hx)]

/-- Added conditions have the same values in both states. -/
theorem evalAll_addedConditions (hvalid : FiltersValid lower isFunc I schema filters catalog)
    (state state' : String × String → Multiset (List D)) (ctes : List (String × Table D))
    (env : List (RowFrame D)) (names : List String) (f : From Empty)
    (group : Multiset (RowFrame D)) (row : RowFrame D) :
    Expr.evalAll lower I catalog state ctes env group row
        (f.addedConditions lower filters names) =
      Expr.evalAll lower I catalog state' ctes env group row
        (f.addedConditions lower filters names) := by
  refine Expr.evalAll_congr fun e he => ?_
  obtain ⟨m, hm, rfl⟩ := List.mem_map.mp he
  have hvalidated := hvalid.validated m.1 ((mem_filterMatches lower filters).mp hm).1
  obtain ⟨_, _, hpred⟩ := scopedFilter_isRowPredicate lower hvalidated names f m.2
  exact Expr.eval_state_eq _ hpred

/-- **What passes the added conditions is visible.** -/
theorem visible_of_addedConditions (hvalid : FiltersValid lower isFunc I schema filters catalog)
    {s : SelectNode Empty} (hsafe : s.Safe lower I schema filters)
    {cols : List (String × List String)} (hnames : cols.map (·.1) = s.ctes) {row : RowFrame D}
    (hheader : RowFrame.header row =
      (s.sources.withFilters lower filters s.ctes).header lower catalog cols)
    (hnodup : ((RowFrame.header row).map (lower ·.1)).Nodup)
    (hstar : Expr.anyStar (s.sources.addedConditions lower filters s.ctes) = false)
    (hone : ∀ c ∈ Expr.ownColumnsAll (s.sources.addedConditions lower filters s.ctes),
      (RowFrame.header row).isUnambiguous lower c = true)
    (hadded : (Expr.evalAll lower I catalog state ctes env {row} row
      (s.sources.addedConditions lower filters s.ctes)).all I.holds = true) :
    s.sources.visible lower I schema filters s.ctes row = true := by
  refine From.visible_of_rows hnames _ row hheader fun r hr b hb hname hcols => ?_
  rw [visibleRow, List.all_eq_true]
  intro p hp
  by_cases hfor : p.isFor lower schema (r.identity lower) = true
  · -- the filter was added for the reference, and holds
    have hmem : s.sources.scopedFilter s.ctes p r ∈
        s.sources.addedConditions lower filters s.ctes :=
      List.mem_map.mpr ⟨(p, r), (mem_filterMatches lower filters).mpr
        ⟨hp, hr, hsafe.matched r hr p hp hfor⟩, rfl⟩
    have hv : p.expression.evalRow lower I (b.get I.null) ∈
        (s.sources.scopedFilter s.ctes p r).eval lower I catalog state ctes env {row} row := by
      rw [eval_scopedFilter hvalid hp hfor hb hname hcols hnodup (Expr.anyStar_eq_false hstar hmem)
        fun c hc => hone c (Expr.mem_ownColumnsAll hmem hc)]
      exact List.mem_singleton.mpr rfl
    rw [List.all_eq_true.mp hadded _ (Expr.mem_evalAll hmem hv), Bool.or_true]
  · simp [hfor]

/-- Only visible frames are kept. -/
theorem filter_kept (hvalid : FiltersValid lower isFunc I schema filters catalog)
    {s : SelectNode Empty} (hsafe : s.Safe lower I schema filters)
    (hctes : ctes.map (·.1) = s.ctes)
    (hnodup : (((s.sources.withFilters lower filters s.ctes).header lower catalog
      (cteColumns ctes)).map (lower ·.1)).Nodup)
    (hstar : Expr.anyStar (s.sources.addedConditions lower filters s.ctes) = false)
    (hone : ∀ c ∈ Expr.ownColumnsAll (s.sources.addedConditions lower filters s.ctes),
      ((s.sources.withFilters lower filters s.ctes).header lower catalog
        (cteColumns ctes)).isUnambiguous lower c = true)
    (state : String × String → Multiset (List D)) (env : List (RowFrame D))
    (conditions : List (Expr V)) :
    ((s.sources.withFilters lower filters s.ctes).join lower I catalog state ctes env).filter
        (fun row => (Expr.evalAll lower I catalog state ctes env {row} row
          (conditions ++ s.sources.addedConditions lower filters s.ctes)).all I.holds) =
      (((s.sources.withFilters lower filters s.ctes).join lower I catalog state ctes env).filter
        (s.sources.visible lower I schema filters s.ctes ·)).filter
        (fun row => (Expr.evalAll lower I catalog state ctes env {row} row
          (conditions ++ s.sources.addedConditions lower filters s.ctes)).all I.holds) := by
  rw [Multiset.filter_filter]
  refine Multiset.filter_congr fun row hrow => ?_
  have hheader := From.header_of_mem lower I catalog state ctes env _ row hrow
  refine ⟨fun hall => ⟨hall, ?_⟩, fun hall => hall.1⟩
  rw [Expr.evalAll_append, List.all_append, Bool.and_eq_true] at hall
  refine visible_of_addedConditions hvalid hsafe ?_ hheader ?_ hstar ?_ hall.2
  · rw [cteColumns_names, hctes]
  · rw [hheader]
    exact hnodup
  · intro c hc
    rw [hheader]
    exact hone c hc

/-! ### Two runs -/

theorem eq_false_of_null_visible {filtered visible : Bool}
    (h : filtered = true → visible = false) (hv : visible = true) : filtered = false := by
  cases filtered with
  | false => rfl
  | true =>
    rw [h rfl] at hv
    cases hv

mutual

theorem Expr.withFilters_eval (hvalid : FiltersValid lower isFunc I schema filters catalog)
    (hvis : VisiblyEqual lower I schema filters catalog state state')
    (ctes : List (String × Table D)) (env : List (RowFrame D)) : ∀ e : Expr Empty,
    (∀ s ∈ e.selects (ctes.map (·.1)), s.Safe lower I schema filters) →
    (e.withFilters lower filters (ctes.map (·.1))).unambiguous lower catalog (cteColumns ctes) =
      true → ∀ group row,
    (e.withFilters lower filters (ctes.map (·.1))).eval lower I catalog state ctes env group row =
      (e.withFilters lower filters (ctes.map (·.1))).eval lower I catalog state' ctes env group row
  | .column _ _, _, _, _, _ => by rw [Expr.withFilters, Expr.eval, Expr.eval]
  | .star _, _, _, _, _ => by rw [Expr.withFilters, Expr.eval, Expr.eval]
  | .literal _, _, _, _, _ => by rw [Expr.withFilters, Expr.eval, Expr.eval]
  | .func _ args, hs, hu, group, row => by
    have hargs := Expr.withFilters_evalAll hvalid hvis ctes env args hs hu
    simp only [Expr.withFilters, Expr.eval, hargs]
  | .aliased e _, hs, hu, group, row => by
    rw [Expr.withFilters, Expr.eval, Expr.eval]
    exact Expr.withFilters_eval hvalid hvis ctes env e hs hu group row
  | .subquery _ args q, hs, hu, group, row => by
    obtain ⟨hsargs, hsq⟩ := List.forall_mem_append.mp hs
    rw [Expr.withFilters, Expr.unambiguous, Bool.and_eq_true] at hu
    have hargs := Expr.withFilters_evalAll hvalid hvis ctes env args hsargs hu.1
    have hq := Query.withFilters_eval hvalid hvis ctes (row :: env) q hsq hu.2
    simp only [Expr.withFilters, Expr.eval, hargs, hq]

theorem Expr.withFilters_evalAll (hvalid : FiltersValid lower isFunc I schema filters catalog)
    (hvis : VisiblyEqual lower I schema filters catalog state state')
    (ctes : List (String × Table D)) (env : List (RowFrame D)) : ∀ es : List (Expr Empty),
    (∀ s ∈ Expr.selectsAll (ctes.map (·.1)) es, s.Safe lower I schema filters) →
    Expr.unambiguousAll lower catalog (cteColumns ctes)
      (Expr.withFiltersAll lower filters (ctes.map (·.1)) es) = true → ∀ group row,
    Expr.evalAll lower I catalog state ctes env group row
        (Expr.withFiltersAll lower filters (ctes.map (·.1)) es) =
      Expr.evalAll lower I catalog state' ctes env group row
        (Expr.withFiltersAll lower filters (ctes.map (·.1)) es)
  | [], _, _, _, _ => by rw [Expr.withFiltersAll, Expr.evalAll, Expr.evalAll]
  | e :: es, hs, hu, group, row => by
    obtain ⟨hse, hses⟩ := List.forall_mem_append.mp hs
    rw [Expr.withFiltersAll, Expr.unambiguousAll, Bool.and_eq_true] at hu
    rw [Expr.withFiltersAll, Expr.evalAll, Expr.evalAll,
      Expr.withFilters_eval hvalid hvis ctes env e hse hu.1,
      Expr.withFilters_evalAll hvalid hvis ctes env es hses hu.2]

/-- The visible frames of a `FROM` clause are the same in both states. -/
theorem From.withFilters_join (hvalid : FiltersValid lower isFunc I schema filters catalog)
    (hvis : VisiblyEqual lower I schema filters catalog state state')
    (ctes : List (String × Table D)) (env : List (RowFrame D)) : ∀ f : From Empty,
    (∀ s ∈ f.derivedSelects (ctes.map (·.1)), s.Safe lower I schema filters) →
    (∀ s ∈ f.onSelects (ctes.map (·.1)), s.Safe lower I schema filters) →
    f.NullSafe lower I schema filters (ctes.map (·.1)) →
    (f.withFilters lower filters (ctes.map (·.1))).unambiguous lower catalog (cteColumns ctes) =
      true →
    ((f.withFilters lower filters (ctes.map (·.1))).join lower I catalog state ctes env).filter
        (f.visible lower I schema filters (ctes.map (·.1)) ·) =
      ((f.withFilters lower filters (ctes.map (·.1))).join lower I catalog state' ctes env).filter
        (f.visible lower I schema filters (ctes.map (·.1)) ·)
  | .nothing, _, _, _, _ => by rw [From.withFilters, From.join, From.join]
  | .table left kind ref on, hd, ho, hnull, hu => by
    obtain ⟨holeft, hon⟩ := List.forall_mem_append.mp ho
    obtain ⟨hnleft, hnref, hnside⟩ := hnull
    rw [From.withFilters, From.unambiguous, Bool.and_eq_true] at hu
    have heval := Expr.withFilters_evalAll hvalid hvis ctes env on hon hu.2
    have hleft := From.withFilters_join hvalid hvis ctes env left hd holeft hnleft hu.1
    simp only [From.withFilters, From.join, heval, Multiset.filter_map]
    refine congrArg _ (filter_outerJoin_congr _ hleft (ref.visible_rows_eq hvis) ?_ ?_)
    · intro hkeep hnullref
      rw [nullBound_get] at hnullref
      rw [ref.rows_eq hvis (eq_false_of_null_visible (hnref hkeep) hnullref)]
    · intro hkeep hnullleft
      rw [From.visible_nullBound] at hnullleft
      have hfilt := eq_false_of_null_visible (hnside hkeep) hnullleft
      simpa only [From.visible_of_not_isFiltered left _ hfilt, Multiset.filter_true] using hleft
  | .derived left kind q _ _ on, hd, ho, hnull, hu => by
    obtain ⟨hdleft, hdq⟩ := List.forall_mem_append.mp hd
    obtain ⟨holeft, hon⟩ := List.forall_mem_append.mp ho
    obtain ⟨hnleft, hnside⟩ := hnull
    rw [From.withFilters, From.unambiguous, Bool.and_eq_true, Bool.and_eq_true] at hu
    have heval := Expr.withFilters_evalAll hvalid hvis ctes env on hon hu.2
    have hq := Query.withFilters_eval hvalid hvis ctes env q hdq hu.1.2
    have hleft := From.withFilters_join hvalid hvis ctes env left hdleft holeft hnleft hu.1.1
    simp only [From.withFilters, From.join, heval, hq, Multiset.filter_map]
    refine congrArg _ (filter_outerJoin_left_congr _ hleft fun hkeep hnullleft => ?_)
    rw [From.visible_nullBound] at hnullleft
    have hfilt := eq_false_of_null_visible (hnside hkeep) hnullleft
    simpa only [From.visible_of_not_isFiltered left _ hfilt, Multiset.filter_true] using hleft

/-- A filtered query has the same rows in both states. -/
theorem Query.withFilters_eval (hvalid : FiltersValid lower isFunc I schema filters catalog)
    (hvis : VisiblyEqual lower I schema filters catalog state state')
    (ctes : List (String × Table D)) (env : List (RowFrame D)) : ∀ q : Query Empty,
    (∀ s ∈ q.selects (ctes.map (·.1)), s.Safe lower I schema filters) →
    (q.withFilters lower filters (ctes.map (·.1))).unambiguous lower catalog (cteColumns ctes) =
      true →
    (q.withFilters lower filters (ctes.map (·.1))).eval lower I catalog state ctes env =
      (q.withFilters lower filters (ctes.map (·.1))).eval lower I catalog state' ctes env
  | .select ps f cs g h o, hs, hu => by
    simp only [Query.selects, List.forall_mem_append, List.forall_mem_singleton] at hs
    obtain ⟨⟨⟨⟨⟨hd, hp⟩, hon⟩, hc⟩, ⟨hg, hh⟩, -⟩, hself⟩ := hs
    simp only [Query.withFilters, Query.unambiguous, Bool.and_eq_true, decide_eq_true_eq,
      List.all_append, List.all_eq_true, Expr.ownColumnsAll_append,
      Expr.unambiguousAll_append, Expr.anyStar_append, Bool.not_eq_true',
      Bool.or_eq_false_iff] at hu
    obtain ⟨⟨⟨⟨⟨⟨⟨⟨hnodup, -, -, hone⟩, -, hstar⟩, huf⟩, hup⟩, huc, -⟩, hug⟩, huh⟩, -⟩ := hu
    have hps := Expr.withFilters_evalAll hvalid hvis ctes env ps hp hup
    have hcs := Expr.withFilters_evalAll hvalid hvis ctes env cs hc huc
    have hgs := Expr.withFilters_evalAll hvalid hvis ctes env g hg hug
    have hhs := Expr.withFilters_evalAll hvalid hvis ctes env h hh huh
    have hjoin := From.withFilters_join hvalid hvis ctes env f hd hon hself.nullSafe huf
    have hadded := evalAll_addedConditions hvalid state state' ctes env (ctes.map (·.1)) f
    have hkept := fun st => filter_kept hvalid hself rfl hnodup hstar hone st env
    rw [Query.withFilters, Query.eval, Query.eval, hkept state, hkept state', hjoin]
    simp only [Expr.evalAll_append, hps, hcs, hgs, hhs, hadded]
  | .withTable name columns body rest, hs, hu => by
    obtain ⟨hsbody, hsrest⟩ := List.forall_mem_append.mp hs
    rw [Query.withFilters, Query.unambiguous, Bool.and_eq_true] at hu
    have hbody := Query.withFilters_eval hvalid hvis ctes env body hsbody hu.1
    rw [Query.withFilters, Query.eval, Query.eval, hbody]
    exact Query.withFilters_eval hvalid hvis (_ :: ctes) env rest hsrest hu.2
  | .setOp left right, hs, hu => by
    obtain ⟨hsleft, hsright⟩ := List.forall_mem_append.mp hs
    rw [Query.withFilters, Query.unambiguous, Bool.and_eq_true] at hu
    rw [Query.withFilters, Query.eval, Query.eval,
      Query.withFilters_eval hvalid hvis ctes env left hsleft hu.1,
      Query.withFilters_eval hvalid hvis ctes env right hsright hu.2]

end

end Noninterference

/-! ## Orders of users

`SELECT u.id FROM users AS u LEFT JOIN orders AS o ON o.uid = u.id`.
-/
section Example

/-- Strings and null, with three-valued logic. -/
def nullableStrings : Interpretation String (Option String) where
  null := none
  holds v := v == some "true"
  literal text := if text = "NULL" then none else some (literalName text)
  param v := some v
  scalar
    | "EQ", [some a, some b] => some (if a = b then "true" else "false")
    | "Is", [a, none] => some (if a = none then "true" else "false")
    | "Or", [a, b] =>
      if a = some "true" ∨ b = some "true" then some "true"
      else if a = none ∨ b = none then none else some "false"
    | _, _ => none
  aggregate _ := none
  subquery kind _ rows := match kind with
    | .existential => some (if rows = 0 then "false" else "true")
    | _ => none
  union rows rows' := (rows + rows').dedup
  representative _ := []

def usersAndOrders : List SchemaTable :=
  [{ name := "users", columns := ["id"] }, { name := "orders", columns := ["uid", "owner"] }]

def usersAndOrdersCatalog (table : String × String) : List String :=
  if table = ("public", "users") then ["id"]
  else if table = ("public", "orders") then ["uid", "owner"] else []

/-- One user, and the given orders. -/
def oneUser (orders : Multiset (List (Option String))) (table : String × String) :
    Multiset (List (Option String)) :=
  if table = ("public", "users") then {[some "1"]}
  else if table = ("public", "orders") then orders else 0

def usersWithOrders : Query Empty :=
  .select [.column "u" "id"]
    (.table (.table .nothing .inner { name := "users", aliasName := "u" } []) .left
      { name := "orders", aliasName := "o" } [.func "EQ" [.column "o" "uid", .column "u" "id"]])
    [] [] [] []

/-- `owner IS NULL OR owner = ?`. -/
def ownerOrNullFilter (value : String) : PreparedRowFilter String where
  tableName := "orders"
  expression := .func "Or" [.func "Is" [.column "" "owner", .literal "NULL"],
    .func "EQ" [.column "" "owner", .placeholder value]]
  params := [value]
  bound := rfl

/-- A name that looks like a sentinel keeps its first character. -/
theorem lowerAscii_sentinel {name : String} (h : looksLikeSentinel name = true) :
    (lowerAscii name).toList.head? = some '_' := by
  obtain ⟨rest, hrest⟩ := List.isPrefixOf_iff_prefix.mp h
  rw [lowerAscii, String.toList_ofList, ← hrest]
  rfl

theorem filtersValid_orders {p : PreparedRowFilter String}
    (h : validateRowFilter lowerAscii isSomeFunc usersAndOrders p.tableName p.expression = true)
    (hdrift : driftFree lowerAscii usersAndOrders p = true) :
    FiltersValid lowerAscii isSomeFunc nullableStrings usersAndOrders [p]
      usersAndOrdersCatalog where
  operators _ _ := rfl
  described := by decide
  folded := by decide
  unlike t ht name hlooks hmem := by
    have hhead := lowerAscii_sentinel hlooks
    revert hhead
    have hcolumns : ∀ t ∈ usersAndOrders, ∀ column ∈ t.columns.map lowerAscii,
        column.toList.head? ≠ some '_' := by decide
    exact hcolumns t ht _ hmem
  validated q hq := by
    rw [List.mem_singleton.mp hq]
    exact h
  undrifted q hq := by
    rw [List.mem_singleton.mp hq]
    exact hdrift

theorem visiblyEqual_orders {filters : List (PreparedRowFilter String)}
    {orders orders' : Multiset (List (Option String))}
    (h : orders.filter (fun values => visibleRow lowerAscii nullableStrings usersAndOrders filters
        ("public", "orders") (Bound.get none ⟨"", ["uid", "owner"], values⟩)) =
      orders'.filter (fun values => visibleRow lowerAscii nullableStrings usersAndOrders filters
        ("public", "orders") (Bound.get none ⟨"", ["uid", "owner"], values⟩))) :
    VisiblyEqual lowerAscii nullableStrings usersAndOrders filters usersAndOrdersCatalog
      (oneUser orders) (oneUser orders') := by
  intro table
  by_cases htable : table = ("public", "orders")
  · subst htable
    exact h
  · simp only [oneUser, if_neg htable]

/-- The only `SELECT` of the statement. -/
def usersWithOrdersNode : SelectNode Empty :=
  ⟨[], [.column "u" "id"],
    .table (.table .nothing .inner { name := "users", aliasName := "u" } []) .left
      { name := "orders", aliasName := "o" } [.func "EQ" [.column "o" "uid", .column "u" "id"]],
    [], [], [], []⟩

theorem selects_usersWithOrders : usersWithOrders.selects [] = [usersWithOrdersNode] := rfl

/-- References to both tables are matched by filters for their bare names. -/
theorem matched_orders {p : PreparedRowFilter String} (h : p.tableName = "orders") :
    ∀ r ∈ usersWithOrdersNode.sources.physicalRefs usersWithOrdersNode.ctes, ∀ q ∈ [p],
      q.isFor lowerAscii usersAndOrders (r.identity lowerAscii) = true →
        tableMatchesPolicy lowerAscii r q.tableName = true := by
  intro r hr q hq
  rw [List.mem_singleton.mp hq, PreparedRowFilter.isFor, h]
  have hrefs : usersWithOrdersNode.sources.physicalRefs usersWithOrdersNode.ctes =
      [{ name := "users", aliasName := "u" }, { name := "orders", aliasName := "o" }] := by decide
  rw [hrefs] at hr
  revert r
  decide

end Example
end QueryCraft
