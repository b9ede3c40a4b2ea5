import Mathlib.Data.Multiset.Dedup
import QueryCraft.Lookup
import QueryCraft.OuterJoin
import QueryCraft.SchemaContext

/-! # The meaning of a statement

A statement denotes a multiset of rows.  Its `FROM` clause denotes a multiset of
*frames*, which hold one row for each source, last source first; the `WHERE` keeps the
frames of which all of its conjuncts are true; the rest of the `SELECT` groups the
frames and computes a row for each group.  A subquery is evaluated for every frame,
with the frame as one more scope around it.

The values and what operators, aggregates and the different uses of a subquery do with
them is left to an `Interpretation`; three-valued logic is the interpretation of the
logical operators, and a conjunct counts when it *holds*, so that a null does not.

A database rejects a statement before it runs it if a `SELECT` names two sources alike,
refers to a column of several of its sources or has a star in its `WHERE`
(`Query.unambiguous`).
-/
namespace QueryCraft

/-! ## Frames -/

/-- A row of a source; a row that is shorter than the columns is padded with nulls. -/
structure Bound (D : Type) where
  name : String
  columns : List String
  values : List D
deriving DecidableEq

/-- A row for each source of a `FROM` clause, last source first. -/
abbrev RowFrame (D : Type) := List (Bound D)

/-- The value of a column. -/
def Bound.get {D : Type} (null : D) (b : Bound D) (column : String) : D :=
  ((b.columns.zip b.values).lookup column).getD null

/-- Names and columns of the sources, last source first. -/
abbrev Header := List (String × List String)

/-- A row of nulls. -/
def nullBound {D : Type} (source : String × List String) : Bound D := ⟨source.1, source.2, []⟩

theorem nullBound_get {D : Type} (null : D) (source : String × List String) :
    (nullBound source).get null = fun _ => null := by
  funext column
  simp [nullBound, Bound.get]

/-- Names and columns of a frame. -/
def RowFrame.header {D : Type} (frame : RowFrame D) : Header :=
  frame.map fun b => (b.name, b.columns)

theorem header_nullBound {D : Type} (header : Header) :
    RowFrame.header (header.map (nullBound (D := D))) = header := by
  simp [RowFrame.header, nullBound, Function.comp_def]

/-- A frame of a join has a frame of the left side, or nulls, behind the row of the
last source. -/
theorem header_of_mem_join {D : Type} {h : Header} {source : String × List String} {kl kr : Bool}
    {on : RowFrame D → Bound D → Bool} {L : Multiset (RowFrame D)} {R : Multiset (List D)}
    (hL : ∀ l ∈ L, RowFrame.header l = h) {frame : RowFrame D}
    (hmem : frame ∈ (outerJoin kl kr (h.map nullBound) (nullBound source) on L
      (R.map fun values => ⟨source.1, source.2, values⟩)).map fun x => x.2 :: x.1) :
    RowFrame.header frame = source :: h := by
  obtain ⟨x, hx, rfl⟩ := Multiset.mem_map.mp hmem
  obtain ⟨hl, hr⟩ := mem_outerJoin hx
  have hleft : RowFrame.header x.1 = h := by
    rcases hl with hl | hl
    · exact hL _ hl
    · rw [hl, header_nullBound]
  have hright : (x.2.name, x.2.columns) = source := by
    rcases hr with hr | hr
    · obtain ⟨values, -, hv⟩ := Multiset.mem_map.mp hr
      rw [← hv]
    · rw [hr, nullBound]
  rw [RowFrame.header, List.map_cons, hright]
  exact congrArg _ hleft

/-- The values of an expression's parts. -/
structure Interpretation (V D : Type) where
  null : D
  /-- The value is true. -/
  holds : D → Bool
  literal : String → D
  param : V → D
  scalar : String → List D → D
  /-- Aggregate functions, on the argument rows of a group. -/
  aggregate : String → Option (Multiset (List D) → D)
  subquery : SubqueryKind → List D → Multiset (List D) → D
  union : Multiset (List D) → Multiset (List D) → Multiset (List D)
  /-- The frame at which a group's columns are read. -/
  representative : Multiset (RowFrame D) → RowFrame D

/-- A table: its columns and rows. -/
structure Table (D : Type) where
  columns : List String
  rows : Multiset (List D)

def JoinKind.keepsLeft : JoinKind → Bool
  | .inner | .right => false
  | .left | .full => true

def JoinKind.keepsRight : JoinKind → Bool
  | .inner | .left => false
  | .right | .full => true

section Semantics
variable {V D : Type} (lower : String → String) (I : Interpretation V D)

/-- The value of a column or `null` where there is none. -/
def lookupColumn (frames : List (RowFrame D)) (table name : String) : D :=
  let found := if table ≠ "" then innermost (fun b => lower b.name == lower table) frames
    else innermost (fun b => b.columns.contains (lower name)) frames
  (found.map fun b => b.get I.null (lower name)).getD I.null

/-- The values a star stands for. -/
def starValues (frame : RowFrame D) (table : String) : List D :=
  (frame.reverse.filter fun b => table == "" || lower b.name == lower table).flatMap fun b =>
    b.columns.map (b.get I.null)

mutual

/-- The expression aggregates. -/
def Expr.aggregates : Expr V → Bool
  | .func name args => (I.aggregate name).isSome || Expr.anyAggregates args
  | .aliased e _ => e.aggregates
  | .subquery _ args _ => Expr.anyAggregates args
  | _ => false

def Expr.anyAggregates : List (Expr V) → Bool
  | [] => false
  | e :: es => e.aggregates || Expr.anyAggregates es

end

/-! ## Columns -/

/-- The columns of an alias rename the first ones. -/
def renameColumns (outerColumns columns : List String) : List String :=
  outerColumns.map lower ++ columns.drop outerColumns.length

/-- The output columns of a projection; an expression without a name has an empty
one. -/
def Expr.columnsOf (header : Header) : Expr V → List String
  | .column _ name => [lower name]
  | .aliased _ name => [lower name]
  | .star table =>
    (header.reverse.filter fun s => table == "" || lower s.1 == lower table).flatMap (·.2)
  | _ => [""]

variable (catalog : String × String → List String)

/-- The columns of a table reference. -/
def TableRef.columns (ctes : List (String × List String)) (ref : TableRef) : List String :=
  if ref.isPhysical (ctes.map (·.1)) then catalog (ref.identity lower)
  else (ctes.lookup ref.name).getD []

mutual

/-- The sources of a `FROM` clause. -/
def From.header (ctes : List (String × List String)) : From V → Header
  | .nothing => []
  | .table left _ ref _ =>
    (ref.aliasOrName, ref.columns lower catalog ctes) :: left.header ctes
  | .derived left _ q aliasName columns _ =>
    (aliasName, renameColumns lower columns (q.columns ctes)) :: left.header ctes

/-- The output columns of a query. -/
def Query.columns (ctes : List (String × List String)) : Query V → List String
  | .select projections sources _ _ _ _ =>
    projections.flatMap (Expr.columnsOf lower (sources.header ctes))
  | .withTable name columns body rest =>
    rest.columns ((name, renameColumns lower columns (body.columns ctes)) :: ctes)
  | .setOp left _ => left.columns ctes

end

/-! ## Names a database rejects -/

mutual

/-- The columns of an expression outside subqueries, with their qualifiers. -/
def Expr.ownColumns : Expr V → List (String × String)
  | .column table name => [(table, name)]
  | .func _ args => Expr.ownColumnsAll args
  | .aliased e _ => e.ownColumns
  | .subquery _ args _ => Expr.ownColumnsAll args
  | _ => []

def Expr.ownColumnsAll : List (Expr V) → List (String × String)
  | [] => []
  | e :: es => e.ownColumns ++ Expr.ownColumnsAll es

end

mutual

/-- There is a star outside subqueries. -/
def Expr.hasStar : Expr V → Bool
  | .star _ => true
  | .func _ args => Expr.anyStar args
  | .aliased e _ => e.hasStar
  | .subquery _ args _ => Expr.anyStar args
  | _ => false

def Expr.anyStar : List (Expr V) → Bool
  | [] => false
  | e :: es => e.hasStar || Expr.anyStar es

end

/-- At most one source has an unqualified column. -/
def Header.isUnambiguous (header : Header) (column : String × String) : Bool :=
  column.1 != "" || decide ((header.filter (·.2.contains (lower column.2))).length ≤ 1)

mutual

/-- The queries in an expression pass the database's check. -/
def Expr.unambiguous (ctes : List (String × List String)) : Expr V → Bool
  | .func _ args => Expr.unambiguousAll ctes args
  | .aliased e _ => e.unambiguous ctes
  | .subquery _ args q => Expr.unambiguousAll ctes args && q.unambiguous ctes
  | _ => true

def Expr.unambiguousAll (ctes : List (String × List String)) : List (Expr V) → Bool
  | [] => true
  | e :: es => e.unambiguous ctes && Expr.unambiguousAll ctes es

def From.unambiguous (ctes : List (String × List String)) : From V → Bool
  | .nothing => true
  | .table left _ _ on => left.unambiguous ctes && Expr.unambiguousAll ctes on
  | .derived left _ q _ _ on =>
    left.unambiguous ctes && q.unambiguous ctes && Expr.unambiguousAll ctes on

/-- The sources of every `SELECT` have different names, its projection and `WHERE` refer to
no column of several of them, and its `WHERE` has no star. -/
def Query.unambiguous (ctes : List (String × List String)) : Query V → Bool
  | .select projections sources conditions group having order =>
    decide ((sources.header lower catalog ctes).map (lower ·.1)).Nodup &&
      (Expr.ownColumnsAll projections ++ Expr.ownColumnsAll conditions).all
        ((sources.header lower catalog ctes).isUnambiguous lower) &&
      !Expr.anyStar conditions &&
      sources.unambiguous ctes && Expr.unambiguousAll ctes projections &&
      Expr.unambiguousAll ctes conditions && Expr.unambiguousAll ctes group &&
      Expr.unambiguousAll ctes having && Expr.unambiguousAll ctes order
  | .withTable name columns body rest =>
    body.unambiguous ctes &&
      rest.unambiguous
        ((name, renameColumns lower columns (body.columns lower catalog ctes)) :: ctes)
  | .setOp left right => left.unambiguous ctes && right.unambiguous ctes

end

/-! ## Evaluation -/

variable [DecidableEq D] (state : String × String → Multiset (List D))

/-- The columns of the `WITH` tables. -/
def cteColumns (ctes : List (String × Table D)) : List (String × List String) :=
  ctes.map fun c => (c.1, c.2.columns)

/-- The rows of a table reference. -/
def TableRef.rows (ctes : List (String × Table D)) (ref : TableRef) : Multiset (List D) :=
  if ref.isPhysical (ctes.map (·.1)) then state (ref.identity lower)
  else ((ctes.lookup ref.name).map (·.rows)).getD 0

/-- The frames of the groups, each with the frame at which its columns are read: one
group for each key, or a single one without a `GROUP BY`. -/
def groupFrames (whole : Bool) (key : RowFrame D → List D) (kept : Multiset (RowFrame D)) :
    Multiset (Multiset (RowFrame D) × RowFrame D) :=
  if whole then {(kept, I.representative kept)}
  else (kept.map key).dedup.map fun k =>
    (kept.filter (key · = k), I.representative (kept.filter (key · = k)))

/-- The rows of a `SELECT`: its frames are grouped if there is a `GROUP BY` or an
aggregate, and the groups that `HAVING` keeps are projected. -/
def selectRows (grouped whole : Bool) (key : RowFrame D → List D)
    (having project : Multiset (RowFrame D) → RowFrame D → List D) (kept : Multiset (RowFrame D)) :
    Multiset (List D) :=
  ((if grouped then groupFrames I whole key kept else kept.map fun row => ({row}, row)).filter
    fun g => (having g.1 g.2).all I.holds).map fun g => project g.1 g.2

mutual

/-- The values of an expression in a group, read at a frame of it; only a star has
several. -/
def Expr.eval (ctes : List (String × Table D)) (env : List (RowFrame D))
    (group : Multiset (RowFrame D)) (row : RowFrame D) : Expr V → List D
  | .column table name => [lookupColumn lower I (row :: env) table name]
  | .star table => starValues lower I row table
  | .literal text => [I.literal text]
  | .placeholder v => [I.param v]
  | .func name args => match I.aggregate name with
    | some f => [f (group.map fun r => Expr.evalAll ctes env {r} r args)]
    | none => [I.scalar name (Expr.evalAll ctes env group row args)]
  | .aliased e _ => e.eval ctes env group row
  | .subquery kind args q =>
    [I.subquery kind (Expr.evalAll ctes env group row args) (q.eval ctes (row :: env))]

def Expr.evalAll (ctes : List (String × Table D)) (env : List (RowFrame D))
    (group : Multiset (RowFrame D)) (row : RowFrame D) : List (Expr V) → List D
  | [] => []
  | e :: es => e.eval ctes env group row ++ Expr.evalAll ctes env group row es

/-- The frames of a `FROM` clause. -/
def From.join (ctes : List (String × Table D)) (env : List (RowFrame D)) :
    From V → Multiset (RowFrame D)
  | .nothing => {[]}
  | .table left kind ref on =>
    (outerJoin kind.keepsLeft kind.keepsRight
      ((left.header lower catalog (cteColumns ctes)).map nullBound)
      (nullBound (ref.aliasOrName, ref.columns lower catalog (cteColumns ctes)))
      (fun l b => (Expr.evalAll ctes env {b :: l} (b :: l) on).all I.holds)
      (left.join ctes env)
      ((ref.rows lower state ctes).map fun values =>
        ⟨ref.aliasOrName, ref.columns lower catalog (cteColumns ctes), values⟩)).map
      fun x => x.2 :: x.1
  | .derived left kind q aliasName columns on =>
    (outerJoin kind.keepsLeft kind.keepsRight
      ((left.header lower catalog (cteColumns ctes)).map nullBound)
      (nullBound (aliasName, renameColumns lower columns
        (q.columns lower catalog (cteColumns ctes))))
      (fun l b => (Expr.evalAll ctes env {b :: l} (b :: l) on).all I.holds)
      (left.join ctes env)
      ((q.eval ctes env).map fun values =>
        ⟨aliasName, renameColumns lower columns (q.columns lower catalog (cteColumns ctes)),
          values⟩)).map
      fun x => x.2 :: x.1

/-- The rows of a query. -/
def Query.eval (ctes : List (String × Table D)) (env : List (RowFrame D)) :
    Query V → Multiset (List D)
  | .select projections sources conditions group having _ =>
    selectRows I (!group.isEmpty || Expr.anyAggregates I projections || Expr.anyAggregates I having)
      group.isEmpty
      (fun row => Expr.evalAll ctes env {row} row group)
      (fun g row => Expr.evalAll ctes env g row having)
      (fun g row => Expr.evalAll ctes env g row projections)
      ((sources.join ctes env).filter fun row =>
        (Expr.evalAll ctes env {row} row conditions).all I.holds)
  | .withTable name columns body rest =>
    rest.eval ((name, ⟨renameColumns lower columns (body.columns lower catalog (cteColumns ctes)),
      body.eval ctes env⟩) :: ctes) env
  | .setOp left right => I.union (left.eval ctes env) (right.eval ctes env)

end

/-- Running a statement; `none` where the database rejects it. -/
def Query.run (q : Query V) : Option (Multiset (List D)) :=
  if q.unambiguous lower catalog [] then some (q.eval lower I catalog state [] []) else none

/-! ## Frames follow the header -/

/-- Every frame of a `FROM` clause has its header. -/
theorem From.header_of_mem (ctes : List (String × Table D)) (env : List (RowFrame D)) :
    ∀ f : From V, ∀ frame ∈ f.join lower I catalog state ctes env,
      RowFrame.header frame = f.header lower catalog (cteColumns ctes)
  | .nothing, frame, h => by
    rw [Multiset.mem_singleton.mp h]
    rfl
  | .table left _ _ _, _, h =>
    header_of_mem_join (From.header_of_mem ctes env left) h
  | .derived left _ _ _ _ _, _, h =>
    header_of_mem_join (From.header_of_mem ctes env left) h

end Semantics
end QueryCraft
