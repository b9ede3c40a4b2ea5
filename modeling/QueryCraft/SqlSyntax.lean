import Mathlib.Data.List.Basic

/-! # The SQL statements

The syntax tree of a `SELECT` statement, as far as the policy code looks at it:
table references with their qualifiers and aliases, joins with their conditions,
derived tables, `WITH`, subqueries inside expressions, columns and stars.
Everything else an expression may contain is a function applied to arguments.

A `FROM` clause is built from the left, one joined source at a time, and the
conjuncts of a `WHERE` are kept as a list, since a row filter is added as one more
conjunct.  A `WITH` defines one table for the query after it; several definitions
are nested, so that a later one sees the earlier ones.  The placeholders that row
filters bring along carry the value bound to them.
-/
namespace QueryCraft

/-- An `exp.Table`; absent parts are empty, as `sqlglot` returns them. -/
structure TableRef where
  catalog : String := ""
  db : String := ""
  name : String
  aliasName : String := ""
deriving DecidableEq, Repr

/-- `alias_or_name`. -/
def TableRef.aliasOrName (t : TableRef) : String := if t.aliasName = "" then t.name else t.aliasName

/-- How a source is joined to those before it. -/
inductive JoinKind where
  | inner | left | right | full
deriving DecidableEq, Repr

/-- How an expression uses a subquery. -/
inductive SubqueryKind where
  | scalar | existential | membership
deriving DecidableEq, Repr

mutual

/-- An expression.  An unqualified column or star has the qualifier `""`. -/
inductive Expr (V : Type) where
  | column (table name : String)
  | star (table : String)
  | literal (text : String)
  | placeholder (value : V)
  | func (name : String) (args : List (Expr V))
  | aliased (e : Expr V) (name : String)
  | subquery (kind : SubqueryKind) (args : List (Expr V)) (q : Query V)

/-- A `FROM` clause: sources joined one after the other, each under its conditions. -/
inductive From (V : Type) where
  | nothing
  | table (left : From V) (kind : JoinKind) (ref : TableRef) (on : List (Expr V))
  | derived (left : From V) (kind : JoinKind) (q : Query V) (aliasName : String)
      (columns : List String) (on : List (Expr V))

/-- A query. -/
inductive Query (V : Type) where
  | select (projections : List (Expr V)) (sources : From V) (conditions : List (Expr V))
      (group having order : List (Expr V))
  | withTable (name : String) (columns : List String) (body rest : Query V)
  | setOp (left right : Query V)

end

variable {V : Type}

/-- The statement is an `exp.Select`. -/
def Query.isSelect : Query V → Bool
  | .select .. => true
  | .withTable _ _ _ rest => rest.isSelect
  | .setOp .. => false

/-- The names the statement's own `WITH` defines, `statement.ctes`. -/
def Query.cteAliases : Query V → List String
  | .withTable name _ _ rest => name :: rest.cteAliases
  | _ => []

/-- A literal's name: its text without quotes. -/
def literalName (text : String) : String :=
  match text.toList with
  | '\'' :: cs => String.ofList cs.dropLast
  | _ => text

/-- A projection's name among `named_selects`; `*` for a star.  A function whose first
argument is a star or a literal has an empty one, and other unnamed expressions have
none. -/
def Expr.outputName? : Expr V → Option String
  | .column _ name => some name
  | .star _ => some "*"
  | .literal text => if literalName text = "" then none else some (literalName text)
  | .aliased _ name => some name
  | .func _ (.star _ :: _) => some ""
  | .func _ (.literal text :: _) => if literalName text = "" then none else some ""
  | _ => none

/-- `named_selects`. -/
def Query.namedSelects : Query V → List String
  | .select projections .. => projections.filterMap Expr.outputName?
  | .withTable _ _ _ rest => rest.namedSelects
  | .setOp left _ => left.namedSelects

/-! ## Sources of a `FROM` clause -/

/-- A reference without a schema that carries the name of a visible `WITH` table
denotes that table; every other reference is physical. -/
def TableRef.isPhysical (ctes : List String) (t : TableRef) : Bool :=
  t.db != "" || !ctes.contains t.name

/-- The table references of a `FROM` clause itself. -/
def From.tableRefs : From V → List TableRef
  | .nothing => []
  | .table left _ ref _ => left.tableRefs ++ [ref]
  | .derived left _ _ _ _ _ => left.tableRefs

/-- Those that denote physical tables. -/
def From.physicalRefs (ctes : List String) (f : From V) : List TableRef :=
  f.tableRefs.filter (·.isPhysical ctes)

/-- The aliases of the derived tables of a `FROM` clause. -/
def From.derivedAliases : From V → List String
  | .nothing => []
  | .table left _ _ _ => left.derivedAliases
  | .derived left _ _ aliasName _ _ => left.derivedAliases ++ [aliasName]

/-- The names of the sources, `references`: table references first. -/
def From.sourceNames (f : From V) : List String :=
  f.tableRefs.map (·.aliasOrName) ++ f.derivedAliases

/-- `selected_sources` raises when a name is used twice. -/
def From.aliasesDistinct (f : From V) : Bool := decide f.sourceNames.Nodup

/-! ## The `SELECT`s of a statement -/

/-- A `SELECT` with the names of the `WITH` tables it sees. -/
structure SelectNode (V : Type) where
  ctes : List String
  projections : List (Expr V)
  sources : From V
  conditions : List (Expr V)
  group : List (Expr V)
  having : List (Expr V)
  order : List (Expr V)

/-- The `SELECT` as a query. -/
def SelectNode.query (s : SelectNode V) : Query V :=
  .select s.projections s.sources s.conditions s.group s.having s.order

mutual

/-- The `SELECT`s in the subqueries of an expression. -/
def Expr.selects (ctes : List String) : Expr V → List (SelectNode V)
  | .func _ args => Expr.selectsAll ctes args
  | .aliased e _ => e.selects ctes
  | .subquery _ args q => Expr.selectsAll ctes args ++ q.selects ctes
  | _ => []

def Expr.selectsAll (ctes : List String) : List (Expr V) → List (SelectNode V)
  | [] => []
  | e :: es => e.selects ctes ++ Expr.selectsAll ctes es

/-- The `SELECT`s in the derived tables of a `FROM` clause. -/
def From.derivedSelects (ctes : List String) : From V → List (SelectNode V)
  | .nothing => []
  | .table left _ _ _ => left.derivedSelects ctes
  | .derived left _ q _ _ _ => left.derivedSelects ctes ++ q.selects ctes

/-- The `SELECT`s in the subqueries of its conditions. -/
def From.onSelects (ctes : List String) : From V → List (SelectNode V)
  | .nothing => []
  | .table left _ _ on => left.onSelects ctes ++ Expr.selectsAll ctes on
  | .derived left _ _ _ _ on => left.onSelects ctes ++ Expr.selectsAll ctes on

/-- All `SELECT`s of a query, in the order of `traverse_scope`. -/
def Query.selects (ctes : List String) : Query V → List (SelectNode V)
  | .select projections sources conditions group having order =>
    sources.derivedSelects ctes ++ Expr.selectsAll ctes projections ++ sources.onSelects ctes ++
      Expr.selectsAll ctes conditions ++
      (Expr.selectsAll ctes group ++ Expr.selectsAll ctes having ++ Expr.selectsAll ctes order) ++
      [⟨ctes, projections, sources, conditions, group, having, order⟩]
  | .withTable name _ body rest => body.selects ctes ++ rest.selects (name :: ctes)
  | .setOp left right => left.selects ctes ++ right.selects ctes

end

end QueryCraft
