import QueryCraft.Lookup
import QueryCraft.SchemaContext

/-! # Role authorization

`RoleAuthorizationRule` accepts a statement if every table it reads and every column
and star in it is granted by the role's policy.  Tables are resolved one by one, but
columns and stars through tables built for the whole statement: `alias_map` from the
names and aliases of all physical references, and the owners of a column among all
tables it maps to.

Columns that belong to a derived table or a `WITH` table are set aside first, scope
by scope.  A scope is the list of the sources of one `SELECT`.  What `traverse_scope`
and the walks over the statement yield is collected in one pass (`Query.mentions`):
each scope, and each column and star with the scopes around it.

A source that is no physical table carries, beside what the rule looks at, the
names of its output columns in the database (`LogicalTable.outputs`).
-/
namespace QueryCraft

/-! ## The policy -/

/-- An entry of `allowed_tables`. -/
structure AllowedTable where
  table : String
  columns : List String
deriving DecidableEq, Repr

section Policy
variable (lower : String → String)

/-- `_build_policy_index`: lower-cased tables with their lower-cased columns. -/
def buildPolicyIndex (allowedTables : List AllowedTable) : List (String × List String) :=
  (allowedTables.filter (·.table != "")).map fun e =>
    (lower e.table, (e.columns.filter (· != "")).map lower)

/-- `_resolve_table_name`. -/
def resolveTableName (policy : List (String × List String)) (table : TableRef) : Option String :=
  if (dictGet policy (lower table.name)).isSome then some table.name
  else if table.db = "" then none
  else if (dictGet policy (lower table.db ++ "." ++ lower table.name)).isSome then
    some (lower table.db ++ "." ++ lower table.name)
  else if lower table.db = "public" ∧ (dictGet policy (lower table.name)).isSome then
    some table.name
  else none

end Policy

/-! ## Scopes -/

/-- A derived table or a table of a `WITH`. -/
structure LogicalTable where
  /-- `named_selects` of its query. -/
  projected : List String
  /-- The column names of its alias. -/
  outerColumns : List String
  /-- Its output columns, lower-cased. -/
  outputs : List String
deriving DecidableEq, Repr

/-- A source, as `selected_sources` gives it. -/
inductive Source where
  | physical (ref : TableRef)
  | logical (table : LogicalTable)
deriving DecidableEq, Repr

def Source.isLogical : Source → Bool
  | .physical _ => false
  | .logical _ => true

/-- A source with its name; `isReference` unless it is a derived table. -/
structure ScopeSource where
  name : String
  isReference : Bool
  source : Source
deriving DecidableEq, Repr

/-- The sources of a `SELECT`, in the order of its `FROM`. -/
abbrev Scope := List ScopeSource

section Scopes
variable (lower : String → String) (schema : List SchemaTable)

/-- The columns of a source in the database. -/
def Source.columns : Source → List String
  | .physical ref => physicalColumns lower schema ref
  | .logical table => table.outputs

/-- The source of a table reference. -/
def TableRef.source (ctes : List (String × LogicalTable)) (ref : TableRef) : Source :=
  if ref.db = "" then
    match ctes.lookup ref.name with
    | some table => .logical table
    | none => .physical ref
  else .physical ref

/-- The output columns of a projection, one for each position; `none` where the
database makes up a name. -/
def Expr.outputs (scope : Scope) : Expr Empty → List (Option String)
  | .column _ name => [some (lower name)]
  | .aliased _ name => [some (lower name)]
  | .star table =>
    (scope.filter fun s => table == "" || lower s.name == lower table).flatMap fun s =>
      (s.source.columns lower schema).map some
  | _ => [none]

/-- A query under an alias: the alias's columns rename the first positions. -/
def logicalTable (projected outerColumns : List String) (outputs : List (Option String)) :
    LogicalTable where
  projected := projected
  outerColumns := outerColumns
  outputs := outerColumns.map lower ++ (outputs.drop outerColumns.length).filterMap id

mutual

/-- The scope of a `FROM` clause. -/
def From.scope (ctes : List (String × LogicalTable)) : From Empty → Scope
  | .nothing => []
  | .table left _ ref _ => left.scope ctes ++ [⟨ref.aliasOrName, true, ref.source ctes⟩]
  | .derived left _ q aliasName columns _ =>
    left.scope ctes ++
      [⟨aliasName, false, .logical (logicalTable lower q.namedSelects columns (q.outputs ctes))⟩]

/-- The output columns of a query. -/
def Query.outputs (ctes : List (String × LogicalTable)) : Query Empty → List (Option String)
  | .select projections sources _ _ _ _ =>
    projections.flatMap (Expr.outputs lower schema (sources.scope ctes))
  | .withTable name columns body rest =>
    rest.outputs ((name, logicalTable lower body.namedSelects columns (body.outputs ctes)) :: ctes)
  | .setOp left _ => left.outputs ctes

end

/-! ## Walking over the statement -/

/-- What the walks over a statement yield. -/
inductive Mention where
  | scope (own : Scope)
  | column (own : Scope) (outer : List Scope) (table name : String)
  | star (own : Scope) (outer : List Scope) (table : String)

/-- `_is_aggregate_star` stops at `Count`. -/
def isCount (name : String) : Bool := lower name == "count"

mutual

/-- The mentions in an expression; `counted` inside `COUNT`. -/
def Expr.mentions (ctes : List (String × LogicalTable)) (scope : Scope) (outer : List Scope)
    (counted : Bool) : Expr Empty → List Mention
  | .column table name => [.column scope outer table name]
  | .star table => if counted then [] else [.star scope outer table]
  | .func name args => Expr.mentionsAll ctes scope outer (counted || isCount lower name) args
  | .aliased e _ => e.mentions ctes scope outer counted
  | .subquery _ args q =>
    Expr.mentionsAll ctes scope outer counted args ++ q.mentions ctes (scope :: outer) counted
  | _ => []

def Expr.mentionsAll (ctes : List (String × LogicalTable)) (scope : Scope) (outer : List Scope)
    (counted : Bool) : List (Expr Empty) → List Mention
  | [] => []
  | e :: es => e.mentions ctes scope outer counted ++ Expr.mentionsAll ctes scope outer counted es

/-- The mentions in derived tables, which do not see the sources beside them. -/
def From.derivedMentions (ctes : List (String × LogicalTable)) (outer : List Scope)
    (counted : Bool) : From Empty → List Mention
  | .nothing => []
  | .table left _ _ _ => left.derivedMentions ctes outer counted
  | .derived left _ q _ _ _ =>
    left.derivedMentions ctes outer counted ++ q.mentions ctes outer counted

/-- The mentions in join conditions. -/
def From.onMentions (ctes : List (String × LogicalTable)) (scope : Scope) (outer : List Scope)
    (counted : Bool) : From Empty → List Mention
  | .nothing => []
  | .table left _ _ on =>
    left.onMentions ctes scope outer counted ++ Expr.mentionsAll ctes scope outer counted on
  | .derived left _ _ _ _ on =>
    left.onMentions ctes scope outer counted ++ Expr.mentionsAll ctes scope outer counted on

/-- The mentions in a query. -/
def Query.mentions (ctes : List (String × LogicalTable)) (outer : List Scope) (counted : Bool) :
    Query Empty → List Mention
  | .select projections sources conditions group having order =>
    .scope (sources.scope lower schema ctes) ::
      (sources.derivedMentions ctes outer counted ++
        Expr.mentionsAll ctes (sources.scope lower schema ctes) outer counted projections ++
        sources.onMentions ctes (sources.scope lower schema ctes) outer counted ++
        Expr.mentionsAll ctes (sources.scope lower schema ctes) outer counted conditions ++
        Expr.mentionsAll ctes (sources.scope lower schema ctes) outer counted group ++
        Expr.mentionsAll ctes (sources.scope lower schema ctes) outer counted having ++
        Expr.mentionsAll ctes (sources.scope lower schema ctes) outer counted order)
  | .withTable name columns body rest =>
    body.mentions ctes outer counted ++
      rest.mentions ((name, logicalTable lower body.namedSelects columns
        (body.outputs lower schema ctes)) :: ctes) outer counted
  | .setOp left right => left.mentions ctes outer counted ++ right.mentions ctes outer counted

end

/-- The physical references of a scope. -/
def Scope.physicalRefs (scope : Scope) : List TableRef :=
  scope.filterMap fun s => match s.source with
    | .physical ref => some ref
    | .logical _ => none

/-- The physical references of a statement. -/
def Query.physicalTables (stmt : Query Empty) : List TableRef :=
  (stmt.mentions lower schema [] [] false).flatMap fun
    | .scope scope => Scope.physicalRefs scope
    | _ => []

end Scopes

/-- The order in which `find_all(exp.Table)` walks over the physical references. -/
structure TableWalk (lower : String → String) (schema : List SchemaTable) where
  tables : Query Empty → List TableRef
  perm : ∀ stmt, (tables stmt).Perm (stmt.physicalTables lower schema)

/-! ## Setting logical columns aside -/

section Logical
variable (lower : String → String) (policy : List (String × List String))

/-- `_scope_output_columns`. -/
def scopeOutputColumns (table : LogicalTable) : Option (List String) :=
  if table.outerColumns ≠ [] then
    if "*" ∈ table.projected ∨ table.outerColumns.length ≠ table.projected.length then none
    else some (table.outerColumns.map lower)
  else some ((table.projected.filter (· != "*")).map lower)

/-- The sources of a scope by lower-cased name; references come before derived tables. -/
def Scope.sources (scope : Scope) : List (String × Source) :=
  (scope.filter (·.isReference) ++ scope.filter (!·.isReference)).map fun s =>
    (lower s.name, s.source)

/-- `_source_has_column`. -/
def sourceHasColumn (columnName : String) : Source → Bool
  | .logical table => match scopeOutputColumns lower table with
    | some columns => columns.contains (lower columnName)
    | none => false
  | .physical ref => match resolveTableName lower policy ref with
    | some actual => ((dictGet policy (lower actual)).getD []).contains (lower columnName)
    | none => false

/-- `_logical_column_ids`, on one column: whether it is set aside; `none` blocks the
statement. -/
def isLogicalColumn (scope : Scope) (table name : String) : Option Bool :=
  if table ≠ "" then
    match dictGet (scope.sources lower) (lower table) with
    | some (.logical t) => match scopeOutputColumns lower t with
      | some columns => if columns.contains (lower name) then some true else none
      | none => none
    | _ => some false
  else
    let matching := (dictValues (scope.sources lower)).filter (sourceHasColumn lower policy name)
    if matching.any Source.isLogical then if matching.length = 1 then some true else none
    else some false

/-- `_logical_reference_ids`, on one scope: the names are distinct and every logical
source has known columns. -/
def Scope.isValid (scope : Scope) : Bool :=
  decide (scope.map (·.name)).Nodup && scope.all fun s => match s.source with
    | .logical table => (scopeOutputColumns lower table).isSome
    | .physical _ => true

end Logical

/-! ## The rule -/

section Rule
variable (lower : String → String) (policy : List (String × List String))

/-- `alias_map`, from the physical references in the order of the walk. -/
def aliasMap (tables : List TableRef) : List (String × String) :=
  tables.flatMap fun t => match resolveTableName lower policy t with
    | none => []
    | some actual => (t.name, actual) ::
        ((if t.aliasName = "" then [] else [(t.aliasName, actual)]) ++
          (if t.db = "" then [] else [(t.db ++ "." ++ t.name, actual)]))

/-- The table a qualifier stands for. -/
def qualifiedTable (aliases : List (String × String)) (qualifier : String) : String :=
  (dictGet aliases qualifier).getD qualifier

/-- The owners of a column among the referenced tables, `column_owners`. -/
def columnOwners (aliases : List (String × String)) (columnName : String) : List String :=
  (dictValues aliases).dedup.filter fun t =>
    ((dictGet policy (lower t)).getD []).contains (lower columnName)

/-- A column that is not set aside is granted. -/
def columnGranted (aliases : List (String × String)) (table name : String) : Bool :=
  if table ≠ "" then
    match dictGet policy (lower (qualifiedTable aliases table)) with
    | some columns => columns.contains (lower name)
    | none => false
  else (columnOwners lower policy aliases name).length == 1

/-- `physical_columns_by_table`. -/
def physicalColumnsByTable (schema : List SchemaTable) : List (String × List String) :=
  schema.map fun t => (lower t.name, t.columns.map lower)

/-- Every physical column of a table is granted. -/
def allColumnsGranted (schema : List SchemaTable) (actual : String) : Bool :=
  let physical := (dictGet (physicalColumnsByTable lower schema) (lower actual)).getD []
  physical ≠ [] && physical.all ((dictGet policy (lower actual)).getD []).contains

/-- `_validate_star`. -/
def validateStar (schema : List SchemaTable) (cteAliases : List String)
    (aliases : List (String × String)) (qualifier : String) : Bool :=
  if qualifier ≠ "" then
    !cteAliases.contains qualifier &&
      (dictGet policy (lower (qualifiedTable aliases qualifier))).isSome &&
      allColumnsGranted lower policy schema (qualifiedTable aliases qualifier)
  else
    dictValues aliases ≠ [] && (dictValues aliases).all (allColumnsGranted lower policy schema)

/-- One step of the walks over the statement. -/
def Mention.isAllowed (schema : List SchemaTable) (cteAliases : List String)
    (aliases : List (String × String)) : Mention → Bool
  | .scope own => own.isValid lower
  | .column own _ table name => match isLogicalColumn lower policy own table name with
    | none => false
    | some true => true
    | some false => columnGranted lower policy aliases table name
  | .star _ _ table => validateStar lower policy schema cteAliases aliases table

end Rule

/-- `RoleAuthorizationRule.evaluate`, on a parsed statement and a known schema. -/
def evaluate (lower : String → String) (schema : List SchemaTable) (walk : TableWalk lower schema)
    (allowedTables : List AllowedTable) (stmt : Query Empty) : Bool :=
  let policy := buildPolicyIndex lower allowedTables
  let aliases := aliasMap lower policy (walk.tables stmt)
  policy ≠ [] && stmt.isSelect &&
    (walk.tables stmt).all (fun t => (resolveTableName lower policy t).isSome) &&
    (stmt.mentions lower schema [] [] false).all
      (Mention.isAllowed lower policy schema stmt.cteAliases aliases)

end QueryCraft
