import QueryCraft.Placeholders
import QueryCraft.SchemaContext

/-! # Row filters

`PolicyEnforcementService.apply_row_filters` adds the row filters of a role to a
generated statement.  Every `SELECT` that reads a filtered physical table in its
own `FROM` clause gets the filter as one more conjunct of its `WHERE`, with its
columns qualified where the source has an alias or is not the only physical one.
Filters are prepared once: their placeholders are bound to user values, and an
added placeholder carries its value here.

The generated statement has no such placeholders yet, so it is a
`Query Empty`; the result is a `Query V`, for values of type `V`.

`sqlglot.traverse_scope` visits, for each `SELECT`, the definitions of its `WITH`,
its derived tables, the subqueries in its expressions, and then the `SELECT` itself;
the values are collected in that order (`filterParams`).
-/
namespace QueryCraft

variable {V : Type}

/-! ## Table names -/

/-- The dotted parts of a configured table name, lower-cased, last part first. -/
def policyParts (lower : String → String) (policyTableName : String) : List String :=
  dottedParts (lower policyTableName)

/-- `_table_matches_policy`. -/
def tableMatchesPolicy (lower : String → String) (table : TableRef) (policyTableName : String) :
    Bool :=
  match policyParts lower policyTableName with
  | [] => false
  | [name] => lower table.name == name
  | [name, db] => lower table.name == name && lower table.db == db
  | name :: db :: catalog :: _ =>
    lower table.name == name && lower table.db == db && lower table.catalog == catalog

/-- `_find_policy_table`. -/
def findPolicyTable (lower : String → String) (schema : List SchemaTable)
    (policyTableName : String) : Option SchemaTable :=
  match schema.find? fun t => lower t.name == lower policyTableName with
  | some table => some table
  | none =>
    match policyParts lower policyTableName with
    | name :: targetSchema :: _ =>
      schema.find? fun t => lower t.name == name && lower t.schemaName == targetSchema
    | _ => findTable lower schema policyTableName

theorem findPolicyTable_mem {lower : String → String} {schema : List SchemaTable} {name : String}
    {t : SchemaTable}
    (h : findPolicyTable lower schema name = some t) : t ∈ schema := by
  unfold findPolicyTable at h
  split at h
  · rename_i hfind
    obtain rfl := Option.some.inj h
    exact List.mem_of_find?_eq_some hfind
  · split at h
    · exact List.mem_of_find?_eq_some h
    · exact List.mem_of_find?_eq_some h

/-! ## Rendering -/

/-- A piece of the rendered statement. -/
inductive Token (V : Type) where
  | word (text : String)
  | placeholder (value : V)

/-- The values of the placeholders, left to right. -/
def tokenValues (tokens : List (Token V)) : List V :=
  tokens.filterMap fun
    | .word _ => none
    | .placeholder v => some v

/-- `JOIN`, with its kind. -/
def JoinKind.text : JoinKind → String
  | .inner => "JOIN"
  | .left => "LEFT JOIN"
  | .right => "RIGHT JOIN"
  | .full => "FULL JOIN"

/-- The keyword in front of a subquery. -/
def SubqueryKind.text : SubqueryKind → String
  | .scalar => ""
  | .existential => "EXISTS"
  | .membership => "IN"

/-- A table reference. -/
def TableRef.text (t : TableRef) : String :=
  (if t.catalog = "" then "" else t.catalog ++ ".") ++ (if t.db = "" then "" else t.db ++ ".") ++
    t.name ++ (if t.aliasName = "" then "" else " AS " ++ t.aliasName)

mutual

/-- The parts of an expression in the order of the generator.  An operator stands before its
operands; only the order of the parts matters here. -/
def Expr.render : Expr V → List (Token V)
  | .column table name => [.word (if table = "" then name else table ++ "." ++ name)]
  | .star table => [.word (if table = "" then "*" else table ++ ".*")]
  | .literal text => [.word text]
  | .placeholder v => [.placeholder v]
  | .func name args => .word (name ++ "(") :: Expr.renderAll args ++ [.word ")"]
  | .aliased e name => e.render ++ [.word ("AS " ++ name)]
  | .subquery kind args q =>
    Expr.renderAll args ++ .word (kind.text ++ " (") :: q.render ++ [.word ")"]

def Expr.renderAll : List (Expr V) → List (Token V)
  | [] => []
  | e :: es => e.render ++ .word "," :: Expr.renderAll es

/-- The parts of a `FROM` clause. -/
def From.render : From V → List (Token V)
  | .nothing => []
  | .table left kind ref on =>
    left.render ++ .word kind.text :: .word ref.text :: .word "ON" :: Expr.renderAll on
  | .derived left kind q aliasName columns on =>
    left.render ++ .word kind.text :: .word "(" :: q.render ++
      .word (") AS " ++ aliasName ++ "(" ++ ",".intercalate columns ++ ")") ::
        .word "ON" :: Expr.renderAll on

/-- The parts of a query: `WITH`, projection, `FROM`, `WHERE`, `GROUP BY`, `HAVING`,
`ORDER BY`. -/
def Query.render : Query V → List (Token V)
  | .select projections sources conditions group having order =>
    .word "SELECT" :: Expr.renderAll projections ++ .word "FROM" :: sources.render ++
      .word "WHERE" :: Expr.renderAll conditions ++ .word "GROUP BY" :: Expr.renderAll group ++
      .word "HAVING" :: Expr.renderAll having ++ .word "ORDER BY" :: Expr.renderAll order
  | .withTable name columns body rest =>
    .word ("WITH " ++ name ++ "(" ++ ",".intercalate columns ++ ") AS (") :: body.render ++
      .word ")" :: rest.render
  | .setOp left right => left.render ++ .word "UNION" :: right.render

end

/-- The characters of a printed statement, with its placeholders; their keys do not matter
here. -/
def tokenPieces (tokens : List (Token V)) : List FilterPiece :=
  tokens.flatMap fun
    | .word text => text.toList.map .char
    | .placeholder _ => [.placeholder ""]

/-! ## Qualification -/

mutual

/-- `_qualify_filter_columns`, on expressions. -/
def Expr.qualify (qualifier : String) : Expr V → Expr V
  | .column _ name => .column qualifier name
  | .star table => .star (if table = "" then "" else qualifier)
  | .literal text => .literal text
  | .placeholder v => .placeholder v
  | .func name args => .func name (Expr.qualifyAll qualifier args)
  | .aliased e name => .aliased (e.qualify qualifier) name
  | .subquery kind args q =>
    .subquery kind (Expr.qualifyAll qualifier args) (q.qualify qualifier)

def Expr.qualifyAll (qualifier : String) : List (Expr V) → List (Expr V)
  | [] => []
  | e :: es => e.qualify qualifier :: Expr.qualifyAll qualifier es

def From.qualify (qualifier : String) : From V → From V
  | .nothing => .nothing
  | .table left kind ref on =>
    .table (left.qualify qualifier) kind ref (Expr.qualifyAll qualifier on)
  | .derived left kind q aliasName columns on =>
    .derived (left.qualify qualifier) kind (q.qualify qualifier) aliasName columns
      (Expr.qualifyAll qualifier on)

def Query.qualify (qualifier : String) : Query V → Query V
  | .select projections sources conditions group having order =>
    .select (Expr.qualifyAll qualifier projections) (sources.qualify qualifier)
      (Expr.qualifyAll qualifier conditions) (Expr.qualifyAll qualifier group)
      (Expr.qualifyAll qualifier having) (Expr.qualifyAll qualifier order)
  | .withTable name columns body rest =>
    .withTable name columns (body.qualify qualifier) (rest.qualify qualifier)
  | .setOp left right => .setOp (left.qualify qualifier) (right.qualify qualifier)

end

mutual

/-- The names of all columns, `find_all(exp.Column)`. -/
def Expr.columnNames : Expr V → List String
  | .column _ name => [name]
  | .func _ args => Expr.columnNamesAll args
  | .aliased e _ => e.columnNames
  | .subquery _ args q => Expr.columnNamesAll args ++ q.columnNames
  | _ => []

def Expr.columnNamesAll : List (Expr V) → List String
  | [] => []
  | e :: es => e.columnNames ++ Expr.columnNamesAll es

def From.columnNames : From V → List String
  | .nothing => []
  | .table left _ _ on => left.columnNames ++ Expr.columnNamesAll on
  | .derived left _ q _ _ on => left.columnNames ++ q.columnNames ++ Expr.columnNamesAll on

def Query.columnNames : Query V → List String
  | .select projections sources conditions group having order =>
    Expr.columnNamesAll projections ++ sources.columnNames ++ Expr.columnNamesAll conditions ++
      Expr.columnNamesAll group ++ Expr.columnNamesAll having ++ Expr.columnNamesAll order
  | .withTable _ _ body rest => body.columnNames ++ rest.columnNames
  | .setOp left right => left.columnNames ++ right.columnNames

end

/-! ## `validate_row_filter` -/

/-- `_NON_FUNCTION_OPS`. -/
def nonFunctionOps : List String :=
  ["And", "Or", "Not", "Xor", "Paren", "EQ", "NEQ", "GT", "GTE", "LT", "LTE", "Is", "In",
    "Between", "Like", "ILike", "SimilarTo", "RegexpLike", "Add", "Sub", "Mul", "Div", "Mod",
    "Concat", "DPipe", "Pipe", "IsNull", "NotNull", "Boolean", "Neg", "Distinct"]

/-- `_PH_SENTINEL_PREFIX`. -/
def sentinelStart : List Char := "__ph_user_".toList

/-- A column name that starts like a sentinel. -/
def looksLikeSentinel (name : String) : Bool := sentinelStart.isPrefixOf name.toList

section Validation
variable (lower : String → String) (isFunc : String → Bool)

mutual

/-- The checks on a parsed condition: no subquery, no function calls, and columns of the target
table, qualified by its name or not at all.  Of the classes of operators, `isFunc` says which are
subclasses of `exp.Func`. -/
def Expr.isRowPredicate (target : String) (validColumns : List String) : Expr V → Bool
  | .column table name =>
    looksLikeSentinel name ||
      ((table == "" || lower table == target) && validColumns.contains (lower name))
  | .star table => table == "" || ((lower table == target) && validColumns.contains (lower "*"))
  | .literal _ => true
  | .placeholder _ => true
  | .func name args =>
    (!isFunc name || nonFunctionOps.contains name) && Expr.areRowPredicates target validColumns args
  | .aliased e _ => e.isRowPredicate target validColumns
  | .subquery _ _ _ => false

def Expr.areRowPredicates (target : String) (validColumns : List String) : List (Expr V) → Bool
  | [] => true
  | e :: es => e.isRowPredicate target validColumns && Expr.areRowPredicates target validColumns es

end

/-- The name a column may be qualified with. -/
def targetName (target : SchemaTable) : String := lower ((dottedParts target.name).headD "")

mutual

/-- A qualified condition is one about the source it was qualified for. -/
theorem Expr.isRowPredicate_qualify {target : String} {columns : List String} (q : String) :
    ∀ e : Expr V, e.isRowPredicate lower isFunc target columns = true →
      (e.qualify q).isRowPredicate lower isFunc (lower q) columns = true
  | .column table name, h => by
    simp only [Expr.isRowPredicate, Bool.or_eq_true, Bool.and_eq_true] at h
    simp only [Expr.qualify, Expr.isRowPredicate, Bool.or_eq_true, Bool.and_eq_true,
      beq_self_eq_true, or_true, true_and]
    exact h.imp_right And.right
  | .star table, h => by
    simp only [Expr.isRowPredicate, Bool.or_eq_true, Bool.and_eq_true, beq_iff_eq] at h
    rw [Expr.qualify]
    split
    · rfl
    · rename_i htable
      simp [Expr.isRowPredicate, List.contains_iff_mem.mp (h.resolve_left htable).2]
  | .literal _, h => h
  | .placeholder _, h => h
  | .func name args, h => by
    simp only [Expr.isRowPredicate, Bool.and_eq_true] at h
    simp only [Expr.qualify, Expr.isRowPredicate, Bool.and_eq_true]
    exact ⟨h.1, Expr.areRowPredicates_qualify q args h.2⟩
  | .aliased e _, h => Expr.isRowPredicate_qualify q e h
  | .subquery _ _ _, h => h

theorem Expr.areRowPredicates_qualify {target : String} {columns : List String} (q : String) :
    ∀ es : List (Expr V), Expr.areRowPredicates lower isFunc target columns es = true →
      Expr.areRowPredicates lower isFunc (lower q) columns (Expr.qualifyAll q es) = true
  | [], _ => rfl
  | e :: es, h => by
    simp only [Expr.areRowPredicates, Bool.and_eq_true] at h
    simp only [Expr.qualifyAll, Expr.areRowPredicates, Bool.and_eq_true]
    exact ⟨Expr.isRowPredicate_qualify q e h.1, Expr.areRowPredicates_qualify q es h.2⟩

end

/-- `validate_row_filter`, on a parsed condition. -/
def validateRowFilter (schema : List SchemaTable) (tableName : String) (expression : Expr V) :
    Bool :=
  match findPolicyTable lower schema tableName with
  | none => false
  | some table => expression.isRowPredicate lower isFunc (targetName lower table)
      (table.columns.map lower)

end Validation

/-! ## Injection -/

/-- `_PreparedRowFilter`: a filter condition with one placeholder for each bound
value, in order. -/
structure PreparedRowFilter (V : Type) where
  tableName : String
  expression : Expr V
  params : List V
  bound : tokenValues expression.render = params

section Injection
variable (lower : String → String) (filters : List (PreparedRowFilter V))

/-- The filters a `FROM` clause calls for, each with the reference it is for. -/
def From.filterMatches (ctes : List String) (f : From Empty) :
    List (PreparedRowFilter V × TableRef) :=
  filters.flatMap fun p =>
    ((f.physicalRefs ctes).filter (tableMatchesPolicy lower · p.tableName)).map (p, ·)

theorem mem_filterMatches {ctes : List String} {f : From Empty}
    {m : PreparedRowFilter V × TableRef} :
    m ∈ f.filterMatches lower filters ctes ↔ m.1 ∈ filters ∧ m.2 ∈ f.physicalRefs ctes ∧
      tableMatchesPolicy lower m.2 m.1.tableName = true := by
  obtain ⟨p, r⟩ := m
  simp only [From.filterMatches, List.mem_flatMap, List.mem_map, List.mem_filter, Prod.mk.injEq]
  constructor
  · rintro ⟨p', hp, r', ⟨hr, hm⟩, rfl, rfl⟩
    exact ⟨hp, hr, hm⟩
  · rintro ⟨hp, hr, hm⟩
    exact ⟨p, hp, r, ⟨hr, hm⟩, rfl, rfl⟩

/-- A filter as it is added for a reference of the clause. -/
def From.scopedFilter (ctes : List String) (f : From Empty) (p : PreparedRowFilter V)
    (ref : TableRef) : Expr V :=
  if ref.aliasName ≠ "" ∨ 1 < (f.physicalRefs ctes).length then
    p.expression.qualify ref.aliasOrName
  else p.expression

/-- An accepted filter is a condition on one source when it is added. -/
theorem scopedFilter_isRowPredicate {schema : List SchemaTable} {p : PreparedRowFilter V}
    {isFunc : String → Bool}
    (h : validateRowFilter lower isFunc schema p.tableName p.expression = true)
    (ctes : List String) (f : From Empty) (ref : TableRef) :
    ∃ target columns,
      (f.scopedFilter ctes p ref).isRowPredicate lower isFunc target columns = true := by
  unfold validateRowFilter at h
  split at h
  · cases h
  · unfold From.scopedFilter
    split
    · exact ⟨_, _, Expr.isRowPredicate_qualify _ _ _ _ h⟩
    · exact ⟨_, _, h⟩

/-- The conjuncts added to a `SELECT` with the clause. -/
def From.addedConditions (ctes : List String) (f : From Empty) : List (Expr V) :=
  (f.filterMatches lower filters ctes).map fun m => f.scopedFilter ctes m.1 m.2

/-- The values bound by them. -/
def From.addedParams (ctes : List String) (f : From Empty) : List V :=
  (f.filterMatches lower filters ctes).flatMap (·.1.params)

mutual

/-- The statement with the filters added, on expressions. -/
def Expr.withFilters (ctes : List String) : Expr Empty → Expr V
  | .column table name => .column table name
  | .star table => .star table
  | .literal text => .literal text
  | .placeholder v => nomatch v
  | .func name args => .func name (Expr.withFiltersAll ctes args)
  | .aliased e name => .aliased (e.withFilters ctes) name
  | .subquery kind args q =>
    .subquery kind (Expr.withFiltersAll ctes args) (q.withFilters ctes)

def Expr.withFiltersAll (ctes : List String) : List (Expr Empty) → List (Expr V)
  | [] => []
  | e :: es => e.withFilters ctes :: Expr.withFiltersAll ctes es

def From.withFilters (ctes : List String) : From Empty → From V
  | .nothing => .nothing
  | .table left kind ref on =>
    .table (left.withFilters ctes) kind ref (Expr.withFiltersAll ctes on)
  | .derived left kind q aliasName columns on =>
    .derived (left.withFilters ctes) kind (q.withFilters ctes) aliasName columns
      (Expr.withFiltersAll ctes on)

def Query.withFilters (ctes : List String) : Query Empty → Query V
  | .select projections sources conditions group having order =>
    .select (Expr.withFiltersAll ctes projections) (sources.withFilters ctes)
      (Expr.withFiltersAll ctes conditions ++ sources.addedConditions lower filters ctes)
      (Expr.withFiltersAll ctes group) (Expr.withFiltersAll ctes having)
      (Expr.withFiltersAll ctes order)
  | .withTable name columns body rest =>
    .withTable name columns (body.withFilters ctes) (rest.withFilters (name :: ctes))
  | .setOp left right => .setOp (left.withFilters ctes) (right.withFilters ctes)

end

mutual

/-- The values in the order of `traverse_scope`: those of the subqueries of an
expression. -/
def Expr.filterParams (ctes : List String) : Expr Empty → List V
  | .func _ args => Expr.filterParamsAll ctes args
  | .aliased e _ => e.filterParams ctes
  | .subquery _ args q => Expr.filterParamsAll ctes args ++ q.filterParams ctes
  | _ => []

def Expr.filterParamsAll (ctes : List String) : List (Expr Empty) → List V
  | [] => []
  | e :: es => e.filterParams ctes ++ Expr.filterParamsAll ctes es

/-- The values of the derived tables of a `FROM` clause. -/
def From.derivedParams (ctes : List String) : From Empty → List V
  | .nothing => []
  | .table left _ _ _ => left.derivedParams ctes
  | .derived left _ q _ _ _ => left.derivedParams ctes ++ q.filterParams ctes

/-- The values of the subqueries in its conditions. -/
def From.onParams (ctes : List String) : From Empty → List V
  | .nothing => []
  | .table left _ _ on => left.onParams ctes ++ Expr.filterParamsAll ctes on
  | .derived left _ _ _ _ on => left.onParams ctes ++ Expr.filterParamsAll ctes on

/-- The values of a query: its `WITH` tables, derived tables and subqueries, and then
its own. -/
def Query.filterParams (ctes : List String) : Query Empty → List V
  | .select projections sources conditions group having order =>
    sources.derivedParams ctes ++ Expr.filterParamsAll ctes projections ++
      sources.onParams ctes ++ Expr.filterParamsAll ctes conditions ++
      (Expr.filterParamsAll ctes group ++ Expr.filterParamsAll ctes having ++
        Expr.filterParamsAll ctes order) ++
      sources.addedParams lower filters ctes
  | .withTable name _ body rest => body.filterParams ctes ++ rest.filterParams (name :: ctes)
  | .setOp left right => left.filterParams ctes ++ right.filterParams ctes

end

/-! ## `apply_row_filters` -/

/-- The errors of `apply_row_filters`. -/
inductive RowFilterError where
  | filterInjectionFailed
  | policySchemaConflict
deriving DecidableEq, Repr

/-- `BoundSql`: the text of the statement in the driver's style, and the values. -/
structure BoundSql (V : Type) where
  sql : List Char
  params : List V

/-- `_check_schema_drift`: the filter's table and columns exist. -/
def driftFree (schema : List SchemaTable) (p : PreparedRowFilter V) : Bool :=
  match findPolicyTable lower schema p.tableName with
  | none => false
  | some table =>
    p.expression.columnNames.all fun name => (table.columns.map lower).contains (lower name)

/-- `_SQLGLOT_DIALECT` knows the dialect. -/
def knownDialect (dialect : String) : Bool :=
  ["postgres", "postgresql", "mysql", "mssql", "tsql"].contains dialect

/-- `apply_row_filters`, on a parsed statement.  `generate` prints the statement, with a `?`
for each placeholder. -/
def applyRowFilters (generate : Query V → List (Token V)) (schema : List SchemaTable)
    (dialect : String) (startIndex : Nat) (stmt : Query Empty) :
    Except RowFilterError (BoundSql V) :=
  if !knownDialect (lower dialect) || !stmt.isSelect then .error .filterInjectionFailed
  else if !filters.all (driftFree lower schema) then .error .policySchemaConflict
  else if !(stmt.selects []).all (·.sources.aliasesDistinct) then .error .filterInjectionFailed
  else .ok
    { sql := renderPlaceholders (markedText (tokenPieces (generate (stmt.withFilters lower filters
        [])))) (lower dialect) startIndex
      params := stmt.filterParams lower filters [] }

theorem applyRowFilters_ok {generate : Query V → List (Token V)} {schema : List SchemaTable}
    {dialect : String} {startIndex : Nat} {stmt : Query Empty} {b : BoundSql V}
    (h : applyRowFilters lower filters generate schema dialect startIndex stmt = .ok b) :
    knownDialect (lower dialect) = true ∧
      b.sql = renderPlaceholders (markedText (tokenPieces (generate (stmt.withFilters lower filters
        [])))) (lower dialect) startIndex ∧
      b.params = stmt.filterParams lower filters [] := by
  unfold applyRowFilters at h
  split_ifs at h with hknown
  cases h
  rw [Bool.or_eq_true, not_or] at hknown
  exact ⟨by simpa using hknown.1, rfl, rfl⟩

end Injection

/-- Some subclasses of `exp.Func`. -/
def isSomeFunc (name : String) : Bool :=
  ["And", "Or", "Xor", "Concat", "RegexpLike", "Cast", "Coalesce", "Count", "CurrentUser", "Lower",
    "Sum", "Anonymous"].contains name

/-- `owner = ?`, for one table and value. -/
def ownerFilter (tableName value : String) : PreparedRowFilter String where
  tableName := tableName
  expression := .func "EQ" [.column "" "owner", .placeholder value]
  params := [value]
  bound := rfl

end QueryCraft
