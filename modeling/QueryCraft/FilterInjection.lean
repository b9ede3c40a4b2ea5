import Mathlib.Data.List.Forall2
import QueryCraft.PlaceholderCount

/-! # Row filters as text

`apply_row_filters` from the configured texts on: it parses the statement, binds and parses
every filter (`_prepare_row_filter`), compares its columns with the schema
(`_check_schema_drift`), adds it to the scopes that read its table, and collects the values.
What `sqlglot` does with a statement is a parameter here (`Sqlglot`); `RowFilters` follows the
filters into a parsed statement.

Whether a filter can be used does not depend on the user's values, as long as there are some
(`prepareChecked_ok_iff`).
-/
namespace QueryCraft

variable {V : Type}

/-- A filter that is added to a statement.  The parsed condition has a `?` for each placeholder;
the keys say which. -/
structure AddedFilter where
  tableName : String
  expression : FilterTree
  keys : List String

/-- What the code uses of `sqlglot`. -/
structure Sqlglot where
  parse : SqlParser
  /-- The physical sources of each scope that `traverse_scope` visits and that is a `SELECT`;
  `none` where it raises `OptimizeError`. -/
  scopes : FilterTree → Option (List (List TableRef))
  /-- The text of a statement with filters added for their tables, in a dialect.  Its `?` are
  told apart from those that were added, and these are labelled with their keys. -/
  generate : String → FilterTree → List AddedFilter → List FilterPiece

/-- `sqlglot.parse_one`: the first statement. -/
def Sqlglot.parseOne (glot : Sqlglot) (name : String) (text : List Char) : Option FilterTree :=
  match glot.parse name text with
  | some (some stmt :: _) => some stmt
  | _ => none

/-- An entry of `row_filters`.  A value that is missing or no string is `none`, and an entry
that is no mapping has neither. -/
structure RowFilterEntry where
  table : Option String
  filter : Option (List Char)
deriving DecidableEq, Repr

/-- Why `apply_row_filters` raises: two messages of `ValueError`, and
`PolicySchemaConflictError`. -/
inductive InjectionError where
  | filterInjectionFailed
  | placeholderBindingFailed
  | policySchemaConflict
deriving DecidableEq, Repr

/-- `_PreparedRowFilter`, with the keys of the placeholders. -/
structure PreparedFilterText (V : Type) extends AddedFilter where
  internalSql : List Char
  params : List V

/-- The statement and the values for the driver. -/
structure BoundText (V : Type) where
  sql : List Char
  params : List V
deriving DecidableEq, Repr

open SyntaxTree

section Injection
variable (lower : String → String) (glot : Sqlglot) (schema : List SchemaTable)

/-- The `SELECT 1 WHERE <filter>` of injection, with the expression to keep. -/
def parsedCondition (name : String) (internalSql : List Char) : Option (FilterTree × FilterTree) :=
  match glot.parseOne name (wrappedSql internalSql) with
  | none => none
  | some stmt =>
    if stmt.cls.kind = .select then (keptCondition stmt).map fun condition => (stmt, condition)
    else none

/-- `_prepare_row_filter`. -/
def prepareRowFilter (context : UserContext V) (dialect name : String) (entry : RowFilterEntry) :
    Except InjectionError (PreparedFilterText V) :=
  match entry.table, entry.filter with
  | some tableName, some filterSql =>
    match bindPlaceholders filterSql context dialect with
    | none => .error .placeholderBindingFailed
    | some (sql, params) =>
      match parsedCondition glot name (toInternalPlaceholder sql dialect) with
      | none => .error .filterInjectionFailed
      | some (_, expression) =>
        .ok { tableName, expression, keys := placeholderKeys (filterPieces filterSql)
              internalSql := toInternalPlaceholder sql dialect, params }
  | _, _ => .error .filterInjectionFailed

/-- The names of the columns in a parsed filter, without those that start like a sentinel. -/
def namedColumns (stmt : FilterTree) : List String :=
  stmt.walk.filterMap fun n =>
    match n.cls.kind with
    | .column _ _ _ name => if looksLikeSentinel name then none else some name
    | _ => none

/-- `_check_schema_drift`; `false` stands for `PolicySchemaConflictError`. -/
def checkSchemaDrift (name : String) (internalSql : List Char) (tableName : String) : Bool :=
  match findPolicyTable lower schema tableName with
  | none => false
  | some table =>
    match glot.parseOne name (wrappedSql internalSql) with
    | none => false
    | some stmt =>
      decide (stmt.cls.kind = .select) &&
        (namedColumns stmt).all fun column => (table.columns.map lower).contains (lower column)

/-- One turn of the loop over the filters. -/
def prepareChecked (context : UserContext V) (dialect name : String) (entry : RowFilterEntry) :
    Except InjectionError (PreparedFilterText V) :=
  match prepareRowFilter glot context dialect name entry with
  | .error e => .error e
  | .ok p =>
    if checkSchemaDrift lower glot schema name p.internalSql p.tableName then .ok p
    else .error .policySchemaConflict

/-- The loop over the filters. -/
def prepareAll (context : UserContext V) (dialect name : String) :
    List RowFilterEntry → Except InjectionError (List (PreparedFilterText V))
  | [] => .ok []
  | entry :: entries =>
    match prepareChecked lower glot schema context dialect name entry with
    | .error e => .error e
    | .ok p =>
      match prepareAll context dialect name entries with
      | .error e => .error e
      | .ok ps => .ok (p :: ps)

/-- The values, scope by scope: a filter's values once for each source it matches. -/
def addedValues (scopes : List (List TableRef)) (prepared : List (PreparedFilterText V)) :
    List V :=
  scopes.flatMap fun sources => prepared.flatMap fun p =>
    (sources.filter (tableMatchesPolicy lower · p.tableName)).flatMap fun _ => p.params

/-- `apply_row_filters`. -/
def applyFilterTexts (dialect : String) (sql : List Char) (entries : List RowFilterEntry)
    (context : UserContext V) : Except InjectionError (BoundText V) :=
  match sqlglotDialect? (lowerAscii dialect) with
  | none => .error .filterInjectionFailed
  | some name =>
    match glot.parse name sql with
    | some [some stmt] =>
      if stmt.cls.kind = .select then
        match prepareAll lower glot schema context dialect name entries with
        | .error e => .error e
        | .ok prepared =>
          match glot.scopes stmt with
          | none => .error .filterInjectionFailed
          | some scopes => .ok
            { sql := renderPlaceholders (markedText (glot.generate name stmt
                (prepared.map (·.toAddedFilter)))) (lowerAscii dialect)
                (nextPostgresIndex stmt name)
              params := addedValues lower scopes prepared }
      else .error .filterInjectionFailed
    | _ => .error .filterInjectionFailed

/-! ## Which filters can be used -/

/-- The text that binding makes of a filter, whatever the values. -/
def boundFilter (dialect : String) (filterSql : List Char) : List Char :=
  boundText (tokenStyle dialect) 1 (filterPieces filterSql)

/-- Binding does not refuse the filter for its text. -/
structure Bindable (dialect : String) (filterSql : List Char) : Prop where
  known : (driverStyle (lowerAscii dialect)).isSome = true
  keys : ∀ key ∈ placeholderKeys (filterPieces filterSql), key ∈ allowedPlaceholderKeys
  leftover : hasLeftover (boundFilter dialect filterSql) = false

/-- The parse of the bound filter. -/
def boundCondition (dialect name : String) (filterSql : List Char) :
    Option (FilterTree × FilterTree) :=
  parsedCondition glot name (toInternalPlaceholder (boundFilter dialect filterSql) dialect)

/-- The table of a filter has all the columns. -/
def HasColumns (tableName : String) (columns : List String) : Prop :=
  ∃ table, findPolicyTable lower schema tableName = some table ∧
    ∀ column ∈ columns, lower column ∈ table.columns.map lower

/-- Nothing about the filter but the user's values can make the loop refuse it. -/
structure UsableFilter (dialect name : String) (entry : RowFilterEntry) (tableName : String)
    (filterSql : List Char) (stmt condition : FilterTree) : Prop where
  table : entry.table = some tableName
  filter : entry.filter = some filterSql
  bindable : Bindable dialect filterSql
  parsed : boundCondition glot dialect name filterSql = some (stmt, condition)
  columns : HasColumns lower schema tableName (namedColumns stmt)

/-- The user has a value for every key. -/
def CompleteContext (context : UserContext V) : Prop :=
  ∀ key ∈ allowedPlaceholderKeys, (context.value? key).isSome = true

/-- The keys of the placeholders for which values are bound, in order. -/
def boundKeys (scopes : List (List TableRef)) (entries : List RowFilterEntry) : List String :=
  scopes.flatMap fun sources => entries.flatMap fun entry =>
    (sources.filter (tableMatchesPolicy lower · (entry.table.getD ""))).flatMap fun _ =>
      placeholderKeys (filterPieces (entry.filter.getD []))

end Injection

section Theorems
variable {lower : String → String} {glot : Sqlglot} {schema : List SchemaTable}
  {context : UserContext V} {dialect name : String} {filterSql : List Char}
  {entry : RowFilterEntry}

theorem mem_allowed_of_value? {key : String} (h : (context.value? key).isSome = true) :
    key ∈ allowedPlaceholderKeys := by
  unfold UserContext.value? at h
  split at h
  · rename_i hkey
    exact List.contains_iff_mem.mp hkey
  · cases h

/-- Binding fails for the text of the filter or for want of a value. -/
theorem bindPlaceholders_iff {sql : List Char} {params : List V} :
    bindPlaceholders filterSql context dialect = some (sql, params) ↔
      Bindable dialect filterSql ∧ sql = boundFilter dialect filterSql ∧
        (placeholderKeys (filterPieces filterSql)).map context.value? = params.map some := by
  rw [bindPlaceholders_eq_some]
  constructor
  · rintro ⟨style, hstyle, rfl, hkeys, hleft⟩
    have htoken : tokenStyle dialect = style := by rw [tokenStyle, hstyle, Option.getD_some]
    refine ⟨⟨by rw [hstyle, Option.isSome_some], fun key hkey => ?_, by rw [boundFilter, htoken,
      hleft]⟩, by rw [boundFilter, htoken], hkeys⟩
    have hvalue : context.value? key ∈ params.map some :=
      hkeys ▸ List.mem_map_of_mem (f := context.value?) hkey
    obtain ⟨v, -, hv⟩ := List.mem_map.mp hvalue
    exact mem_allowed_of_value? (by rw [← hv, Option.isSome_some])
  · rintro ⟨⟨hknown, -, hleft⟩, rfl, hkeys⟩
    obtain ⟨style, hstyle⟩ := Option.isSome_iff_exists.mp hknown
    have htoken : tokenStyle dialect = style := by rw [tokenStyle, hstyle, Option.getD_some]
    exact ⟨style, hstyle, by rw [boundFilter, htoken], hkeys, hleft⟩

/-- A user with all values has a list of them for every list of allowed keys. -/
theorem CompleteContext.exists_params (hcontext : CompleteContext context) {keys : List String}
    (hkeys : ∀ key ∈ keys, key ∈ allowedPlaceholderKeys) :
    ∃ params : List V, keys.map context.value? = params.map some := by
  induction keys with
  | nil => exact ⟨[], rfl⟩
  | cons key keys ih =>
    obtain ⟨params, hparams⟩ := ih fun k hk => hkeys k (List.mem_cons_of_mem _ hk)
    obtain ⟨v, hv⟩ := Option.isSome_iff_exists.mp (hcontext key (hkeys key List.mem_cons_self))
    exact ⟨v :: params, by rw [List.map_cons, List.map_cons, hv, hparams]⟩

theorem parsedCondition_eq_some {sql : List Char} {stmt condition : FilterTree} :
    parsedCondition glot name sql = some (stmt, condition) ↔
      glot.parseOne name (wrappedSql sql) = some stmt ∧ stmt.cls.kind = .select ∧
        keptCondition stmt = some condition := by
  unfold parsedCondition
  cases glot.parseOne name (wrappedSql sql) with
  | none => simp
  | some stmt' =>
    simp only [Option.some.injEq]
    split
    · rename_i hselect
      simp only [Option.map_eq_some_iff, Prod.mk.injEq]
      constructor
      · rintro ⟨c, hc, rfl, rfl⟩
        exact ⟨rfl, hselect, hc⟩
      · rintro ⟨rfl, -, hc⟩
        exact ⟨condition, hc, rfl, rfl⟩
    · rename_i hselect
      simp only [reduceCtorEq, false_iff]
      rintro ⟨rfl, h, -⟩
      exact hselect h

theorem checkSchemaDrift_iff {sql : List Char} {tableName : String} {stmt condition : FilterTree}
    (hparsed : parsedCondition glot name sql = some (stmt, condition)) :
    checkSchemaDrift lower glot schema name sql tableName = true ↔
      HasColumns lower schema tableName (namedColumns stmt) := by
  obtain ⟨hone, hselect, -⟩ := parsedCondition_eq_some.mp hparsed
  unfold checkSchemaDrift HasColumns
  cases findPolicyTable lower schema tableName with
  | none => simp
  | some table => simp [hone, hselect]

/-- `_prepare_row_filter` succeeds if the text can be bound and parsed and there are values. -/
theorem prepareRowFilter_ok_iff {p : PreparedFilterText V} :
    prepareRowFilter glot context dialect name entry = .ok p ↔
      ∃ filterSql stmt, entry.table = some p.tableName ∧ entry.filter = some filterSql ∧
        Bindable dialect filterSql ∧
        p.internalSql = toInternalPlaceholder (boundFilter dialect filterSql) dialect ∧
        boundCondition glot dialect name filterSql = some (stmt, p.expression) ∧
        p.keys = placeholderKeys (filterPieces filterSql) ∧
        p.keys.map context.value? = p.params.map some := by
  unfold prepareRowFilter
  cases htable : entry.table with
  | none => simp
  | some tableName =>
    cases hfilter : entry.filter with
    | none => simp
    | some filterSql =>
      simp only [Option.some.injEq]
      constructor
      · intro h
        split at h
        · cases h
        · rename_i sql params hbind
          obtain ⟨hbindable, rfl, hkeys⟩ := bindPlaceholders_iff.mp hbind
          split at h
          · cases h
          · rename_i stmt expression hparsed
            cases h
            exact ⟨filterSql, stmt, rfl, rfl, hbindable, rfl, hparsed, rfl, hkeys⟩
      · rintro ⟨filterSql', stmt, rfl, rfl, hbindable, hinternal, hparsed, hkeys, hvalues⟩
        rw [boundCondition, ← hinternal] at hparsed
        rw [hkeys] at hvalues
        simp only [bindPlaceholders_iff.mpr ⟨hbindable, rfl, hvalues⟩, ← hinternal, hparsed,
          ← hkeys]

/-- A filter gets through the loop if it is usable and the user has values for its keys. -/
theorem prepareChecked_ok_iff {p : PreparedFilterText V} :
    prepareChecked lower glot schema context dialect name entry = .ok p ↔
      ∃ filterSql stmt, UsableFilter lower glot schema dialect name entry p.tableName filterSql
          stmt p.expression ∧
        p.internalSql = toInternalPlaceholder (boundFilter dialect filterSql) dialect ∧
        p.keys = placeholderKeys (filterPieces filterSql) ∧
        p.keys.map context.value? = p.params.map some := by
  unfold prepareChecked
  constructor
  · intro h
    split at h
    · cases h
    · rename_i p' hprepare
      split at h
      · rename_i hdrift
        cases h
        obtain ⟨filterSql, stmt, htable, hfilter, hbindable, hinternal, hparsed, hkeys, hvalues⟩ :=
          prepareRowFilter_ok_iff.mp hprepare
        rw [hinternal] at hdrift
        exact ⟨filterSql, stmt, ⟨htable, hfilter, hbindable, hparsed,
          (checkSchemaDrift_iff hparsed).mp hdrift⟩, hinternal, hkeys, hvalues⟩
      · cases h
  · rintro ⟨filterSql, stmt, husable, hinternal, hkeys, hvalues⟩
    have hprepare := prepareRowFilter_ok_iff.mpr ⟨filterSql, stmt, husable.table, husable.filter,
      husable.bindable, hinternal, husable.parsed, hkeys, hvalues⟩
    have hdrift := (checkSchemaDrift_iff husable.parsed).mpr husable.columns
    simp only [hprepare, hinternal, hdrift, if_true]

/-- The loop ends if every filter gets through. -/
theorem prepareAll_ok_iff {entries : List RowFilterEntry} {ps : List (PreparedFilterText V)} :
    prepareAll lower glot schema context dialect name entries = .ok ps ↔
      List.Forall₂ (fun entry p =>
        prepareChecked lower glot schema context dialect name entry = .ok p) entries ps := by
  induction entries generalizing ps with
  | nil =>
    rw [prepareAll, List.forall₂_nil_left_iff]
    constructor
    · rintro ⟨⟩
      rfl
    · rintro rfl
      rfl
  | cons entry entries ih =>
    rw [prepareAll, List.forall₂_cons_left_iff]
    constructor
    · intro h
      split at h
      · cases h
      · rename_i p hp
        split at h
        · cases h
        · rename_i ps' hps
          cases h
          exact ⟨p, ps', hp, ih.mp hps, rfl⟩
    · rintro ⟨p, ps', hp, hps, rfl⟩
      simp only [hp, ih.mpr hps]

/-- What the result of `apply_row_filters` says. -/
theorem applyFilterTexts_ok_iff {sql : List Char} {entries : List RowFilterEntry}
    {b : BoundText V} :
    applyFilterTexts lower glot schema dialect sql entries context = .ok b ↔
      ∃ name stmt prepared scopes, sqlglotDialect? (lowerAscii dialect) = some name ∧
        glot.parse name sql = some [some stmt] ∧ stmt.cls.kind = .select ∧
        prepareAll lower glot schema context dialect name entries = .ok prepared ∧
        glot.scopes stmt = some scopes ∧
        b = { sql := renderPlaceholders (markedText (glot.generate name stmt
                (prepared.map (·.toAddedFilter)))) (lowerAscii dialect)
                (nextPostgresIndex stmt name)
              params := addedValues lower scopes prepared } := by
  unfold applyFilterTexts
  constructor
  · intro h
    split at h
    · cases h
    · rename_i name hname
      split at h
      · rename_i stmt hparse
        split at h
        · rename_i hselect
          split at h
          · cases h
          · rename_i prepared hprepared
            split at h
            · cases h
            · rename_i scopes hscopes
              cases h
              exact ⟨name, stmt, prepared, scopes, hname, hparse, hselect, hprepared, hscopes, rfl⟩
        · cases h
      · cases h
  · rintro ⟨name, stmt, prepared, scopes, hname, hparse, hselect, hprepared, hscopes, rfl⟩
    simp only [hname, hparse, hselect, if_true, hprepared, hscopes]

/-- With a value for every key, each usable filter gets through the loop. -/
theorem exists_prepareAll_iff (hcontext : CompleteContext context)
    {entries : List RowFilterEntry} :
    (∃ prepared, prepareAll lower glot schema context dialect name entries = .ok prepared) ↔
      ∀ entry ∈ entries, ∃ tableName filterSql stmt condition,
        UsableFilter lower glot schema dialect name entry tableName filterSql stmt condition := by
  simp only [prepareAll_ok_iff]
  constructor
  · rintro ⟨prepared, hall⟩ entry hentry
    induction hall with
    | nil => cases hentry
    | cons hchecked _ ih =>
      rcases List.mem_cons.mp hentry with rfl | hentry
      · obtain ⟨filterSql, stmt, husable, -⟩ := prepareChecked_ok_iff.mp hchecked
        exact ⟨_, filterSql, stmt, _, husable⟩
      · exact ih hentry
  · intro h
    induction entries with
    | nil => exact ⟨[], .nil⟩
    | cons entry entries ih =>
      obtain ⟨prepared, hall⟩ := ih fun e he => h e (List.mem_cons_of_mem _ he)
      obtain ⟨tableName, filterSql, stmt, condition, husable⟩ := h entry List.mem_cons_self
      obtain ⟨params, hparams⟩ := hcontext.exists_params husable.bindable.keys
      let p : PreparedFilterText V := ⟨⟨tableName, condition, placeholderKeys
        (filterPieces filterSql)⟩, toInternalPlaceholder (boundFilter dialect filterSql) dialect,
        params⟩
      have hchecked : prepareChecked lower glot schema context dialect name entry = .ok p :=
        prepareChecked_ok_iff.mpr ⟨filterSql, stmt, husable, rfl, rfl, hparams⟩
      exact ⟨p :: prepared, .cons hchecked hall⟩

/-- The values are those of the user, in the order of the keys. -/
theorem addedValues_eq {scopes : List (List TableRef)} {entries : List RowFilterEntry}
    {prepared : List (PreparedFilterText V)}
    (h : prepareAll lower glot schema context dialect name entries = .ok prepared) :
    (addedValues lower scopes prepared).map some =
      (boundKeys lower scopes entries).map context.value? := by
  have hall := prepareAll_ok_iff.mp h
  have hsources : ∀ sources : List TableRef,
      (prepared.flatMap fun p => (sources.filter (tableMatchesPolicy lower · p.tableName)).flatMap
        fun _ => p.params).map some =
      (entries.flatMap fun entry =>
        (sources.filter (tableMatchesPolicy lower · (entry.table.getD ""))).flatMap fun _ =>
          placeholderKeys (filterPieces (entry.filter.getD []))).map context.value? := by
    intro sources
    clear h
    induction hall with
    | nil => rfl
    | cons hchecked _ ih =>
      obtain ⟨filterSql, stmt, husable, -, hkeys, hvalues⟩ := prepareChecked_ok_iff.mp hchecked
      rw [hkeys] at hvalues
      simp only [List.flatMap_cons, List.map_append, ih, husable.table, husable.filter,
        Option.getD_some, List.map_flatMap, hvalues]
  simp only [addedValues, boundKeys, List.map_flatMap] at hsources ⊢
  exact List.flatMap_congr fun sources _ => hsources sources

end Theorems

/-! ## Tickets -/

/-- A table of tickets, each with an owner. -/
def ticketsSchema : List SchemaTable := [{ name := "tickets", columns := ["id", "owner"] }]

/-- `owner = {user.<key>}`. -/
def ownedBy (key : String) : List Char :=
  "owner = \x7buser.".toList ++ key.toList ++ "\x7d".toList

/-- The entry for the table. -/
def ownedEntry (key : String) : RowFilterEntry where
  table := some "tickets"
  filter := some (ownedBy key)

/-- `SELECT id FROM tickets`. -/
def ticketsSql : List Char := "SELECT id FROM tickets".toList

/-- What the parser makes of it. -/
def ticketsTree : FilterTree :=
  .node ⟨.select, false⟩ (.cons "expressions" (columnNode "id") (.cons "from"
    (.node ⟨.other "From", false⟩ (.cons "this" (.node ⟨.other "Table", false⟩ .nil) .nil)) .nil))

/-- `?`. -/
def placeholderNode : FilterTree := .node ⟨.other "Placeholder", false⟩ .nil

/-- `sqlglot`, on the statement and a filter for the owner, before and after binding. -/
def ticketsGlot (key : String) : Sqlglot where
  parse := fun _ text =>
    if text = ticketsSql then some [some ticketsTree]
    else if text = wrappedSql "owner = ?".toList then
      some [some (selectOne (equals (columnNode "owner") placeholderNode) .nil)]
    else if text = wrappedSql ("owner = ".toList ++ sentinel key) then
      some [some (selectOne (equals (columnNode "owner")
        (columnNode (String.ofList (sentinel key)))) .nil)]
    else none
  scopes := fun _ => some [[{ name := "tickets" }]]
  generate := fun _ _ filters => ticketsSql.map .char ++ filters.flatMap fun f =>
    if tableMatchesPolicy lowerAscii { name := "tickets" } f.tableName then
      " WHERE owner = ".toList.map .char ++ f.keys.map .placeholder
    else []

end QueryCraft
