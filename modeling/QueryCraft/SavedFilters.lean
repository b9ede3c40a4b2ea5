import QueryCraft.FilterInjection

/-! # Filters that were saved

A filter that `validate_row_filter` accepts is stored, and later `apply_row_filters` binds and
parses it again.  The two parse different texts: the validator puts an identifier in the place
of a placeholder, injection the token of the driver.  A stored filter should be usable for as
long as its table has the columns it names, and be refused as a schema conflict from then on
(`KeepsWorking`).

`saved_filter_iff` says that this is so exactly if the two readings agree (`ReadAlike`).
-/
namespace QueryCraft

variable {V : Type}

/-! ## Removing tables and columns -/

/-- A table with some of its columns left. -/
structure TableShrunk (t t' : SchemaTable) : Prop where
  name : t'.name = t.name
  schemaName : t'.schemaName = t.schemaName
  columns : t'.columns.Sublist t.columns

/-- A schema with some of its tables left. -/
def Shrunk (schema schema' : List SchemaTable) : Prop :=
  ∃ kept, kept.Sublist schema ∧ List.Forall₂ TableShrunk kept schema'

section Columns
variable {lower : String → String} {schema : List SchemaTable} {tableName : String}

/-- The table without a column, whatever the case of its name. -/
def SchemaTable.without (lower : String → String) (column : String) (t : SchemaTable) :
    SchemaTable :=
  { t with columns := t.columns.filter (lower · ≠ column) }

theorem shrunk_without (lower : String → String) (column : String) :
    Shrunk schema (schema.map (SchemaTable.without lower column)) := by
  refine ⟨schema, List.Sublist.refl _, ?_⟩
  rw [List.forall₂_map_right_iff]
  exact List.forall₂_same.mpr fun t _ => ⟨rfl, rfl, List.filter_sublist⟩

/-- Resolving a table looks at names only. -/
theorem findPolicyTable_map {f : SchemaTable → SchemaTable} (hname : ∀ t, (f t).name = t.name)
    (hschema : ∀ t, (f t).schemaName = t.schemaName) :
    findPolicyTable lower (schema.map f) tableName =
      (findPolicyTable lower schema tableName).map f := by
  unfold findPolicyTable findTable
  simp only [List.find?_map, Function.comp_def, hname, hschema]
  cases schema.find? fun t => lower t.name == lower tableName with
  | some table => rfl
  | none =>
    cases policyParts lower tableName with
    | nil => rfl
    | cons name rest => cases rest <;> rfl

/-- Without a column, a table has the columns of a list if it had them and the column is not
among them. -/
theorem hasColumns_without {columns : List String} {column : String}
    (h : HasColumns lower schema tableName columns) :
    HasColumns lower (schema.map (SchemaTable.without lower column)) tableName columns ↔
      column ∉ columns.map lower := by
  obtain ⟨table, htable, hcolumns⟩ := h
  unfold HasColumns
  rw [findPolicyTable_map (f := SchemaTable.without lower column) (fun _ => rfl) fun _ => rfl,
    htable]
  simp only [Option.map_some, Option.some.injEq, exists_eq_left', SchemaTable.without,
    List.mem_map, List.mem_filter, decide_eq_true_eq, not_exists, not_and]
  constructor
  · intro hall c hc hlower
    obtain ⟨c', ⟨-, hne⟩, heq⟩ := hall c hc
    exact hne (heq.trans hlower)
  · intro hnot c hc
    obtain ⟨c', hc', heq⟩ := List.mem_map.mp (hcolumns c hc)
    exact ⟨c', ⟨hc', heq ▸ hnot c hc⟩, heq⟩

theorem hasColumns_congr {columns columns' : List String}
    (h : ∀ c, c ∈ columns.map lower ↔ c ∈ columns'.map lower) :
    HasColumns lower schema tableName columns ↔ HasColumns lower schema tableName columns' := by
  have hall : ∀ table : SchemaTable, (∀ c ∈ columns, lower c ∈ table.columns.map lower) ↔
      ∀ c ∈ columns', lower c ∈ table.columns.map lower := by
    intro table
    constructor
    · intro hcolumns c hc
      obtain ⟨c', hc', heq⟩ := List.mem_map.mp ((h _).mpr (List.mem_map_of_mem hc))
      exact heq ▸ hcolumns c' hc'
    · intro hcolumns c hc
      obtain ⟨c', hc', heq⟩ := List.mem_map.mp ((h _).mp (List.mem_map_of_mem hc))
      exact heq ▸ hcolumns c' hc'
  unfold HasColumns
  simp only [hall]

end Columns

/-! ## The two readings -/

section Readings
variable (lower : String → String) (glot : Sqlglot) (schema : List SchemaTable)
  (tableName dialect : String) (filterSql : List Char) (saved : FilterTree) (sql : List Char)

/-- The entry of a policy with one filter. -/
def savedEntry : RowFilterEntry := ⟨some tableName, some filterSql⟩

/-- The filter is accepted by `apply_row_filters` on the schema it was saved for.  On a schema
from which tables or columns were removed it raises a schema conflict exactly if the table no
longer resolves or lacks a column that the saved filter names. -/
structure KeepsWorking (context : UserContext V) : Prop where
  accepted : ∃ b, applyFilterTexts lower glot schema dialect sql [savedEntry tableName filterSql]
    context = .ok b
  conflict : ∀ schema', Shrunk schema schema' →
    (applyFilterTexts lower glot schema' dialect sql [savedEntry tableName filterSql] context =
        .error .policySchemaConflict ↔
      ¬ HasColumns lower schema' tableName (namedColumns saved))

/-- Injection knows the dialect, finds no `{user.` left over, reads the bound filter as a
condition with the columns that the validator saw, and can traverse the statement. -/
def ReadAlike : Prop :=
  ∃ name stmt filterStmt condition, sqlglotDialect? (lowerAscii dialect) = some name ∧
    glot.parse name sql = some [some stmt] ∧ (glot.scopes stmt).isSome = true ∧
    hasLeftover (boundFilter dialect filterSql) = false ∧
    boundCondition glot dialect name filterSql = some (filterStmt, condition) ∧
    ∀ c, c ∈ (namedColumns filterStmt).map lower ↔ c ∈ (namedColumns saved).map lower

end Readings

section Theorems
variable {lower : String → String} {glot : Sqlglot} {schema : List SchemaTable}
  {tableName dialect name : String} {filterSql sql : List Char} {saved stmt : FilterTree}
  {context : UserContext V}

theorem isSome_driverStyle (h : sqlglotDialect? dialect = some name) :
    (driverStyle dialect).isSome = true := by
  unfold sqlglotDialect? at h
  split at h
  · rfl
  · rfl
  · rfl
  · rfl
  · rfl
  · cases h

/-- The validator has checked the columns it saw. -/
theorem hasColumns_of_validated
    (hvalid : validateRowFilterText lower glot.parse schema tableName dialect filterSql = true)
    (hsaved : filterStatement glot.parse dialect filterSql = some saved) :
    HasColumns lower schema tableName (namedColumns saved) := by
  obtain ⟨-, -, target, stmt, hfind, hstmt, hallowed⟩ := validateRowFilterText_iff.mp hvalid
  obtain rfl := Option.some.inj (hsaved.symm.trans hstmt)
  obtain ⟨-, -, -, -, -, hcolumn⟩ := statementAllowed_iff.mp hallowed
  refine ⟨target, hfind, fun column hmem => ?_⟩
  obtain ⟨n, hn, hname⟩ := List.mem_filterMap.mp hmem
  have hallowed := hcolumn n hn
  cases hkind : n.cls.kind with
  | column catalog db table name =>
    simp only [hkind] at hname
    split at hname
    · cases hname
    · rename_i hlooks
      obtain rfl := Option.some.inj hname
      simp only [columnAllowed, hkind, Bool.or_eq_true, Bool.and_eq_true] at hallowed
      exact List.contains_iff_mem.mp (hallowed.resolve_left hlooks).2
  | _ => simp [hkind] at hname

/-- The validator has checked the keys. -/
theorem keys_of_validated
    (hvalid : validateRowFilterText lower glot.parse schema tableName dialect filterSql = true) :
    ∀ key ∈ placeholderKeys (filterPieces filterSql), key ∈ allowedPlaceholderKeys := by
  obtain ⟨-, -, target, stmt, -, hstmt, -⟩ := validateRowFilterText_iff.mp hvalid
  obtain ⟨text, htext, -⟩ := parse_of_filterStatement hstmt
  unfold processedSql at htext
  split at htext
  · rename_i hall
    intro key hkey
    exact List.contains_iff_mem.mp (List.all_eq_true.mp hall key hkey)
  · cases htext

/-- What injection needs of a filter apart from the schema. -/
structure ReadyToCheck (glot : Sqlglot) (dialect : String) (sql filterSql : List Char)
    (name : String) (stmt filterStmt condition : FilterTree) : Prop where
  known : sqlglotDialect? (lowerAscii dialect) = some name
  parse : glot.parse name sql = some [some stmt]
  select : stmt.cls.kind = .select
  scopes : (glot.scopes stmt).isSome = true
  bindable : Bindable dialect filterSql
  parsed : boundCondition glot dialect name filterSql = some (filterStmt, condition)

section Ready
variable {filterStmt condition : FilterTree}

/-- The filter is prepared, whatever the schema. -/
theorem ReadyToCheck.exists_prepared
    (h : ReadyToCheck glot dialect sql filterSql name stmt filterStmt condition)
    (hcontext : CompleteContext context) (tableName : String) :
    ∃ p : PreparedFilterText V,
      prepareRowFilter glot context dialect name (savedEntry tableName filterSql) = .ok p ∧
      p.tableName = tableName ∧
      p.internalSql = toInternalPlaceholder (boundFilter dialect filterSql) dialect := by
  obtain ⟨params, hparams⟩ := hcontext.exists_params h.bindable.keys
  exact ⟨⟨⟨tableName, condition, placeholderKeys (filterPieces filterSql)⟩, _, params⟩,
    prepareRowFilter_ok_iff.mpr
      ⟨filterSql, filterStmt, rfl, rfl, h.bindable, rfl, h.parsed, rfl, hparams⟩, rfl, rfl⟩

/-- It is accepted if the table has the columns. -/
theorem ReadyToCheck.accepted
    (h : ReadyToCheck glot dialect sql filterSql name stmt filterStmt condition)
    (hcontext : CompleteContext context)
    (hcolumns : HasColumns lower schema tableName (namedColumns filterStmt)) :
    ∃ b, applyFilterTexts lower glot schema dialect sql [savedEntry tableName filterSql]
      context = .ok b := by
  obtain ⟨p, hprepare, hname, hinternal⟩ := h.exists_prepared hcontext tableName
  obtain ⟨scopes, hscopes⟩ := Option.isSome_iff_exists.mp h.scopes
  have hdrift : checkSchemaDrift lower glot schema name p.internalSql p.tableName = true := by
    rw [hname, hinternal]
    exact (checkSchemaDrift_iff h.parsed).mpr hcolumns
  have hchecked : prepareChecked lower glot schema context dialect name
      (savedEntry tableName filterSql) = .ok p := by
    simp only [prepareChecked, hprepare, hdrift, if_true]
  exact ⟨_, applyFilterTexts_ok_iff.mpr ⟨name, stmt, [p], scopes, h.known, h.parse, h.select,
    prepareAll_ok_iff.mpr (.cons hchecked .nil), hscopes, rfl⟩⟩

/-- Otherwise a conflict is raised. -/
theorem ReadyToCheck.conflict_iff
    (h : ReadyToCheck glot dialect sql filterSql name stmt filterStmt condition)
    (hcontext : CompleteContext context) :
    applyFilterTexts lower glot schema dialect sql [savedEntry tableName filterSql] context =
        .error .policySchemaConflict ↔
      ¬ HasColumns lower schema tableName (namedColumns filterStmt) := by
  constructor
  · intro herror hcolumns
    obtain ⟨b, hb⟩ := h.accepted hcontext hcolumns
    rw [hb] at herror
    cases herror
  · intro hcolumns
    obtain ⟨p, hprepare, hname, hinternal⟩ := h.exists_prepared hcontext tableName
    have hdrift : checkSchemaDrift lower glot schema name p.internalSql p.tableName = false := by
      rw [Bool.eq_false_iff, hname, hinternal, ne_eq, checkSchemaDrift_iff h.parsed]
      exact hcolumns
    simp only [applyFilterTexts, h.known, h.parse, h.select, if_true, prepareAll, prepareChecked,
      hprepare, hdrift, Bool.false_eq_true, if_false]

end Ready

/-- A saved filter keeps working if and only if injection reads it as the validator did. -/
theorem saved_filter_iff
    (hvalid : validateRowFilterText lower glot.parse schema tableName dialect filterSql = true)
    (hsaved : filterStatement glot.parse dialect filterSql = some saved)
    (hcontext : CompleteContext context)
    (hsql : ∀ name, sqlglotDialect? (lowerAscii dialect) = some name →
      ∃ stmt, glot.parse name sql = some [some stmt] ∧ stmt.cls.kind = .select) :
    KeepsWorking lower glot schema tableName dialect filterSql saved sql context ↔
      ReadAlike lower glot dialect filterSql saved sql := by
  have hcolumns := hasColumns_of_validated hvalid hsaved
  constructor
  · rintro ⟨⟨b, hb⟩, hconflict⟩
    obtain ⟨name, stmt, prepared, scopes, hname, hparse, hselect, hprepared, hscopes, -⟩ :=
      applyFilterTexts_ok_iff.mp hb
    obtain ⟨_, _, filterStmt, condition, husable⟩ := (exists_prepareAll_iff hcontext).mp
      ⟨prepared, hprepared⟩ _ List.mem_cons_self
    obtain rfl := Option.some.inj husable.table
    obtain rfl := Option.some.inj husable.filter
    have hready : ReadyToCheck glot dialect sql filterSql name stmt filterStmt condition :=
      ⟨hname, hparse, hselect, by rw [hscopes, Option.isSome_some], husable.bindable,
        husable.parsed⟩
    refine ⟨name, stmt, filterStmt, condition, hname, hparse, hready.scopes,
      husable.bindable.leftover, husable.parsed, fun c => ?_⟩
    -- remove the column from the schema and see whether a conflict is raised
    have hremoved := hconflict _ (shrunk_without lower c)
    rw [hready.conflict_iff hcontext, not_iff_not, hasColumns_without husable.columns,
      hasColumns_without hcolumns, not_iff_not] at hremoved
    exact hremoved
  · rintro ⟨name, stmt, filterStmt, condition, hname, hparse, hscopes, hleft, hparsed, halike⟩
    obtain ⟨stmt', hparse', hselect⟩ := hsql name hname
    rw [hparse] at hparse'
    cases hparse'
    have hready : ReadyToCheck glot dialect sql filterSql name stmt filterStmt condition :=
      ⟨hname, hparse, hselect, hscopes,
        ⟨isSome_driverStyle hname, keys_of_validated hvalid, hleft⟩, hparsed⟩
    refine ⟨hready.accepted hcontext ((hasColumns_congr halike).mpr hcolumns), fun schema' _ => ?_⟩
    rw [hready.conflict_iff hcontext, hasColumns_congr halike]

end Theorems

/-! ## A brace in a literal -/

/-- A filter that passed has a parse. -/
theorem exists_saved {lower : String → String} {parse : SqlParser} {schema : List SchemaTable}
    {tableName dialect : String} {filterSql : List Char}
    (hvalid : validateRowFilterText lower parse schema tableName dialect filterSql = true) :
    ∃ saved, filterStatement parse dialect filterSql = some saved := by
  obtain ⟨-, -, -, saved, -, hsaved, -⟩ := validateRowFilterText_iff.mp hvalid
  exact ⟨saved, hsaved⟩

theorem completeContext_analyst : CompleteContext analyst := by
  intro key hkey
  simp only [allowedPlaceholderKeys, List.mem_cons, List.not_mem_nil, or_false] at hkey
  rcases hkey with rfl | rfl | rfl <;> rfl

/-- A filter by email keeps working if it is read alike. -/
theorem email_filter_keeps_working :
    validateRowFilterText lowerAscii (ticketsGlot "email").parse ticketsSchema "tickets"
      "postgres" (ownedBy "email") = true ∧
    ∃ saved, filterStatement (ticketsGlot "email").parse "postgres" (ownedBy "email") =
        some saved ∧
      (KeepsWorking lowerAscii (ticketsGlot "email") ticketsSchema "tickets" "postgres"
          (ownedBy "email") saved ticketsSql analyst ↔
        ReadAlike lowerAscii (ticketsGlot "email") "postgres" (ownedBy "email") saved
          ticketsSql) := by
  have hvalid : validateRowFilterText lowerAscii (ticketsGlot "email").parse ticketsSchema
      "tickets" "postgres" (ownedBy "email") = true := by decide +kernel
  obtain ⟨saved, hsaved⟩ := exists_saved hvalid
  exact ⟨hvalid, saved, hsaved, saved_filter_iff hvalid hsaved completeContext_analyst
    fun _ _ => ⟨ticketsTree, rfl, rfl⟩⟩

/-- `owner = '{user.}'`. -/
def bracedFilter : List Char := "owner = '\x7buser.\x7d'".toList

/-- `sqlglot`, on the statement and the filter. -/
def bracedGlot : Sqlglot where
  parse := fun _ text =>
    if text = ticketsSql then some [some ticketsTree]
    else if text = wrappedSql bracedFilter then
      some [some (selectOne (equals (columnNode "owner")
        (.node ⟨.literal true "\x7buser.\x7d", false⟩ .nil)) .nil)]
    else none
  scopes := fun _ => some [[{ name := "tickets" }]]
  generate := fun _ _ _ => (ticketsSql ++ " WHERE ".toList ++ bracedFilter).map .char

/-- The literal passes the validator, and binding takes it for a broken placeholder. -/
theorem braced_filter_refused :
    validateRowFilterText lowerAscii bracedGlot.parse ticketsSchema "tickets" "postgres"
      bracedFilter = true ∧
    CompleteContext analyst ∧
    applyFilterTexts lowerAscii bracedGlot ticketsSchema "postgres" ticketsSql
      [savedEntry "tickets" bracedFilter] analyst = .error .placeholderBindingFailed ∧
    ∀ saved, ¬ KeepsWorking lowerAscii bracedGlot ticketsSchema "tickets" "postgres" bracedFilter
      saved ticketsSql analyst := by
  have herror : applyFilterTexts lowerAscii bracedGlot ticketsSchema "postgres" ticketsSql
      [savedEntry "tickets" bracedFilter] analyst = .error .placeholderBindingFailed := by
    decide +kernel
  refine ⟨by decide +kernel, completeContext_analyst, herror, fun saved h => ?_⟩
  obtain ⟨b, hb⟩ := h.accepted
  rw [herror] at hb
  cases hb

end QueryCraft
