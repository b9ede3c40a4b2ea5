import QueryCraft.AuditLog
import QueryCraft.TableGrants

/-! # The schema in the prompt

`PolicyEnforcementService.filter_schema` cuts the schema down to what the role may see, for
the prompt of the model; `RoleAuthorizationRule` judges the statements that come back.  Both
read `allowed_tables`, each with an index of its own: one looks for the full name of a schema
table and keeps its physical columns, the other looks for the last part of a reference first
and does not ask whether a column exists.

`prompt_agrees_iff` says when a column that is shown can be used and the other way round.
-/
namespace QueryCraft

/-! ## Entries of `allowed_tables` -/

/-- The value counts as false in Python. -/
def Json.isFalsy : Json → Bool
  | .null => true
  | .bool b => !b
  | .int n => n = 0
  | .float mantissa _ => mantissa = 0
  | .str s => s = ""
  | .arr items => items.isEmpty
  | .obj fields => fields.isEmpty

/-- The strings of a list. -/
def Json.strings (items : List Json) : List String :=
  items.filterMap fun
    | .str s => some s
    | _ => none

/-- An entry as both indexes read it; `none` where they skip it. -/
def readAllowedTable (entry : List (String × Json)) : Option AllowedTable :=
  match entry.lookup "table" with
  | some (.str table) =>
    match (entry.lookup "columns").getD .null with
    | .arr items => some ⟨table, Json.strings items⟩
    | columns => if columns.isFalsy then some ⟨table, []⟩ else none
  | _ => none

/-- The entries that count. -/
def readAllowedTables (entries : List (List (String × Json))) : List AllowedTable :=
  entries.filterMap readAllowedTable

section Filter
variable (lower : String → String)

/-- `policy_by_table` in `filter_schema`. -/
def policyByTable (allowedTables : List AllowedTable) : List (String × List String) :=
  (allowedTables.filter (·.table != "")).map fun e => (lower e.table, e.columns.map lower)

/-- `PolicyEnforcementService.filter_schema`. -/
def filterSchema (schema : List SchemaTable) (allowedTables : List AllowedTable) :
    List SchemaTable :=
  schema.filterMap fun t =>
    (dictGet (policyByTable lower allowedTables) (lower t.name)).map fun allowed =>
      { t with columns := t.columns.filter fun c => allowed.contains (lower c) }

/-- A schema has a table with a column. -/
def HasColumn (schema : List SchemaTable) (t : SchemaTable) (column : String) : Prop :=
  ∃ t' ∈ schema, t'.name = t.name ∧ t'.schemaName = t.schemaName ∧
    lower column ∈ t'.columns.map lower

instance (schema : List SchemaTable) (t : SchemaTable) (column : String) :
    Decidable (HasColumn lower schema t column) :=
  inferInstanceAs (Decidable (∃ t' ∈ schema, _))

/-- The entry for a name, the last one that there is. -/
def lastEntry (allowedTables : List AllowedTable) (name : String) : Option AllowedTable :=
  dictGet ((allowedTables.filter (·.table != "")).map fun e => (lower e.table, e)) (lower name)

/-- The entry for a name has the column. -/
def grants (allowedTables : List AllowedTable) (name column : String) : Bool :=
  (lastEntry lower allowedTables name).any fun e => (e.columns.map lower).contains (lower column)

end Filter

/-! ## Statements -/

section Names
variable (reserved : List String)

/-- Letters, digits and underscores, not starting with a digit, and none of the words that the
dialect reads as something else than a name. -/
def isPlainIdentifier (s : String) : Bool :=
  !reserved.contains (lowerAscii s) &&
    match s.toList with
    | [] => false
    | c :: cs => (c.isAlpha || c = '_') && cs.all fun c => c.isAlphanum || c = '_'

variable {reserved} in
theorem ne_empty_of_isPlainIdentifier {s : String} (h : isPlainIdentifier reserved s = true) :
    s ≠ "" := by
  rintro rfl
  simp [isPlainIdentifier] at h

/-- The text of a table name is read as the reference. -/
inductive PlainTableName : String → TableRef → Prop where
  | bare {name : String} (h : isPlainIdentifier reserved name = true) :
      PlainTableName name { name := name }
  | qualified {db name : String} (hdb : isPlainIdentifier reserved db = true)
      (hname : isPlainIdentifier reserved name = true) :
      PlainTableName (db ++ "." ++ name) { db := db, name := name }

end Names

/-- `SELECT <column> FROM <reference>`. -/
def selectColumnFrom (column : String) (ref : TableRef) : Query Empty :=
  .select [.column "" column] (.table .nothing .inner ref []) [] [] [] []

/-- What is used of `str.lower`. -/
structure LowersNames (reserved : List String) (lower : String → String) : Prop where
  idempotent : ∀ s, lower (lower s) = lower s
  qualified : ∀ {db name : String}, isPlainIdentifier reserved db = true →
    isPlainIdentifier reserved name = true →
    lower (db ++ "." ++ name) = lower db ++ "." ++ lower name
  nonempty : ∀ s, lower s = "" ↔ s = ""

/-! ## What is in the prompt -/

section Agreement
variable {reserved : List String} {lower : String → String} {schema : List SchemaTable}
  {t : SchemaTable}
  {allowedTables : List AllowedTable} {column : String} {ref : TableRef}

theorem dictGet_map {α : Type} (entries : List AllowedTable) (f : AllowedTable → α)
    (key : String) :
    dictGet (entries.map fun e => (lower e.table, f e)) key =
      (dictGet (entries.map fun e => (lower e.table, e)) key).map f := by
  have hmap : (entries.map fun e => (lower e.table, f e)) =
      (entries.map fun e => (lower e.table, e)).map fun e => (e.1, f e.2) := by
    rw [List.map_map]
    rfl
  rw [hmap, dictGet, dictGet, ← List.map_reverse, lookup_mapValues]

theorem dictGet_policyByTable (name : String) :
    dictGet (policyByTable lower allowedTables) (lower name) =
      (lastEntry lower allowedTables name).map fun e => e.columns.map lower :=
  dictGet_map _ _ _

theorem dictGet_buildPolicyIndex (name : String) :
    dictGet (buildPolicyIndex lower allowedTables) (lower name) =
      (lastEntry lower allowedTables name).map fun e => (e.columns.filter (· != "")).map lower :=
  dictGet_map _ _ _

/-- The prompt shows the physical columns that the entry for the full name has. -/
theorem hasColumn_filterSchema :
    HasColumn lower (filterSchema lower schema allowedTables) t column ↔
      grants lower allowedTables t.name column = true ∧ HasColumn lower schema t column := by
  have hcols : ∀ (allowed cols : List String),
      lower column ∈ (cols.filter fun c => allowed.contains (lower c)).map lower ↔
        lower column ∈ allowed ∧ lower column ∈ cols.map lower := by
    intro allowed cols
    simp only [List.mem_map, List.mem_filter, List.contains_iff_mem]
    constructor
    · rintro ⟨c, ⟨hc, hmem⟩, heq⟩
      exact ⟨heq ▸ hmem, c, hc, heq⟩
    · rintro ⟨hmem, c, hc, heq⟩
      exact ⟨c, ⟨hc, heq ▸ hmem⟩, heq⟩
  simp only [HasColumn, filterSchema, List.mem_filterMap, Option.map_eq_some_iff]
  constructor
  · rintro ⟨t', ⟨s, hs, allowed, hallowed, rfl⟩, hname, hschema, hcolumn⟩
    obtain ⟨hgrant, hphysical⟩ := (hcols allowed s.columns).mp hcolumn
    refine ⟨?_, s, hs, hname, hschema, hphysical⟩
    rw [hname, dictGet_policyByTable, Option.map_eq_some_iff] at hallowed
    obtain ⟨e, he, rfl⟩ := hallowed
    simp only [grants, he, Option.any_some, List.contains_iff_mem]
    exact hgrant
  · rintro ⟨hgrant, s, hs, hname, hschema, hphysical⟩
    simp only [grants, Option.any_eq_true, List.contains_iff_mem] at hgrant
    obtain ⟨e, he, hmem⟩ := hgrant
    refine ⟨_, ⟨s, hs, e.columns.map lower, ?_, rfl⟩, hname, hschema, ?_⟩
    · rw [hname, dictGet_policyByTable, he, Option.map_some]
    · exact (hcols _ _).mpr ⟨hmem, hphysical⟩

/-! ## What the rule accepts -/

/-- A list without duplicates whose elements are all the same. -/
theorem eq_singleton_of_forall {α : Type} {xs : List α} {a : α} (hnodup : xs.Nodup) (ha : a ∈ xs)
    (h : ∀ x ∈ xs, x = a) : xs = [a] := by
  cases xs with
  | nil => simp at ha
  | cons x xs =>
    obtain rfl := h x (by simp)
    cases xs with
    | nil => rfl
    | cons y ys =>
      obtain rfl := h y (by simp)
      simp at hnodup

/-- With one reference there is one table that can own a column. -/
theorem dedup_dictValues_aliasMap {policy : List (String × List String)} {actual : String}
    (h : resolveTableName lower policy ref = some actual) :
    (dictValues (aliasMap lower policy [ref])).dedup = [actual] := by
  have hmap : aliasMap lower policy [ref] = (ref.name, actual) ::
      ((if ref.aliasName = "" then [] else [(ref.aliasName, actual)]) ++
        (if ref.db = "" then [] else [(ref.db ++ "." ++ ref.name, actual)])) := by
    simp [aliasMap, h]
  have hvalues : ∀ v ∈ dictValues (aliasMap lower policy [ref]), v = actual := by
    intro v hv
    obtain ⟨key, hkey⟩ := mem_dictValues.mp hv
    have hmem := mem_of_dictGet hkey
    rw [hmap] at hmem
    rcases List.mem_cons.mp hmem with heq | hmem
    · exact (Prod.mk.inj heq).2
    · rcases List.mem_append.mp hmem with hmem | hmem
      all_goals
        split at hmem
        · simp at hmem
        · exact (Prod.mk.inj (List.mem_singleton.mp hmem)).2
  have hsome : (dictGet (aliasMap lower policy [ref]) ref.name).isSome := by
    rw [Option.isSome_iff_ne_none, dictGet]
    intro hnone
    have := List.lookup_eq_none_iff.mp hnone (ref.name, actual) (by rw [hmap]; simp)
    simp at this
  obtain ⟨v, hv⟩ := Option.isSome_iff_exists.mp hsome
  have hmem : v ∈ dictValues (aliasMap lower policy [ref]) := mem_dictValues.mpr ⟨_, hv⟩
  refine eq_singleton_of_forall (List.nodup_dedup _) ?_ ?_
  · rw [List.mem_dedup, ← hvalues v hmem]
    exact hmem
  · intro x hx
    exact hvalues x (List.mem_dedup.mp hx)

/-- An entry that the rule finds grants a column as it stands in `allowed_tables`. -/
theorem contains_buildPolicyIndex (hlower : LowersNames reserved lower) (hcolumn : column ≠ "")
    (name : String) :
    ((dictGet (buildPolicyIndex lower allowedTables) (lower name)).getD []).contains
      (lower column) = grants lower allowedTables name column := by
  rw [dictGet_buildPolicyIndex, grants]
  cases lastEntry lower allowedTables name with
  | none => rfl
  | some e =>
    rw [Option.map_some, Option.getD_some, Option.any_some, Bool.eq_iff_iff,
      List.contains_iff_mem, List.contains_iff_mem, List.mem_map, List.mem_map]
    refine exists_congr fun c => and_congr_left fun heq => ?_
    have hne : c ≠ "" := by
      rintro rfl
      rw [(hlower.nonempty "").mpr rfl] at heq
      exact hcolumn ((hlower.nonempty column).mp heq.symm)
    simp [hne]

/-- What the rule looks at in the statement: one scope and one column. -/
theorem mentions_selectColumnFrom :
    (selectColumnFrom column ref).mentions lower schema [] [] false =
      [.scope [⟨ref.aliasOrName, true, .physical ref⟩],
        .column [⟨ref.aliasOrName, true, .physical ref⟩] [] "" column] := by
  have hsource : ref.source [] = .physical ref := by simp [TableRef.source]
  simp [selectColumnFrom, Query.mentions, From.scope, From.derivedMentions, From.onMentions,
    Expr.mentionsAll, Expr.mentions, hsource]

/-- The rule accepts the statement if the table is found and its entry has the column. -/
theorem evaluate_selectColumnFrom (hlower : LowersNames reserved lower) (hcolumn : column ≠ "")
    (walk : TableWalk lower schema) :
    evaluate lower schema walk allowedTables (selectColumnFrom column ref) = true ↔
      ∃ actual, resolveTableName lower (buildPolicyIndex lower allowedTables) ref = some actual ∧
        grants lower allowedTables actual column = true := by
  have htables : walk.tables (selectColumnFrom column ref) = [ref] := by
    refine List.perm_singleton.mp ((walk.perm _).trans (.of_eq ?_))
    rw [Query.physicalTables, mentions_selectColumnFrom]
    rfl
  have hselect : (selectColumnFrom column ref).isSelect = true := rfl
  rw [evaluate, htables, mentions_selectColumnFrom, hselect]
  cases hresolve : resolveTableName lower (buildPolicyIndex lower allowedTables) ref with
  | none => simp [hresolve]
  | some actual =>
    have hpolicy : buildPolicyIndex lower allowedTables ≠ [] := by
      intro hnil
      simp [hnil, resolveTableName, dictGet] at hresolve
    have hscope : Scope.isValid lower [⟨ref.aliasOrName, true, .physical ref⟩] = true := by
      simp [Scope.isValid]
    have hlogical : isLogicalColumn lower (buildPolicyIndex lower allowedTables)
        [⟨ref.aliasOrName, true, .physical ref⟩] "" column = some false := by
      simp [isLogicalColumn, Scope.sources, dictValues, dictGet, Source.isLogical]
    have hgranted : columnGranted lower (buildPolicyIndex lower allowedTables)
        (aliasMap lower (buildPolicyIndex lower allowedTables) [ref]) "" column =
          grants lower allowedTables actual column := by
      rw [columnGranted, if_neg (by simp), columnOwners, dedup_dictValues_aliasMap hresolve,
        List.filter_singleton, contains_buildPolicyIndex hlower hcolumn]
      cases grants lower allowedTables actual column <;> rfl
    simp [hresolve, hpolicy, Mention.isAllowed, hscope, hlogical, hgranted]

/-- The name whose entry the rule looks at: the last part of the name, if there is an entry
for it. -/
def consultedName (lower : String → String) (allowedTables : List AllowedTable) (ref : TableRef)
    (name : String) : String :=
  if (lastEntry lower allowedTables ref.name).isSome then ref.name else name

/-- The rule accepts a column that the entry it looks at has. -/
theorem evaluate_iff_grants (hlower : LowersNames reserved lower) (hcolumn : column ≠ "")
    {name : String} (hname : PlainTableName reserved name ref) (walk : TableWalk lower schema) :
    evaluate lower schema walk allowedTables (selectColumnFrom column ref) = true ↔
      grants lower allowedTables (consultedName lower allowedTables ref name) column = true := by
  have hsome : ∀ n, (dictGet (buildPolicyIndex lower allowedTables) (lower n)).isSome =
      (lastEntry lower allowedTables n).isSome := by
    intro n
    rw [dictGet_buildPolicyIndex, Option.isSome_map]
  have hgrants : ∀ n, (lastEntry lower allowedTables n).isSome = false →
      grants lower allowedTables n column = false := by
    intro n hn
    have hnone : lastEntry lower allowedTables n = none := by simpa using hn
    rw [grants, hnone]
    rfl
  rw [evaluate_selectColumnFrom hlower hcolumn walk, consultedName]
  cases hname with
  | bare h =>
    cases hentry : (lastEntry lower allowedTables name).isSome with
    | true => simp [resolveTableName, hsome, hentry]
    | false => simp [resolveTableName, hsome, hentry, hgrants name hentry]
  | @qualified db name hdb hname =>
    have hne : db ≠ "" := ne_empty_of_isPlainIdentifier hdb
    have hqualified := hlower.qualified hdb hname
    cases hentry : (lastEntry lower allowedTables name).isSome with
    | true => simp [resolveTableName, hsome, hentry]
    | false =>
      have hfull : ∀ n, grants lower allowedTables (lower n) column =
          grants lower allowedTables n column := by
        intro n
        rw [grants, grants, lastEntry, lastEntry, hlower.idempotent]
      cases hentry' : (lastEntry lower allowedTables (db ++ "." ++ name)).isSome with
      | true => simp [resolveTableName, hsome, hentry, hne, ← hqualified, hentry', hfull]
      | false =>
        simp [resolveTableName, hsome, hentry, hne, ← hqualified, hentry', hgrants _ hentry']

/-- The entry that the rule looks at has only columns of the table, and of these the same as
the table's own entry. -/
structure EntryFits (lower : String → String) (schema : List SchemaTable)
    (allowedTables : List AllowedTable) (ref : TableRef) (t : SchemaTable) (column : String) :
    Prop where
  physical : grants lower allowedTables (consultedName lower allowedTables ref t.name) column =
    true → HasColumn lower schema t column
  own : HasColumn lower schema t column →
    grants lower allowedTables (consultedName lower allowedTables ref t.name) column =
      grants lower allowedTables t.name column

/-- **A column can be used exactly if it is shown**, where the entry that the rule looks at
fits the table. -/
theorem prompt_agrees_iff (hlower : LowersNames reserved lower)
    (entries : List (List (String × Json)))
    (walk : TableWalk lower schema) (hname : PlainTableName reserved t.name ref)
    (hcolumn : isPlainIdentifier reserved column = true) :
    (evaluate lower schema walk (readAllowedTables entries) (selectColumnFrom column ref) = true ↔
      HasColumn lower (filterSchema lower schema (readAllowedTables entries)) t column) ↔
    EntryFits lower schema (readAllowedTables entries) ref t column := by
  have hne : column ≠ "" := ne_empty_of_isPlainIdentifier hcolumn
  rw [evaluate_iff_grants hlower hne hname walk, hasColumn_filterSchema]
  constructor
  · intro h
    refine ⟨fun hgrant => (h.mp hgrant).2, fun hphysical => ?_⟩
    rw [Bool.eq_iff_iff, h]
    exact and_iff_left hphysical
  · rintro ⟨hphysical, hown⟩
    constructor
    · intro hgrant
      exact ⟨(hown (hphysical hgrant)) ▸ hgrant, hphysical hgrant⟩
    · rintro ⟨hgrant, hcol⟩
      rw [hown hcol]
      exact hgrant

end Agreement

/-! ## Columns that are gone -/

theorem lowersNames_lowerAscii (reserved : List String) : LowersNames reserved lowerAscii where
  idempotent := lowerAscii_lowerAscii
  qualified _ _ := by
    rw [lowerAscii_append, lowerAscii_append]
    rfl
  nonempty s := by simp [lowerAscii]

/-- A table of orders. -/
def ordersTable : SchemaTable := { name := "orders", columns := ["id", "total"] }

/-- An entry for it. -/
def ordersEntry (columns : List String) : List (String × Json) :=
  [("table", .str "Orders"), ("columns", .arr (columns.map .str))]

/-- Some words that are no names in any dialect. -/
def reservedWords : List String :=
  ["all", "and", "as", "case", "current_date", "distinct", "false", "from", "not", "null", "or",
    "select", "table", "true", "where"]

/-- An entry with columns of the table. -/
theorem prompt_agrees_total :
    evaluate lowerAscii [ordersTable] (.byScope lowerAscii [ordersTable])
        (readAllowedTables [ordersEntry ["TOTAL"]])
        (selectColumnFrom "total" { name := "orders" }) = true ↔
      HasColumn lowerAscii (filterSchema lowerAscii [ordersTable]
        (readAllowedTables [ordersEntry ["TOTAL"]])) ordersTable "total" := by
  refine (prompt_agrees_iff (lowersNames_lowerAscii reservedWords) [ordersEntry ["TOTAL"]]
    (.byScope lowerAscii [ordersTable]) (t := ordersTable) (.bare (by decide)) (by decide)).mpr ?_
  exact ⟨fun _ => by decide, fun _ => by decide⟩

/-- An entry with a column that the table no longer has: the column is not shown, but the rule
accepts it. -/
theorem dropped_column_accepted :
    ¬ (evaluate lowerAscii [ordersTable] (.byScope lowerAscii [ordersTable])
        (readAllowedTables [ordersEntry ["id", "discount"]])
        (selectColumnFrom "discount" { name := "orders" }) = true ↔
      HasColumn lowerAscii (filterSchema lowerAscii [ordersTable]
        (readAllowedTables [ordersEntry ["id", "discount"]])) ordersTable "discount") := by
  decide

end QueryCraft
