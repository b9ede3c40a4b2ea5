import Mathlib.Data.List.Nodup
import QueryCraft.SqlText

/-! # Column masks

`PolicyEnforcementService.apply_column_masks` replaces the values of sensitive
columns in a query result by `***`.  A result column is masked if its name is
configured, or if the lineage of the projection with that name mentions a
configured name.

Results are positional, but the lineage is looked up by name: `sqlglot.lineage`
returns the lineage of the first projection with that output name.  The text it is
given has `NULL` in the place of bind tokens, also where they are part of a name, as
in `acct$1`.  And the leaf names it yields are rendered identifiers, compared with
their quotes.  So a position can depend on a masked column and stay unmasked, if an
earlier projection has the same output name, if the column is quoted in the query,
or if its name has a bind token in it.  `applyColumnMasks_sound_iff` says exactly
when this does not happen; that nothing else is changed (`Frame`) holds always.
-/
namespace QueryCraft

/-! ## Results -/

/-- A cell of a result row. -/
inductive Cell (α : Type) where
  | text (s : String)
  | other (value : α)

/-- `ColumnMeta`. -/
structure ColumnMeta where
  name : String
  type : String
  masked : Bool := false

/-- `QueryResult`. -/
structure QueryResult (α : Type) where
  attemptId : String
  sessionId : Option String
  question : String
  generatedSql : String
  columns : List ColumnMeta
  rows : List (List (Cell α))
  rowCount : Int
  attemptNumber : Int
  isLastAutoRetry : Bool
  acceptedQueryId : Option String

/-- An entry of `column_masks`. -/
structure ColumnMask where
  table : String
  columns : List String

/-! ## Lineage -/

/-- `rsplit(".", 1)[-1]`. -/
def lastComponent (s : String) : String :=
  String.ofList (s.toList.reverse.takeWhile (· ≠ '.')).reverse

/-- A physical column at the end of a lineage, with its rendered text.  Without
quotes, what stands after the last dot is the column's name. -/
structure LineageColumn where
  name : String
  quoted : Bool
  rendered : String
  rendered_unquoted : quoted = false → lastComponent rendered = name

/-- A node of `sqlglot.lineage`. -/
inductive LineageNode where
  | leaf (column : LineageColumn)
  | node (name : String) (children : List LineageNode)

namespace LineageNode

mutual

/-- The names of the nodes `walk` yields. -/
def names : LineageNode → List String
  | .leaf column => [column.rendered]
  | .node name children => name :: namesOfAll children

def namesOfAll : List LineageNode → List String
  | [] => []
  | n :: ns => n.names ++ namesOfAll ns

end

mutual

/-- The physical columns the lineage ends in. -/
def columns : LineageNode → List LineageColumn
  | .leaf column => [column]
  | .node _ children => columnsOfAll children

def columnsOfAll : List LineageNode → List LineageColumn
  | [] => []
  | n :: ns => n.columns ++ columnsOfAll ns

end

mutual

/-- The names of the derived columns the lineage passes through. -/
def derivedNames : LineageNode → List String
  | .leaf _ => []
  | .node name children => name :: derivedNamesOfAll children

def derivedNamesOfAll : List LineageNode → List String
  | [] => []
  | n :: ns => n.derivedNames ++ derivedNamesOfAll ns

end

end LineageNode

/-- A projection of a parsed statement: its normalized output name and its lineage. -/
structure Projection where
  outputName : String
  lineage : LineageNode

/-- What is taken from `sqlglot`: the projections of a statement, the normalization
of a name, and whether `lineage` raises for a name in a statement. -/
structure LineageEnv where
  projections : Option String → String → List Projection
  normalize : Option String → String → String
  raises : Option String → String → String → Bool

/-- The first projection of a statement with a normalized output name. -/
def LineageEnv.firstNamed (env : LineageEnv) (dialect : Option String) (sql name : String) :
    Option Projection :=
  (env.projections dialect sql).find? (·.outputName == env.normalize dialect name)

/-- `sqlglot.lineage`: the lineage of the first projection with the name. -/
def LineageEnv.lineage (env : LineageEnv) (name sql : String) (dialect : Option String) :
    Option LineageNode :=
  if env.raises dialect sql name then none
  else (env.firstNamed dialect sql name).map (·.lineage)

/-! ## `apply_column_masks` -/

/-- `_SQLGLOT_DIALECT.get(dialect, dialect)`. -/
def sqlglotDialect : String → String
  | "postgres" => "postgres"
  | "postgresql" => "postgres"
  | "mysql" => "mysql"
  | "mssql" => "tsql"
  | "tsql" => "tsql"
  | d => d

/-- The dialect handed to `lineage`: an empty name counts as none. -/
def lineageDialect (dialect : Option String) : Option String :=
  (dialect.filter (· ≠ "")).map sqlglotDialect

/-- `_replace_lineage_placeholders`. -/
def replaceLineagePlaceholders (sql : String) : Option String → String
  | some "postgres" | some "postgresql" =>
    String.ofList (replaceOutsideStringsRegex (subBindTokens "NULL".toList) sql.toList)
  | some "mysql" => String.ofList (replaceOutsideStrings "%s".toList "NULL".toList sql.toList)
  | some "mssql" | some "tsql" =>
    String.ofList (replaceOutsideStrings "?".toList "NULL".toList sql.toList)
  | _ => sql

/-- `_MASK_TOKEN`. -/
def maskToken : String := "***"

/-- `_COLUMN_MASK_CONFIG_INVALID`. -/
def columnMaskConfigInvalid : String := "column_mask_config_invalid"

section Apply
variable (env : LineageEnv) (lower : String → String)

/-- `_projection_references_masked_column`. -/
def projectionReferencesMaskedColumn (sql outputColumn : String) (masked : List String)
    (dialect : Option String) : Bool :=
  match env.lineage outputColumn (replaceLineagePlaceholders sql dialect)
    (lineageDialect dialect) with
  | none => true
  | some node => node.names.any fun name => masked.contains (lower (lastComponent name))

/-- The configured names, lower-cased. -/
def masksByName : List ColumnMask → Except String (List String)
  | [] => .ok []
  | entry :: entries =>
    if entry.table = "" then .error columnMaskConfigInvalid
    else if entry.columns.any (· == "") then .error columnMaskConfigInvalid
    else (masksByName entries).map fun names => entry.columns.map lower ++ names

/-- Whether a result column is masked. -/
def isMasked (masked : List String) (sql : String) (dialect : Option String) (c : ColumnMeta) :
    Bool :=
  masked.contains (lower c.name) ||
    projectionReferencesMaskedColumn env lower sql c.name masked dialect

/-- The positions of the masked columns. -/
def maskIndices (flags : List Bool) : List Nat :=
  (flags.zipIdx.filter (·.1)).map (·.2)

/-- `apply_column_masks`. -/
def applyColumnMasks {α : Type} (result : QueryResult α) (columnMasks : Option (List ColumnMask))
    (dialect : Option String) : Except String (QueryResult α) :=
  (masksByName lower (columnMasks.getD [])).map fun masked =>
    if masked.isEmpty then
      { result with columns := result.columns.map fun c => { c with masked := false } }
    else
      let flags := result.columns.map (isMasked env lower masked result.generatedSql dialect)
      let indices := maskIndices flags
      { result with
        columns := result.columns.map fun c =>
          { c with masked := isMasked env lower masked result.generatedSql dialect c }
        rows := if indices.isEmpty then result.rows
          else result.rows.map fun row =>
            indices.foldl (fun r i => r.set i (.text maskToken)) row }

/-! ## What masking should do -/

/-- The projection depends on a column with a configured name. -/
def Projection.DependsOn (masked : List String) (p : Projection) : Prop :=
  ∃ column ∈ p.lineage.columns, lower column.name ∈ masked

/-- The lineage mentions a configured name: the name of a derived column, or that of
a physical column, with its quotes if it has any. -/
def Projection.Mentions (masked : List String) (p : Projection) : Prop :=
  (∃ name ∈ p.lineage.derivedNames, lower (lastComponent name) ∈ masked) ∨
    ∃ column ∈ p.lineage.columns,
      lower (if column.quoted then lastComponent column.rendered else column.name) ∈ masked

/-- The projections of the statement itself, as the database evaluates them. -/
def statementProjections (sql : String) (dialect : Option String) : List Projection :=
  env.projections (lineageDialect dialect) sql

/-- An output name can be followed to a configured one.  `lineage` reads the statement
with `NULL` for its bind tokens, and answers with the first projection of the name: if it
answers at all, that projection mentions a configured name. -/
def Traceable (masked : List String) (sql : String) (dialect : Option String) (name : String) :
    Prop :=
  ∀ q, env.raises (lineageDialect dialect) (replaceLineagePlaceholders sql dialect) name = false →
    env.firstNamed (lineageDialect dialect) (replaceLineagePlaceholders sql dialect) name = some q →
    q.Mentions lower masked

variable {α : Type}

/-- Every position that depends on a configured column is masked. -/
def Sound (result out : QueryResult α) (masked : List String) (dialect : Option String) : Prop :=
  ∀ (i : Nat) (p : Projection),
    (statementProjections env result.generatedSql dialect)[i]? = some p →
    p.DependsOn lower masked →
    (∃ c, out.columns[i]? = some c ∧ c.masked = true) ∧
      ∀ row ∈ out.rows, row[i]? = some (.text "***")

/-- Nothing else changes. -/
structure Frame (result out : QueryResult α) : Prop where
  unmasked : ∀ (i : Nat) (c : ColumnMeta), out.columns[i]? = some c → c.masked = false →
    out.rows.map (·[i]?) = result.rows.map (·[i]?)
  rows : out.rows.map (·.length) = result.rows.map (·.length)
  columns : out.columns.map (fun c => (c.name, c.type)) =
    result.columns.map (fun c => (c.name, c.type))
  rest : { out with columns := result.columns, rows := result.rows } = result

/-! ## Lemmas -/

mutual

/-- The names a walk yields are those of derived columns and the rendered ones. -/
theorem LineageNode.mem_names (name : String) : ∀ n : LineageNode,
    name ∈ n.names ↔ name ∈ n.derivedNames ∨ ∃ c ∈ n.columns, c.rendered = name
  | .leaf column => by
    simp [LineageNode.names, LineageNode.derivedNames, LineageNode.columns, eq_comm]
  | .node n children => by
    simp only [LineageNode.names, LineageNode.derivedNames, LineageNode.columns, List.mem_cons]
    rw [LineageNode.mem_namesOfAll name children, or_assoc]

theorem LineageNode.mem_namesOfAll (name : String) : ∀ ns : List LineageNode,
    name ∈ namesOfAll ns ↔ name ∈ derivedNamesOfAll ns ∨ ∃ c ∈ columnsOfAll ns, c.rendered = name
  | [] => by
    simp [LineageNode.namesOfAll, LineageNode.derivedNamesOfAll, LineageNode.columnsOfAll]
  | n :: ns => by
    simp only [LineageNode.namesOfAll, LineageNode.derivedNamesOfAll, LineageNode.columnsOfAll,
      List.mem_append]
    rw [LineageNode.mem_names name n, LineageNode.mem_namesOfAll name ns]
    constructor
    · rintro ((h | ⟨c, hc, h⟩) | (h | ⟨c, hc, h⟩))
      · exact Or.inl (Or.inl h)
      · exact Or.inr ⟨c, Or.inl hc, h⟩
      · exact Or.inl (Or.inr h)
      · exact Or.inr ⟨c, Or.inr hc, h⟩
    · rintro ((h | h) | ⟨c, hc | hc, h⟩)
      · exact Or.inl (Or.inl h)
      · exact Or.inr (Or.inl h)
      · exact Or.inl (Or.inr ⟨c, hc, h⟩)
      · exact Or.inr (Or.inr ⟨c, hc, h⟩)

end

/-- The comparison the code makes, node by node, finds what the lineage mentions:
splitting the rendered text at its last dot recovers an unquoted name. -/
theorem any_names_iff (masked : List String) (p : Projection) :
    (p.lineage.names.any fun name => masked.contains (lower (lastComponent name))) = true ↔
      p.Mentions lower masked := by
  have hcol : ∀ c : LineageColumn,
      lower (if c.quoted then lastComponent c.rendered else c.name) =
        lower (lastComponent c.rendered) := by
    intro c
    cases hq : c.quoted with
    | true => rfl
    | false => rw [c.rendered_unquoted hq]; rfl
  simp only [List.any_eq_true, List.contains_eq_mem, decide_eq_true_eq, LineageNode.mem_names,
    Projection.Mentions, hcol]
  constructor
  · rintro ⟨name, h | ⟨c, hc, rfl⟩, hm⟩
    · exact Or.inl ⟨name, h, hm⟩
    · exact Or.inr ⟨c, hc, hm⟩
  · rintro (⟨name, h, hm⟩ | ⟨c, hc, hm⟩)
    · exact ⟨name, Or.inl h, hm⟩
    · exact ⟨c.rendered, Or.inr ⟨c, hc, rfl⟩, hm⟩

theorem mem_maskIndices {flags : List Bool} {i : Nat} :
    i ∈ maskIndices flags ↔ flags[i]? = some true := by
  simp only [maskIndices, List.mem_map, List.mem_filter, Prod.exists]
  constructor
  · rintro ⟨b, j, ⟨hmem, hb⟩, rfl⟩
    rw [List.mem_zipIdx_iff_getElem?] at hmem
    rw [hmem]
    simpa using hb
  · intro h
    exact ⟨true, i, ⟨List.mem_zipIdx_iff_getElem?.mpr h, rfl⟩, rfl⟩

theorem getElem?_foldl_set (indices : List Nat) (row : List (Cell α)) (v : Cell α) (i : Nat) :
    (indices.foldl (fun r j => r.set j v) row)[i]? =
      if i ∈ indices ∧ i < row.length then some v else row[i]? := by
  induction indices generalizing row with
  | nil => simp
  | cons j js ih =>
    rw [List.foldl_cons, ih, List.length_set, List.getElem?_set]
    by_cases hlen : i < row.length
    · by_cases hjs : i ∈ js
      · simp [hjs, hlen]
      · by_cases hij : j = i
        · subst hij
          simp [hjs, hlen]
        · simp [hjs, hij, Ne.symm hij]
    · by_cases hij : j = i
      · subst hij
        simp [hlen]
      · simp [hlen, hij]

/-- What a row becomes: exactly the flagged positions are overwritten. -/
theorem getElem?_maskRow {flags : List Bool} {row : List (Cell α)} (i : Nat)
    (hlen : row.length = flags.length) :
    ((maskIndices flags).foldl (fun r j => r.set j (.text maskToken)) row)[i]? =
      if flags[i]? = some true then some (.text maskToken) else row[i]? := by
  rw [getElem?_foldl_set]
  by_cases h : flags[i]? = some true
  · have hi : i < row.length := by
      rw [hlen]
      exact (List.getElem?_eq_some_iff.mp h).1
    rw [if_pos ⟨mem_maskIndices.mpr h, hi⟩, if_pos h]
  · rw [if_neg fun hm => h (mem_maskIndices.mp hm.1), if_neg h]

theorem length_foldl_set (indices : List Nat) (row : List (Cell α)) (v : Cell α) :
    (indices.foldl (fun r j => r.set j v) row).length = row.length := by
  induction indices generalizing row with
  | nil => rfl
  | cons j js ih => rw [List.foldl_cons, ih, List.length_set]

/-! ## The result of masking -/

/-- Whether a column of the result is flagged. -/
def flagged (masked : List String) (sql : String) (dialect : Option String) (c : ColumnMeta) :
    Bool :=
  !masked.isEmpty && isMasked env lower masked sql dialect c

/-- The result with its flagged columns marked and overwritten. -/
def masking (result : QueryResult α) (masked : List String) (dialect : Option String) :
    QueryResult α :=
  { result with
    columns := result.columns.map fun c =>
      { c with masked := flagged env lower masked result.generatedSql dialect c }
    rows := result.rows.map fun row =>
      (maskIndices (result.columns.map
        (flagged env lower masked result.generatedSql dialect))).foldl
        (fun r i => r.set i (.text maskToken)) row }

/-- `apply_column_masks` marks and overwrites the flagged columns, whichever of its
three paths it takes. -/
theorem applyColumnMasks_eq {result : QueryResult α} {columnMasks : Option (List ColumnMask)}
    {dialect : Option String} {masked : List String}
    (hmasks : masksByName lower (columnMasks.getD []) = .ok masked) :
    applyColumnMasks env lower result columnMasks dialect =
      .ok (masking env lower result masked dialect) := by
  rw [applyColumnMasks, hmasks]
  cases hempty : masked.isEmpty with
  | true =>
    have hflag : flagged env lower masked result.generatedSql dialect = fun _ => false := by
      funext c
      simp [flagged, hempty]
    have hnone : maskIndices (result.columns.map fun _ => false) = [] := by
      refine List.eq_nil_iff_forall_not_mem.mpr fun i hi => ?_
      rw [mem_maskIndices, List.getElem?_map] at hi
      cases hc : result.columns[i]? <;> simp [hc] at hi
    simp only [Except.map, hempty, if_true, masking, hflag, hnone, List.foldl_nil, List.map_id']
  | false =>
    have hflags : flagged env lower masked result.generatedSql dialect =
        isMasked env lower masked result.generatedSql dialect := by
      funext c
      simp [flagged, hempty]
    simp only [Except.map, hempty, masking, hflags, Bool.false_eq_true, if_false]
    split
    · rename_i hnone
      rw [List.isEmpty_iff.mp hnone]
      simp
    · rfl

/-- The frame: unflagged positions, widths, names and the other fields. -/
theorem masking_frame {result : QueryResult α} {masked : List String} {dialect : Option String}
    (hrows : ∀ row ∈ result.rows, row.length = result.columns.length) :
    Frame result (masking env lower result masked dialect) := by
  refine ⟨fun i c hc hm => ?_, ?_, ?_, rfl⟩
  · have hflag : ¬ (result.columns.map
        (flagged env lower masked result.generatedSql dialect))[i]? = some true := by
      rw [masking, List.getElem?_map, Option.map_eq_some_iff] at hc
      obtain ⟨d, hd, rfl⟩ := hc
      rw [List.getElem?_map, hd]
      simpa using hm
    rw [masking, List.map_map]
    refine List.map_congr_left fun row hrow => ?_
    rw [Function.comp_apply, getElem?_maskRow i (by rw [hrows row hrow, List.length_map]),
      if_neg hflag]
  · rw [masking, List.map_map]
    exact List.map_congr_left fun row _ => length_foldl_set ..
  · rw [masking, List.map_map]
    rfl

/-- A position is masked in the result exactly if its column is flagged. -/
theorem masking_masked_iff {result : QueryResult α} {masked : List String}
    {dialect : Option String} {i : Nat} {c : ColumnMeta} (hc : result.columns[i]? = some c)
    (hrows : ∀ row ∈ result.rows, row.length = result.columns.length) :
    ((∃ d, (masking env lower result masked dialect).columns[i]? = some d ∧ d.masked = true) ∧
        ∀ row ∈ (masking env lower result masked dialect).rows, row[i]? = some (.text "***")) ↔
      flagged env lower masked result.generatedSql dialect c = true := by
  have hcol : (masking env lower result masked dialect).columns[i]? =
      some { c with masked := flagged env lower masked result.generatedSql dialect c } := by
    rw [masking, List.getElem?_map, hc]
    rfl
  constructor
  · rintro ⟨⟨d, hd, hm⟩, -⟩
    obtain rfl := Option.some.inj (hcol.symm.trans hd)
    exact hm
  · intro hf
    refine ⟨⟨_, hcol, hf⟩, fun row hrow => ?_⟩
    obtain ⟨r, hr, rfl⟩ := List.mem_map.mp hrow
    rw [getElem?_maskRow i (by rw [hrows r hr, List.length_map]), List.getElem?_map, hc,
      Option.map_some, hf, if_pos rfl]
    rfl

/-- When a column is flagged: its name is configured, or can be followed to a configured
one. -/
theorem flagged_iff {masked : List String} {sql : String} {dialect : Option String}
    {c : ColumnMeta} (hne : masked ≠ []) :
    flagged env lower masked sql dialect c = true ↔
      lower c.name ∈ masked ∨ Traceable env lower masked sql dialect c.name := by
  have hempty : masked.isEmpty = false := by simpa using hne
  rw [flagged, hempty, Bool.not_false, Bool.true_and, isMasked, Bool.or_eq_true,
    List.contains_eq_mem, decide_eq_true_eq, projectionReferencesMaskedColumn,
    LineageEnv.lineage, Traceable]
  refine or_congr_right ?_
  by_cases hraises : env.raises (lineageDialect dialect) (replaceLineagePlaceholders sql dialect)
      c.name = true
  · simp [hraises]
  · rw [if_neg hraises]
    cases hfirst : env.firstNamed (lineageDialect dialect)
        (replaceLineagePlaceholders sql dialect) c.name with
    | none => simp
    | some q =>
      simp only [Option.map_some, any_names_iff, Bool.eq_false_iff.mpr hraises]
      simp

/-- The plain case: no bind token is replaced, no other projection has the name, and the
projection depends on an unquoted column with a configured name. -/
theorem traceable_of_distinct {masked : List String} {sql : String} {dialect : Option String}
    {name : String} {p : Projection} (hp : p ∈ statementProjections env sql dialect)
    (htokens : replaceLineagePlaceholders sql dialect = sql)
    (hname : p.outputName = env.normalize (lineageDialect dialect) name)
    (hdistinct : ((statementProjections env sql dialect).map (·.outputName)).Nodup)
    {column : LineageColumn} (hcolumn : column ∈ p.lineage.columns)
    (hunquoted : column.quoted = false) (hmasked : lower column.name ∈ masked) :
    Traceable env lower masked sql dialect name := by
  intro q _ hq
  rw [htokens] at hq
  have hqname : q.outputName = p.outputName := by
    rw [hname]
    simpa using List.find?_some hq
  have hqp : q = p := List.inj_on_of_nodup_map hdistinct (List.mem_of_find?_eq_some hq) hp hqname
  rw [hqp]
  exact .inr ⟨column, hcolumn, by rw [hunquoted]; exact hmasked⟩

end Apply

/-! ## A duplicate output name -/

/-- An unquoted column of a table. -/
def plainColumn (table name : String) (h : lastComponent (table ++ "." ++ name) = name) :
    LineageColumn :=
  ⟨name, false, table ++ "." ++ name, fun _ => h⟩

/-- The projections of `SELECT id AS first, ssn AS second FROM users`. -/
def idAndSsn (first second : String) : List Projection :=
  [⟨first, .node first [.leaf (plainColumn "users" "id" (by decide))]⟩,
   ⟨second, .node second [.leaf (plainColumn "users" "ssn" (by decide))]⟩]

/-- `lineage` over fixed projections, without normalization. -/
def lineageOver (projections : List Projection) : LineageEnv where
  projections _ _ := projections
  normalize _ name := name
  raises _ _ name := !projections.any (·.outputName == name)

/-- One row of a result with two columns. -/
def twoColumns (sql first second : String) : QueryResult Unit where
  attemptId := "a"
  sessionId := none
  question := "q"
  generatedSql := sql
  columns := [⟨first, "text", false⟩, ⟨second, "text", false⟩]
  rows := [[.text "1", .text "078-05-1120"]]
  rowCount := 1
  attemptNumber := 1
  isLastAutoRetry := false
  acceptedQueryId := none

/-- The first projection depends on no configured column, the second does. -/
theorem idAndSsn_dependsOn {first second : String} {i : Nat} {p : Projection}
    (hp : (idAndSsn first second)[i]? = some p) (h : p.DependsOn lowerAscii ["ssn"]) : i = 1 := by
  obtain ⟨c, hc, hm⟩ := h
  match i with
  | 0 =>
    obtain rfl := Option.some.inj hp
    obtain rfl := List.mem_singleton.mp hc
    exact absurd hm (by decide)
  | 1 => rfl
  | i + 2 => cases hp

/-- The column `acct$1` and what `lineage` takes it for. -/
def accountLineage : LineageEnv where
  projections _ sql :=
    if sql = "SELECT acct$1 AS x FROM users" then
      [⟨"x", .node "x" [.leaf (plainColumn "users" "acct$1" (by decide))]⟩]
    else [⟨"x", .node "x" [.leaf (plainColumn "users" "acctNULL" (by decide))]⟩]
  normalize _ name := name
  raises _ _ _ := false

-- A bind token inside a name: the statement depends on `acct$1`, `lineage` answers with
-- `acctNULL`.
example : isMasked accountLineage lowerAscii ["acct$1"] "SELECT acct$1 AS x FROM users"
    (some "postgres") ⟨"x", "text", false⟩ = false := by decide +kernel

end QueryCraft
