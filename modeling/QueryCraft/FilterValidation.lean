import QueryCraft.Placeholders
import QueryCraft.RowFilters
import QueryCraft.SyntaxTree

/-! # Validating the text of a row filter

`validate_row_filter` replaces the placeholders of a filter by sentinel identifiers, parses
`SELECT 1 WHERE <filter>` and looks for nodes it does not want.  A filter that passes should be
a condition on the rows of its table and nothing else (`IsWhole`), since injection keeps the
condition of the `WHERE` and drops whatever else the parse holds.

The checks list what is forbidden.  They say nothing about clauses after the condition, such as
`ORDER BY`, nor about the nodes that `passedOver` describes.  `accepted_filter_whole_iff` shows
that these are the only ways in which a filter that passes can be more than a condition.
-/
namespace QueryCraft

/-- The classes of `sqlglot.exp` that the policy code tells apart. -/
inductive NodeKind where
  | select | union | intersect | except | cte
  | insert | update | delete | merge | create | drop | alter | truncateTable | command | copy
  | set
  | whereClause | subquery | values
  | column (catalog db table name : String)
  | literal (isString : Bool) (text : String)
  | parameter
  /-- A subclass of `exp.Func`, by its name. -/
  | func (name : String)
  | other (name : String)
deriving DecidableEq, Repr

namespace NodeKind

/-- `_DANGEROUS_TOPLEVEL`. -/
def isDangerous : NodeKind → Bool
  | .insert | .update | .delete | .merge | .create | .drop | .alter | .truncateTable
  | .command | .copy | .set => true
  | _ => false

/-- `exp.Union`, `exp.Intersect` or `exp.Except`. -/
def isSetOp : NodeKind → Bool
  | .union | .intersect | .except => true
  | _ => false

/-- A query, or a list of rows in place of one. -/
def isQuery : NodeKind → Bool
  | .select | .union | .intersect | .except | .subquery | .values => true
  | _ => false

end NodeKind

/-- A node of a parse.  The parser does not say which nodes were written as calls; the purpose
of the checks depends on it, since some calls become nodes of an operator's class. -/
structure FilterNode where
  kind : NodeKind
  called : Bool := false
deriving DecidableEq, Repr

/-- An `exp.Expression`. -/
abbrev FilterTree := SyntaxTree FilterNode

/-- `sqlglot.parse` with a dialect: `none` where it raises; an empty statement is `None`. -/
abbrev SqlParser := String → List Char → Option (List (Option FilterTree))

open SyntaxTree

/-! ## The checks -/

/-- `_contains_comment_outside_string`, with the quotes that are open. -/
def containsComment (mysql : Bool) (inSingle inDouble : Bool) : List Char → Bool
  | [] => false
  | c :: rest =>
    if c = '\'' ∧ inDouble = false then
      match rest with
      | '\'' :: rest' => containsComment mysql inSingle inDouble rest'
      | rest => containsComment mysql (!inSingle) inDouble rest
    else if c = '"' ∧ inSingle = false then containsComment mysql inSingle (!inDouble) rest
    else if inSingle || inDouble then containsComment mysql inSingle inDouble rest
    else if c = '-' ∧ rest.head? = some '-' then true
    else if c = '/' ∧ rest.head? = some '*' then true
    else if mysql ∧ c = '#' then true
    else containsComment mysql inSingle inDouble rest

/-- The identifier in place of a placeholder. -/
def sentinel (key : String) : List Char := sentinelStart ++ key.toList ++ "__".toList

/-- The filter with sentinels in place of its placeholders; other keys are refused. -/
def processedSql (filterSql : List Char) : Option (List Char) :=
  if (placeholderKeys (filterPieces filterSql)).all allowedPlaceholderKeys.contains then
    some (substitute sentinel (filterPieces filterSql))
  else none

/-- `SELECT 1 WHERE <text>`. -/
def wrappedSql (text : List Char) : List Char := "SELECT 1 WHERE ".toList ++ text

/-- The statement that the validator parses, if it is a single one. -/
def filterStatement (parse : SqlParser) (dialect : String) (filterSql : List Char) :
    Option FilterTree :=
  match processedSql filterSql with
  | none => none
  | some text =>
    match parse dialect (wrappedSql text) with
    | some [some stmt] => some stmt
    | _ => none

section Checks
variable (lower : String → String)

/-- The check of a column reference. -/
def columnAllowed (target : SchemaTable) : NodeKind → Bool
  | .column _ _ table name =>
    looksLikeSentinel name ||
      ((table == "" || lower table == targetName lower target) &&
        (target.columns.map lower).contains (lower name))
  | _ => true

/-- The check of a function call. -/
def functionAllowed : NodeKind → Bool
  | .func name => nonFunctionOps.contains name
  | _ => true

/-- A place holds the body of a common table expression. -/
def isCteBody (place : FilterNode × String) : Bool :=
  place.1.kind == .cte && place.2 == "this"

/-- The checks of the parsed statement. -/
def statementAllowed (target : SchemaTable) (stmt : FilterTree) : Bool :=
  decide (stmt.cls.kind = .select) &&
    stmt.walk.all (fun n => !n.cls.kind.isDangerous) &&
    stmt.walk.all (fun n => !n.cls.kind.isSetOp) &&
    stmt.places.all (fun p => !decide (p.2.cls.kind = .select) || isCteBody p.1) &&
    stmt.walk.all (fun n => functionAllowed n.cls.kind) &&
    stmt.walk.all (fun n => columnAllowed lower target n.cls.kind)

/-- `validate_row_filter`; `false` stands for `ValueError("filter_validation_failed")`. -/
def validateRowFilterText (parse : SqlParser) (schema : List SchemaTable) (tableName : String)
    (dialect : String) (filterSql : List Char) : Bool :=
  if filterSql.all isSpace then false
  else if containsComment (lowerAscii dialect == "mysql") false false filterSql then false
  else
    match findPolicyTable lower schema tableName with
    | none => false
    | some target =>
      match filterStatement parse dialect filterSql with
      | none => false
      | some stmt => statementAllowed lower target stmt

/-! ## What a filter should be -/

/-- The projection `1`. -/
def one : FilterTree := .node ⟨.literal false "1", false⟩ .nil

/-- `exp.Where`. -/
def whereNode (condition : FilterTree) : FilterTree :=
  .node ⟨.whereClause, false⟩ (.cons "this" condition .nil)

/-- The expression that injection keeps, `args["where"].this`. -/
def keptCondition (stmt : FilterTree) : Option FilterTree :=
  (stmt.arg? "where").bind (arg? "this")

/-- A column of the target table, qualified by its name or its schema and its name or not at
all. -/
def isTargetColumn (target : SchemaTable) : NodeKind → Bool
  | .column catalog db table name =>
    catalog == "" && (db == "" || lower db == (target.identity lower).1) &&
      (table == "" || lower table == targetName lower target) &&
      (target.columns.map lower).contains (lower name)
  | _ => false

/-- A sentinel that stands for a placeholder. -/
def isSentinel : NodeKind → Bool
  | .column catalog db table name =>
    catalog == "" && db == "" && table == "" &&
      allowedPlaceholderKeys.any fun key => name.toList == sentinel key
  | _ => false

/-- A column reference. -/
def isColumn : NodeKind → Bool
  | .column _ _ _ _ => true
  | _ => false

/-- What a condition consists of: no queries, no calls, and no other columns. -/
structure IsCondition (target : SchemaTable) (condition : FilterTree) : Prop where
  no_query : ∀ n ∈ condition.walk, n.cls.kind.isQuery = false
  no_call : ∀ n ∈ condition.walk, n.cls.called = false
  columns : ∀ n ∈ condition.walk, isColumn n.cls.kind = true →
    isTargetColumn lower target n.cls.kind = true ∨ isSentinel n.cls.kind = true

/-- The statement is `SELECT 1 WHERE <condition>` and nothing else. -/
structure IsWhole (target : SchemaTable) (stmt condition : FilterTree) : Prop where
  args : ∀ a ∈ stmt.children, a = ("expressions", one) ∨ a = ("where", whereNode condition)
  condition : IsCondition lower target condition

/-- The parser reads the text that is put before a filter as what it is; what follows the
condition becomes further arguments of the `SELECT`. -/
structure ReadsWrapper (parse : SqlParser) : Prop where
  select : ∀ {dialect text stmt}, parse dialect (wrappedSql text) = some [some stmt] →
    stmt.cls.kind = .select → ∃ condition, keptCondition stmt = some condition ∧
      ∀ a ∈ stmt.children, (a.1 = "expressions" → a.2 = one) ∧
        (a.1 = "where" → a.2 = whereNode condition)

/-! ## What the checks pass over -/

/-- A node that the checks let through although no condition should have it: rows in place of
a query, a call that became a node of an operator's class, a column that looks like a sentinel
and is none, or one with the qualifier of another schema. -/
def passedOver (target : SchemaTable) (n : FilterNode) : Bool :=
  match n.kind with
  | .subquery | .values => true
  | .func name => n.called && nonFunctionOps.contains name
  | .column catalog db table name =>
    n.called ||
      (if looksLikeSentinel name then
          !isSentinel (.column catalog db table name) &&
            !isTargetColumn lower target (.column catalog db table name)
        else catalog != "" || (db != "" && lower db != (target.identity lower).1))
  | _ => n.called

/-- There is nothing in the text that the checks pass over. -/
structure NothingPassedOver (target : SchemaTable) (stmt condition : FilterTree) : Prop where
  clauses : ∀ a ∈ stmt.children, a.1 = "expressions" ∨ a.1 = "where"
  nodes : ∀ n ∈ condition.walk, passedOver lower target n.cls = false
  bodies : ∀ p ∈ condition.places, p.2.cls.kind = .select → isCteBody p.1 = false

end Checks

section Theorems
variable {lower : String → String} {parse : SqlParser} {target : SchemaTable}
  {stmt condition : FilterTree}

theorem validateRowFilterText_iff {schema : List SchemaTable} {tableName dialect : String}
    {filterSql : List Char} :
    validateRowFilterText lower parse schema tableName dialect filterSql = true ↔
      filterSql.all isSpace = false ∧
      containsComment (lowerAscii dialect == "mysql") false false filterSql = false ∧
      ∃ target stmt, findPolicyTable lower schema tableName = some target ∧
        filterStatement parse dialect filterSql = some stmt ∧
        statementAllowed lower target stmt = true := by
  unfold validateRowFilterText
  cases filterSql.all isSpace with
  | true => simp
  | false =>
    cases containsComment (lowerAscii dialect == "mysql") false false filterSql with
    | true => simp
    | false =>
      cases findPolicyTable lower schema tableName with
      | none => simp
      | some target =>
        cases filterStatement parse dialect filterSql with
        | none => simp
        | some stmt => simp

/-- What the checks establish. -/
theorem statementAllowed_iff : statementAllowed lower target stmt = true ↔
    stmt.cls.kind = .select ∧
    (∀ n ∈ stmt.walk, n.cls.kind.isDangerous = false) ∧
    (∀ n ∈ stmt.walk, n.cls.kind.isSetOp = false) ∧
    (∀ p ∈ stmt.places, p.2.cls.kind = .select → isCteBody p.1 = true) ∧
    (∀ n ∈ stmt.walk, functionAllowed n.cls.kind = true) ∧
    (∀ n ∈ stmt.walk, columnAllowed lower target n.cls.kind = true) := by
  simp only [statementAllowed, Bool.and_eq_true, decide_eq_true_eq, List.all_eq_true,
    Bool.not_eq_true', Bool.or_eq_true, decide_eq_false_iff_not, and_assoc, imp_iff_not_or]

theorem parse_of_filterStatement {dialect : String} {filterSql : List Char}
    (h : filterStatement parse dialect filterSql = some stmt) :
    ∃ text, processedSql filterSql = some text ∧
      parse dialect (wrappedSql text) = some [some stmt] := by
  unfold filterStatement at h
  split at h
  · cases h
  · rename_i text htext
    split at h
    · rename_i hparse
      cases h
      exact ⟨text, htext, hparse⟩
    · cases h

theorem looksLikeSentinel_of_isSentinel {catalog db table name : String}
    (h : isSentinel (.column catalog db table name) = true) : looksLikeSentinel name = true := by
  simp only [isSentinel, Bool.and_eq_true, List.any_eq_true, beq_iff_eq] at h
  obtain ⟨-, key, -, hname⟩ := h
  rw [looksLikeSentinel, hname, sentinel, List.append_assoc, List.isPrefixOf_iff_prefix]
  exact List.prefix_append _ _

/-- The condition stands under the `WHERE` of the statement. -/
theorem mem_places_of_keptCondition (hkept : keptCondition stmt = some condition)
    (hargs : ∀ a ∈ stmt.children, a.1 = "where" → a.2 = whereNode condition) :
    ((⟨.whereClause, false⟩, "this"), condition) ∈ stmt.places := by
  obtain ⟨w, hw, -⟩ := Option.bind_eq_some_iff.mp hkept
  have hmem := mem_children_of_arg? hw
  have hnode : w = whereNode condition := hargs _ hmem rfl
  have hwalk : w ∈ stmt.walk := mem_walk_of_arg? hw
  apply places_subset_of_mem_walk hwalk
  rw [hnode]
  exact mem_places_of_mem_children (n := whereNode condition) List.mem_cons_self

/-- Of the nodes that a condition should not have, the checks keep out all but those they
pass over. -/
theorem isCondition_of_allowed (hallowed : statementAllowed lower target stmt = true)
    (hplace : ((⟨.whereClause, false⟩, "this"), condition) ∈ stmt.places)
    (hnodes : ∀ n ∈ condition.walk, passedOver lower target n.cls = false)
    (hbodies : ∀ p ∈ condition.places, p.2.cls.kind = .select → isCteBody p.1 = false) :
    IsCondition lower target condition := by
  obtain ⟨-, -, hsetOp, hselect, hfunc, hcolumn⟩ := statementAllowed_iff.mp hallowed
  have hcond : condition ∈ stmt.walk := mem_walk_iff_places.mpr (.inr ⟨_, hplace⟩)
  have hwalk : ∀ n ∈ condition.walk, n ∈ stmt.walk := fun n hn => walk_trans hcond hn
  refine ⟨fun n hn => ?_, fun n hn => ?_, fun n hn hcol => ?_⟩
  · have hover := hnodes n hn
    have hset := hsetOp n (hwalk n hn)
    cases hkind : n.cls.kind with
    | select =>
      -- a nested `SELECT` is the body of a common table expression
      rcases mem_walk_iff_places.mp hn with rfl | ⟨p, hp⟩
      · have hbody := hselect _ hplace hkind
        simp [isCteBody] at hbody
      · have hbody := hselect _ (places_subset_of_mem_walk hcond hp) hkind
        rw [hbodies _ hp hkind] at hbody
        cases hbody
    | union => simp [hkind, NodeKind.isSetOp] at hset
    | intersect => simp [hkind, NodeKind.isSetOp] at hset
    | except => simp [hkind, NodeKind.isSetOp] at hset
    | subquery => simp [passedOver, hkind] at hover
    | values => simp [passedOver, hkind] at hover
    | _ => rfl
  · have hover := hnodes n hn
    have hname := hfunc n (hwalk n hn)
    unfold passedOver at hover
    cases hkind : n.cls.kind with
    | func name =>
      rw [hkind] at hover hname
      simp only [functionAllowed] at hname
      simpa only [hname, Bool.and_true] using hover
    | column catalog db table name =>
      rw [hkind] at hover
      exact (Bool.or_eq_false_iff.mp hover).1
    | subquery => simp [hkind] at hover
    | values => simp [hkind] at hover
    | _ => simpa only [hkind] using hover
  · have hover := hnodes n hn
    have hallowed := hcolumn n (hwalk n hn)
    cases hkind : n.cls.kind with
    | column catalog db table name =>
      simp only [passedOver, hkind, Bool.or_eq_false_iff] at hover
      simp only [columnAllowed, hkind, Bool.or_eq_true, Bool.and_eq_true] at hallowed
      by_cases hlooks : looksLikeSentinel name = true
      · have hover := hover.2
        rw [if_pos hlooks, Bool.and_eq_false_iff, Bool.not_eq_false', Bool.not_eq_false'] at hover
        exact hover.symm
      · left
        have hover := hover.2
        rw [if_neg hlooks, Bool.or_eq_false_iff, bne_eq_false_iff_eq, Bool.and_eq_false_iff,
          bne_eq_false_iff_eq, bne_eq_false_iff_eq] at hover
        obtain ⟨htable, hcolumns⟩ := hallowed.resolve_left hlooks
        simp only [isTargetColumn, Bool.and_eq_true, Bool.or_eq_true, beq_iff_eq]
        exact ⟨⟨⟨hover.1, hover.2⟩, by simpa using htable⟩, hcolumns⟩
    | _ => simp [hkind, isColumn] at hcol

/-- A node of a condition is none that the checks pass over. -/
theorem passedOver_of_isCondition (h : IsCondition lower target condition) {n : FilterTree}
    (hn : n ∈ condition.walk) : passedOver lower target n.cls = false := by
  have hquery := h.no_query n hn
  have hcall := h.no_call n hn
  have hcolumn := h.columns n hn
  unfold passedOver
  cases hkind : n.cls.kind with
  | subquery => simp [hkind, NodeKind.isQuery] at hquery
  | values => simp [hkind, NodeKind.isQuery] at hquery
  | func name => simp [hcall]
  | column catalog db table name =>
    rw [hkind] at hcolumn
    simp only [hcall, Bool.false_or]
    split
    · rcases hcolumn rfl with hmem | hmem
      · simp [hmem]
      · simp [hmem]
    · rename_i hlooks
      rcases hcolumn rfl with hmem | hmem
      · simp only [isTargetColumn, Bool.and_eq_true, Bool.or_eq_true, beq_iff_eq] at hmem
        obtain ⟨⟨⟨rfl, hdb⟩, -⟩, -⟩ := hmem
        rcases hdb with rfl | hdb
        · simp
        · simp [hdb]
      · exact absurd (looksLikeSentinel_of_isSentinel hmem) hlooks
  | _ => simpa only using hcall

/-- A filter that passes is a whole condition if and only if the text has no clause after the
condition, and the condition nothing that the checks pass over. -/
theorem accepted_filter_whole_iff (hparse : ReadsWrapper parse) {schema : List SchemaTable}
    {tableName dialect : String} {filterSql : List Char}
    (hvalid : validateRowFilterText lower parse schema tableName dialect filterSql = true) :
    ∃ target stmt condition, findPolicyTable lower schema tableName = some target ∧
      filterStatement parse dialect filterSql = some stmt ∧
      keptCondition stmt = some condition ∧
      (IsWhole lower target stmt condition ↔ NothingPassedOver lower target stmt condition) := by
  obtain ⟨-, -, target, stmt, hfind, hstmt, hallowed⟩ := validateRowFilterText_iff.mp hvalid
  obtain ⟨text, -, htext⟩ := parse_of_filterStatement hstmt
  obtain ⟨condition, hkept, hargs⟩ :=
    hparse.select htext (statementAllowed_iff.mp hallowed).1
  refine ⟨target, stmt, condition, hfind, hstmt, hkept, fun h => ?_, fun h => ?_⟩
  · refine ⟨fun a ha => ?_, fun n hn => passedOver_of_isCondition h.condition hn,
      fun p hp hselect => ?_⟩
    · rcases h.args a ha with rfl | rfl
      · exact .inl rfl
      · exact .inr rfl
    · have hquery := h.condition.no_query p.2 (mem_walk_iff_places.mpr (.inr ⟨p.1, hp⟩))
      rw [hselect] at hquery
      cases hquery
  · refine ⟨fun a ha => ?_, isCondition_of_allowed hallowed
      (mem_places_of_keptCondition hkept fun a ha => (hargs a ha).2) h.nodes h.bodies⟩
    rcases h.clauses a ha with hkey | hkey
    · exact .inl (Prod.ext hkey ((hargs a ha).1 hkey))
    · exact .inr (Prod.ext hkey ((hargs a ha).2 hkey))

end Theorems

/-! ## A clause after the condition -/

/-- A parser that reads one text. -/
def parseOnly (sql : List Char) (stmt : FilterTree) : SqlParser := fun _ text =>
  if text = sql then some [some stmt] else none

/-- An unqualified column. -/
def columnNode (name : String) : FilterTree :=
  .node ⟨.column "" "" "" name, false⟩ (.cons "this" (.node ⟨.other "Identifier", false⟩ .nil) .nil)

/-- `left = right`. -/
def equals (left right : FilterTree) : FilterTree :=
  .node ⟨.other "EQ", false⟩ (.cons "this" left (.cons "expression" right .nil))

/-- `SELECT 1 WHERE <condition>`, with further arguments. -/
def selectOne (condition : FilterTree) (rest : SyntaxArgs FilterNode) : FilterTree :=
  .node ⟨.select, false⟩
    (.cons "expressions" one (.cons "where" (whereNode condition) rest))

/-- The `orders` table of the examples. -/
def orderRegionsSchema : List SchemaTable := [{ name := "orders", columns := ["id", "region"] }]

/-- `region = {user.role}`. -/
def roleFilter : List Char := "region = \x7buser.role\x7d".toList

/-- The parser, on the filter with its sentinel. -/
def parseRoleFilter : SqlParser :=
  parseOnly (wrappedSql "region = __ph_user_role__".toList)
    (selectOne (equals (columnNode "region") (columnNode "__ph_user_role__")) .nil)

theorem readsWrapper_parseOnly {sql : List Char} {condition : FilterTree}
    {rest : SyntaxArgs FilterNode}
    (hrest : ∀ a ∈ argPairs rest, a.1 ≠ "expressions" ∧ a.1 ≠ "where") :
    ReadsWrapper (parseOnly sql (selectOne condition rest)) where
  select := by
    intro dialect text stmt hparse _
    unfold parseOnly at hparse
    split at hparse
    · cases hparse
      refine ⟨condition, rfl, fun a ha => ?_⟩
      rcases List.mem_cons.mp ha with rfl | ha
      · exact ⟨fun _ => rfl, fun h => by simp at h⟩
      · rcases List.mem_cons.mp ha with rfl | ha
        · exact ⟨fun h => by simp at h, fun _ => rfl⟩
        · exact ⟨fun h => absurd h (hrest a ha).1, fun h => absurd h (hrest a ha).2⟩
    · cases hparse

/-- A filter with a placeholder passes and is a whole condition. -/
theorem role_filter_whole :
    validateRowFilterText lowerAscii parseRoleFilter orderRegionsSchema "orders" "postgres"
      roleFilter = true ∧
    ∃ target stmt condition, findPolicyTable lowerAscii orderRegionsSchema "orders" = some target ∧
      filterStatement parseRoleFilter "postgres" roleFilter = some stmt ∧
      keptCondition stmt = some condition ∧
      (IsWhole lowerAscii target stmt condition ↔
        NothingPassedOver lowerAscii target stmt condition) :=
  ⟨by decide +kernel,
    accepted_filter_whole_iff (readsWrapper_parseOnly (by simp [argPairs])) (by decide +kernel)⟩

/-- `region = 'eu' ORDER BY id`. -/
def orderedFilter : List Char := "region = 'eu' ORDER BY id".toList

/-- `ORDER BY id`. -/
def orderNode : FilterTree :=
  .node ⟨.other "Order", false⟩ (.cons "expressions"
    (.node ⟨.other "Ordered", false⟩ (.cons "this" (columnNode "id") .nil)) .nil)

/-- The statement around it. -/
def orderedStatement : FilterTree :=
  selectOne (equals (columnNode "region") (.node ⟨.literal true "eu", false⟩ .nil))
    (.cons "order" orderNode .nil)

/-- A filter with a clause after its condition passes, and the clause is dropped. -/
theorem ordered_filter_accepted :
    ReadsWrapper (parseOnly (wrappedSql orderedFilter) orderedStatement) ∧
    validateRowFilterText lowerAscii (parseOnly (wrappedSql orderedFilter) orderedStatement)
      orderRegionsSchema "orders" "postgres" orderedFilter = true ∧
    ∃ target stmt condition, findPolicyTable lowerAscii orderRegionsSchema "orders" = some target ∧
      filterStatement (parseOnly (wrappedSql orderedFilter) orderedStatement) "postgres"
        orderedFilter = some stmt ∧
      keptCondition stmt = some condition ∧ ¬ IsWhole lowerAscii target stmt condition := by
  refine ⟨readsWrapper_parseOnly (by simp [argPairs]), by decide +kernel, _, orderedStatement,
    equals (columnNode "region") (.node ⟨.literal true "eu", false⟩ .nil), rfl, ?_, rfl, ?_⟩
  · have hprocessed : processedSql orderedFilter = some orderedFilter := by decide +kernel
    simp [filterStatement, hprocessed, parseOnly]
  · intro h
    have horder : orderedStatement.arg? "order" = some orderNode := rfl
    rcases h.args _ (mem_children_of_arg? horder) with heq | heq
    · simp at heq
    · simp at heq

end QueryCraft
