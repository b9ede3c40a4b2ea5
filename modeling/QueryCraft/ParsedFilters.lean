import QueryCraft.FilterValidation

/-! # Parses of row filters

The checks of `validate_row_filter` are made on the parse of `SELECT 1 WHERE <filter>`, in which
sentinels stand for the placeholders.  The results about filtered statements see a filter as an
expression whose placeholders carry their values.  `Expr.tree` is the parse of such an
expression, and `validateRowFilterText_tree` says that the checks of the one are those of the
other.
-/
namespace QueryCraft

open SyntaxTree

variable {V : Type}

/-- The class of an operator or a function. -/
def classKind (isFunc : String → Bool) (name : String) : NodeKind :=
  if isFunc name then .func name else .other name

/-- `exp.Star`. -/
def starNode : FilterTree := .node ⟨.other "Star", false⟩ .nil

/-- A nested `SELECT`.  It is refused whatever it holds, which is left out. -/
def nestedSelect : FilterTree := .node ⟨.select, false⟩ .nil

section Tree
variable (isFunc : String → Bool) (key : V → String)

mutual

/-- The parse of a condition; `key` says which placeholder a value belongs to. -/
def Expr.tree : Expr V → FilterTree
  | .column table name => .node ⟨.column "" "" table name, false⟩ .nil
  | .star table =>
    if table = "" then starNode
    else .node ⟨.column "" "" table "*", false⟩ (.cons "this" starNode .nil)
  | .literal text => .node ⟨.literal (literalName text != text) (literalName text), false⟩ .nil
  | .placeholder v => .node ⟨.column "" "" "" (String.ofList (sentinel (key v))), false⟩ .nil
  | .func name args => .node ⟨classKind isFunc name, false⟩ (Expr.treeArgs args)
  | .aliased e _ => .node ⟨.other "Alias", false⟩ (.cons "this" e.tree .nil)
  | .subquery _ args _ =>
    .node ⟨.subquery, false⟩ (.cons "this" nestedSelect (Expr.treeArgs args))

def Expr.treeArgs : List (Expr V) → SyntaxArgs FilterNode
  | [] => .nil
  | e :: es => .cons "expressions" e.tree (Expr.treeArgs es)

end

variable (lower : String → String) (target : SchemaTable)

/-- No check forbids a node of the kind below the outer `SELECT`. -/
def NodeKind.isAllowed (kind : NodeKind) : Bool :=
  !kind.isDangerous && !kind.isSetOp && !decide (kind = .select) && functionAllowed kind &&
    columnAllowed lower target kind

variable {isFunc lower target}

theorem isAllowed_classKind {name : String} :
    (classKind isFunc name).isAllowed lower target = true ↔
      (!isFunc name || nonFunctionOps.contains name) = true := by
  unfold classKind
  cases isFunc name <;> simp [NodeKind.isAllowed, NodeKind.isDangerous, NodeKind.isSetOp,
    functionAllowed, columnAllowed]

theorem isAllowed_column {catalog db table name : String} :
    (NodeKind.column catalog db table name).isAllowed lower target = true ↔
      (looksLikeSentinel name || ((table == "" || lower table == targetName lower target) &&
        (target.columns.map lower).contains (lower name))) = true := by
  simp [NodeKind.isAllowed, NodeKind.isDangerous, NodeKind.isSetOp, functionAllowed, columnAllowed]

theorem looksLikeSentinel_sentinel (key : String) :
    looksLikeSentinel (String.ofList (sentinel key)) = true := by
  rw [looksLikeSentinel, String.toList_ofList, sentinel, List.append_assoc,
    List.isPrefixOf_iff_prefix]
  exact List.prefix_append _ _

mutual

/-- The nodes of a parse are allowed if and only if the expression is. -/
theorem Expr.isAllowed_tree : ∀ e : Expr V,
    (∀ n ∈ (e.tree isFunc key).walk, n.cls.kind.isAllowed lower target = true) ↔
      e.isRowPredicate lower isFunc (targetName lower target) (target.columns.map lower) = true
  | .column table name => by
    simp only [Expr.tree, mem_walk_node, argWalk_nil, List.not_mem_nil, or_false, forall_eq,
      cls_node, isAllowed_column, Expr.isRowPredicate]
  | .star table => by
    have hstar : (NodeKind.other "Star").isAllowed lower target = true := rfl
    have hname : looksLikeSentinel "*" = false := by decide
    by_cases htable : table = ""
    · simp [Expr.tree, htable, starNode, cls_node, hstar, Expr.isRowPredicate]
    · simp [Expr.tree, htable, starNode, cls_node, hstar, isAllowed_column, hname,
        Expr.isRowPredicate]
  | .literal text => by
    have hliteral : ∀ b s, (NodeKind.literal b s).isAllowed lower target = true := fun _ _ => rfl
    simp [Expr.tree, cls_node, hliteral, Expr.isRowPredicate]
  | .placeholder v => by
    simp [Expr.tree, cls_node, isAllowed_column, looksLikeSentinel_sentinel, Expr.isRowPredicate]
  | .func name args => by
    simp only [Expr.tree, mem_walk_node, forall_eq_or_imp, cls_node, isAllowed_classKind,
      Expr.isAllowed_treeArgs args, Expr.isRowPredicate, Bool.and_eq_true]
  | .aliased e _ => by
    have halias : (NodeKind.other "Alias").isAllowed lower target = true := rfl
    simp only [Expr.tree, mem_walk_node, mem_argWalk_cons, argWalk_nil, List.not_mem_nil, or_false,
      forall_eq_or_imp, cls_node, halias, true_and, Expr.isAllowed_tree e, Expr.isRowPredicate]
  | .subquery _ args _ => by
    refine iff_of_false (fun h => ?_) Bool.false_ne_true
    have hselect := h nestedSelect (mem_walk_node.mpr (.inr (mem_argWalk_cons.mpr
      (.inl (self_mem_walk _)))))
    exact absurd hselect (by simp [nestedSelect, cls_node, NodeKind.isAllowed])

theorem Expr.isAllowed_treeArgs : ∀ es : List (Expr V),
    (∀ n ∈ argWalk (Expr.treeArgs isFunc key es), n.cls.kind.isAllowed lower target = true) ↔
      Expr.areRowPredicates lower isFunc (targetName lower target) (target.columns.map lower)
        es = true
  | [] => by simp [Expr.treeArgs, Expr.areRowPredicates]
  | e :: es => by
    simp only [Expr.treeArgs, mem_argWalk_cons, or_imp, forall_and, Expr.isAllowed_tree e,
      Expr.isAllowed_treeArgs es, Expr.areRowPredicates, Bool.and_eq_true]

end

mutual

theorem Expr.kind_tree_ne_cte : ∀ e : Expr V,
    ∀ n ∈ (e.tree isFunc key).walk, n.cls.kind ≠ .cte
  | .column table name => by simp [Expr.tree]
  | .star table => by
    by_cases htable : table = ""
    · simp [Expr.tree, htable, starNode]
    · simp [Expr.tree, htable, starNode]
  | .literal text => by simp [Expr.tree]
  | .placeholder v => by simp [Expr.tree]
  | .func name args => by
    simp only [Expr.tree, mem_walk_node, forall_eq_or_imp, cls_node]
    refine ⟨?_, Expr.kind_treeArgs_ne_cte args⟩
    unfold classKind
    split <;> simp
  | .aliased e _ => by
    simp only [Expr.tree, mem_walk_node, mem_argWalk_cons, argWalk_nil, List.not_mem_nil, or_false,
      forall_eq_or_imp, cls_node]
    exact ⟨by simp, Expr.kind_tree_ne_cte e⟩
  | .subquery _ args _ => by
    simp only [Expr.tree, mem_walk_node, mem_argWalk_cons, or_imp, forall_and, forall_eq, cls_node]
    exact ⟨by simp, by simp [nestedSelect], Expr.kind_treeArgs_ne_cte args⟩

theorem Expr.kind_treeArgs_ne_cte : ∀ es : List (Expr V),
    ∀ n ∈ argWalk (Expr.treeArgs isFunc key es), n.cls.kind ≠ .cte
  | [] => by simp [Expr.treeArgs]
  | e :: es => by
    simp only [Expr.treeArgs, mem_argWalk_cons, or_imp, forall_and]
    exact ⟨Expr.kind_tree_ne_cte e, Expr.kind_treeArgs_ne_cte es⟩

end

/-- The nodes of `SELECT 1 WHERE <condition>`. -/
theorem mem_walk_selectOne {condition n : FilterTree} :
    n ∈ (selectOne condition .nil).walk ↔ n = selectOne condition .nil ∨ n = one ∨
      n = whereNode condition ∨ n ∈ condition.walk := by
  simp [selectOne, one, whereNode]

/-- Where they stand. -/
theorem mem_places_selectOne {condition : FilterTree} {p : (FilterNode × String) × FilterTree} :
    p ∈ (selectOne condition .nil).places ↔ p = ((⟨.select, false⟩, "expressions"), one) ∨
      p = ((⟨.select, false⟩, "where"), whereNode condition) ∨
      p = ((⟨.whereClause, false⟩, "this"), condition) ∨ p ∈ condition.places := by
  simp [selectOne, one, whereNode, places, argPlaces]

/-- The one `SELECT` of the parse is not in the expression: no node of an expression is a common
table expression, whose body alone may be one. -/
theorem kind_ne_select_of_isCteBody {e : Expr V}
    (hselect : ∀ p ∈ (selectOne (e.tree isFunc key) .nil).places, p.2.cls.kind = .select →
      isCteBody p.1 = true) : ∀ n ∈ (e.tree isFunc key).walk, n.cls.kind ≠ .select := by
  intro n hn hkind
  rcases mem_walk_iff_places.mp hn with rfl | ⟨place, hplace⟩
  · exact absurd (hselect _ (mem_places_selectOne.mpr (.inr (.inr (.inl rfl)))) hkind)
      (by simp [isCteBody])
  · have hbody := hselect _ (mem_places_selectOne.mpr (.inr (.inr (.inr hplace)))) hkind
    obtain ⟨m, hm, hcls⟩ := exists_parent_of_mem_places hplace
    have hcte := Expr.kind_tree_ne_cte key e m hm
    rw [hcls] at hcte
    exact hcte (beq_iff_eq.mp (Bool.and_eq_true_iff.mp hbody).1)

/-- **The checks of the parse are those of the expression.** -/
theorem statementAllowed_tree (e : Expr V) :
    statementAllowed lower target (selectOne (e.tree isFunc key) .nil) =
      e.isRowPredicate lower isFunc (targetName lower target) (target.columns.map lower) := by
  rw [Bool.eq_iff_iff, ← Expr.isAllowed_tree key e, statementAllowed_iff]
  constructor
  · rintro ⟨-, hdangerous, hsetOp, hselect, hfunction, hcolumn⟩ n hn
    have hwalk : n ∈ (selectOne (e.tree isFunc key) .nil).walk :=
      mem_walk_selectOne.mpr (.inr (.inr (.inr hn)))
    simp [NodeKind.isAllowed, hdangerous n hwalk, hsetOp n hwalk,
      kind_ne_select_of_isCteBody key hselect n hn, hfunction n hwalk, hcolumn n hwalk]
  · intro h
    have hkinds : ∀ n ∈ (selectOne (e.tree isFunc key) .nil).walk,
        n = selectOne (e.tree isFunc key) .nil ∨ n.cls.kind.isAllowed lower target = true := by
      intro n hn
      rcases mem_walk_selectOne.mp hn with rfl | rfl | rfl | hn
      · exact .inl rfl
      · exact .inr rfl
      · exact .inr rfl
      · exact .inr (h n hn)
    simp only [NodeKind.isAllowed, Bool.and_eq_true, Bool.not_eq_true', decide_eq_false_iff_not,
      and_assoc] at h hkinds
    refine ⟨rfl, fun n hn => ?_, fun n hn => ?_, fun p hp hkind => ?_, fun n hn => ?_,
      fun n hn => ?_⟩
    · rcases hkinds n hn with rfl | hn
      · rfl
      · exact hn.1
    · rcases hkinds n hn with rfl | hn
      · rfl
      · exact hn.2.1
    · rcases mem_places_selectOne.mp hp with rfl | rfl | rfl | hp
      · cases hkind
      · cases hkind
      · exact absurd hkind (h _ (self_mem_walk _)).2.2.1
      · exact absurd hkind (h _ (mem_walk_iff_places.mpr (.inr ⟨p.1, hp⟩))).2.2.1
    · rcases hkinds n hn with rfl | hn
      · rfl
      · exact hn.2.2.2.1
    · rcases hkinds n hn with rfl | hn
      · rfl
      · exact hn.2.2.2.2

/-- **A filter whose text parses to an expression** passes the checks of the text, outside the
shape of the text itself, if and only if the expression passes. -/
theorem validateRowFilterText_tree {parse : SqlParser} {schema : List SchemaTable}
    {tableName dialect : String} {filterSql : List Char} {e : Expr V}
    (hblank : filterSql.all isSpace = false)
    (hcomment : containsComment (lowerAscii dialect == "mysql") false false filterSql = false)
    (hparse : filterStatement parse dialect filterSql = some (selectOne (e.tree isFunc key) .nil)) :
    validateRowFilterText lower parse schema tableName dialect filterSql =
      validateRowFilter lower isFunc schema tableName e := by
  rw [validateRowFilterText, hblank, hcomment, hparse, validateRowFilter]
  cases findPolicyTable lower schema tableName with
  | none => rfl
  | some table => exact statementAllowed_tree key e

end Tree

end QueryCraft
