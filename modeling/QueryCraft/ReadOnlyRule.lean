import QueryCraft.SyntaxTree

/-! # The read-only rule

`ReadOnlyRule.evaluate` parses the text with `sqlglot` and accepts it if every statement
passes `_validate_read_only`: a set operation passes if its two branches do, a `SELECT`
passes if it contains no row lock and the bodies of all its common table expressions
pass, and nothing else passes.

What the rule does not look at (`Unchecked`) is what a set operation has besides its
branches, first of all its `WITH` clause, and within a `SELECT` everything that is
neither a lock nor the body of a common table expression, such as an `INTO` target.
`read_only_iff` shows that a text without forbidden nodes in these places is judged
correctly, and that every other text that looks as the rule wants it is accepted all
the same.
-/
namespace QueryCraft

/-- The classes of `sqlglot.exp` that matter here. -/
inductive SqlClass where
  | select | union | intersect | except
  | cte | lock | into
  | insert | update | delete | merge | create | drop | alter | truncateTable
  | other (name : String)
deriving DecidableEq, Repr

namespace SqlClass

/-- `__name__`. -/
def className : SqlClass → String
  | .select => "Select"
  | .union => "Union"
  | .intersect => "Intersect"
  | .except => "Except"
  | .cte => "CTE"
  | .lock => "Lock"
  | .into => "Into"
  | .insert => "Insert"
  | .update => "Update"
  | .delete => "Delete"
  | .merge => "Merge"
  | .create => "Create"
  | .drop => "Drop"
  | .alter => "Alter"
  | .truncateTable => "TruncateTable"
  | .other name => name

/-- `exp.Union`, `exp.Intersect` or `exp.Except`. -/
def isSetOperation : SqlClass → Bool
  | .union | .intersect | .except => true
  | _ => false

/-- What a statement that only reads does not contain: a data-modifying statement, an
`INTO` target or a row lock. -/
def forbidden : SqlClass → Bool
  | .insert | .update | .delete | .merge | .create | .drop | .alter | .truncateTable
  | .into | .lock => true
  | _ => false

end SqlClass

/-- An `exp.Expression`. -/
abbrev SqlTree := SyntaxTree SqlClass

open SyntaxTree

/-- `DatabaseType`. -/
inductive DatabaseType where
  | postgresql | mysql | mssql
deriving DecidableEq, Repr

/-- The rule, with the dialect in which it reads. -/
structure ReadOnlyRule where
  dialect : String

/-- `DIALECT_MAP` and `from_database_type`. -/
def ReadOnlyRule.fromDatabaseType : DatabaseType → ReadOnlyRule
  | .postgresql => ⟨"postgres"⟩
  | .mysql => ⟨"mysql"⟩
  | .mssql => ⟨"tsql"⟩

/-! ## The rule -/

/-- The rejection of a node that is not a `SELECT`. -/
def nonSelect (node : Option SqlTree) : Bool × Option String :=
  (false, some ("Non-SELECT statement: " ++ node.elim "NoneType" (·.cls.className)))

/-- A loop that returns the first failure. -/
def firstFailure : List (Bool × Option String) → Bool × Option String
  | [] => (true, none)
  | result :: results => if result.1 then firstFailure results else result

/-- `find_all`. -/
def findAll (c : SqlClass) (node : SqlTree) : List SqlTree := node.walk.filter (·.cls = c)

/-- A body of a common table expression is smaller than the `SELECT` it is found in. -/
theorem sizeOf_lt_of_mem_findAll {c : SqlClass} {node cte body : SqlTree}
    (hcte : cte ∈ findAll c node) (hbody : cte.arg? "this" = some body) :
    sizeOf body < sizeOf node :=
  Nat.lt_of_lt_of_le (sizeOf_lt_of_arg? hbody)
    (sizeOf_le_of_mem_walk (List.mem_of_mem_filter hcte))

/-- `_validate_read_only`. -/
def validateReadOnly (node : SqlTree) : Bool × Option String :=
  if node.cls.isSetOperation then
    firstFailure
      [match _h : node.arg? "this" with
        | some left => validateReadOnly left
        | none => nonSelect none,
       match _h : node.arg? "expression" with
        | some right => validateReadOnly right
        | none => nonSelect none]
  else if node.cls ≠ .select then nonSelect (some node)
  else if node.walk.any (·.cls = .lock) then
    (false, some "SELECT with row-level locking is not allowed")
  else
    firstFailure ((findAll .cte node).attach.map fun ⟨cte, _hcte⟩ =>
      match _h : cte.arg? "this" with
      | some body => validateReadOnly body
      | none => nonSelect none)
termination_by sizeOf node
decreasing_by
  · exact sizeOf_lt_of_arg? _h
  · exact sizeOf_lt_of_arg? _h
  · exact sizeOf_lt_of_mem_findAll _hcte _h

/-- `evaluate`, over the parser: `none` where it raises; an empty statement is `None`. -/
def ReadOnlyRule.evaluate (parse : String → String → Option (List (Option SqlTree)))
    (rule : ReadOnlyRule) (sql : String) : Bool × Option String :=
  match parse sql rule.dialect with
  | none => (false, some "Unable to parse SQL")
  | some [] => (false, some "Empty SQL")
  | some statements =>
    firstFailure (statements.map fun statement =>
      statement.elim (nonSelect none) validateReadOnly)

/-! ## What the rule looks at -/

mutual

/-- The branches of a statement: those of a set operation's two operands, or the
statement itself.  A missing operand is a branch, too. -/
def branches : SqlTree → List (Option SqlTree)
  | .node c args =>
    if c.isSetOperation then branchesAt "this" args ++ branchesAt "expression" args
    else [some (.node c args)]

/-- The branches of the first child under a key. -/
def branchesAt (key : String) : SyntaxArgs SqlClass → List (Option SqlTree)
  | .nil => [none]
  | .cons k child rest => if k = key then branches child else branchesAt key rest

end

mutual

/-- The nodes that belong to a set operation and to none of its branches. -/
def sideNodes : SqlTree → List SqlTree
  | .node c args => if c.isSetOperation then sideArgs true true args else []

/-- Those in a list of children, with or without a first `this` and `expression` still
to come. -/
def sideArgs (this expression : Bool) : SyntaxArgs SqlClass → List SqlTree
  | .nil => []
  | .cons k child rest =>
    if this ∧ k = "this" then sideNodes child ++ sideArgs false expression rest
    else if expression ∧ k = "expression" then sideNodes child ++ sideArgs this false rest
    else child.walk ++ sideArgs this expression rest

end

/-- The branches of the bodies of the common table expressions in a `SELECT`. -/
def cteBranches (node : SqlTree) : List (Option SqlTree) :=
  (findAll .cte node).flatMap fun cte => (cte.arg? "this").elim [none] branches

/-- The branch is a `SELECT`. -/
def isSelect (branch : Option SqlTree) : Bool := branch.any (·.cls = .select)

/-- The statement looks as the rule wants it: its branches are `SELECT`s without a lock,
and the branches of the bodies of all their common table expressions are `SELECT`s. -/
def looksReadOnly (statement : Option SqlTree) : Bool :=
  (statement.elim [none] branches).all fun branch => branch.any fun node =>
    node.cls = .select && node.walk.all (·.cls ≠ .lock) && (cteBranches node).all isSelect

/-- The rule does not look at the node: it belongs to a set operation and to none of its
branches, or it is neither a lock nor a branch of the body of a common table expression. -/
def Unchecked (statement n : SqlTree) : Prop :=
  n ∈ sideNodes statement ∨
  ∃ node, some node ∈ branches statement ∧ n ∈ node.walk ∧ n.cls ≠ .lock ∧
    some n ∉ cteBranches node

/-! ## What it accepts -/

variable {n node statement x : SqlTree} {key : String}

theorem firstFailure_fst {results : List (Bool × Option String)} :
    (firstFailure results).1 = true ↔ ∀ r ∈ results, r.1 = true := by
  induction results with
  | nil => simp [firstFailure]
  | cons result results ih =>
    rw [firstFailure, List.forall_mem_cons]
    by_cases h : result.1
    · rw [if_pos h, ih]
      exact ⟨fun hr => ⟨h, hr⟩, fun hr => hr.2⟩
    · rw [if_neg h]
      exact ⟨fun hr => absurd hr h, fun hr => absurd hr.1 h⟩

/-- A success comes without a message. -/
theorem firstFailure_eq {results : List (Bool × Option String)} :
    firstFailure results = (true, none) ↔ ∀ r ∈ results, r.1 = true := by
  refine ⟨fun h => firstFailure_fst.mp (congrArg Prod.fst h), fun h => ?_⟩
  induction results with
  | nil => rfl
  | cons result results ih =>
    obtain ⟨hresult, hresults⟩ := List.forall_mem_cons.mp h
    rw [firstFailure, if_pos hresult, ih hresults]

/-- An absent node is rejected. -/
def accepts (node : Option SqlTree) : Bool := node.any fun n => (validateReadOnly n).1

theorem validateReadOnly_setOperation (h : node.cls.isSetOperation = true) :
    (validateReadOnly node).1 =
      (accepts (node.arg? "this") && accepts (node.arg? "expression")) := by
  rw [validateReadOnly, if_pos h, Bool.eq_iff_iff, firstFailure_fst, Bool.and_eq_true]
  simp only [List.forall_mem_cons, List.not_mem_nil, false_imp_iff, implies_true, and_true]
  refine and_congr ?_ ?_
  · split <;> simp_all [accepts, nonSelect]
  · split <;> simp_all [accepts, nonSelect]

theorem validateReadOnly_select (h : node.cls = .select) :
    (validateReadOnly node).1 = (node.walk.all (·.cls ≠ .lock) &&
      (findAll .cte node).all fun cte => accepts (cte.arg? "this")) := by
  rw [validateReadOnly, if_neg (by rw [h]; decide), if_neg (by simp [h])]
  by_cases hlock : node.walk.any (·.cls = .lock)
  · rw [if_pos hlock, eq_comm, Bool.and_eq_false_iff]
    refine .inl ?_
    simpa using hlock
  · rw [if_neg hlock]
    have hnone : node.walk.all (·.cls ≠ .lock) = true := by simpa using hlock
    rw [hnone, Bool.true_and, Bool.eq_iff_iff, firstFailure_fst, List.all_eq_true]
    simp only [List.mem_map, List.mem_attach, true_and, Subtype.exists, forall_exists_index]
    refine ⟨fun hr cte hcte => ?_, fun hr r cte hcte heq => ?_⟩
    · have := hr _ cte hcte rfl
      split at this <;> simp_all [accepts, nonSelect]
    · have := hr cte hcte
      rw [← heq]
      split <;> simp_all [accepts, nonSelect]

theorem validateReadOnly_other (hset : node.cls.isSetOperation = false)
    (h : node.cls ≠ .select) : (validateReadOnly node).1 = false := by
  rw [validateReadOnly, if_neg (by simp [hset]), if_pos h]
  rfl

/-! ## Branches -/

theorem branchesAt_eq (key : String) : ∀ args : SyntaxArgs SqlClass,
    branchesAt key args = (argOf? key args).elim [none] branches
  | .nil => rfl
  | .cons k child rest => by
    rw [branchesAt, argOf?]
    split
    · rfl
    · exact branchesAt_eq key rest

theorem branches_setOperation (h : node.cls.isSetOperation = true) :
    branches node = (node.arg? "this").elim [none] branches ++
      (node.arg? "expression").elim [none] branches := by
  obtain ⟨c, args⟩ := node
  change c.isSetOperation = true at h
  rw [branches, if_pos h, branchesAt_eq, branchesAt_eq]
  rfl

theorem branches_of_not_setOperation (h : node.cls.isSetOperation = false) :
    branches node = [some node] := by
  obtain ⟨c, args⟩ := node
  change c.isSetOperation = false at h
  rw [branches, if_neg (by simp [h])]

mutual

/-- A branch is a descendant. -/
theorem mem_walk_of_mem_branches : ∀ {n : SqlTree}, some x ∈ branches n → x ∈ n.walk
  | .node c args, h => by
    rw [branches] at h
    split at h
    · rcases List.mem_append.mp h with h | h
      · exact mem_walk_node.mpr (.inr (mem_argWalk_of_mem_branchesAt h))
      · exact mem_walk_node.mpr (.inr (mem_argWalk_of_mem_branchesAt h))
    · obtain rfl : x = .node c args := by simpa using h
      exact self_mem_walk _

theorem mem_argWalk_of_mem_branchesAt : ∀ {key : String} {args : SyntaxArgs SqlClass},
    some x ∈ branchesAt key args → x ∈ argWalk args
  | _, .nil, h => by simp [branchesAt] at h
  | _, .cons k child rest, h => by
    rw [branchesAt] at h
    split at h
    · exact mem_argWalk_cons.mpr (.inl (mem_walk_of_mem_branches h))
    · exact mem_argWalk_cons.mpr (.inr (mem_argWalk_of_mem_branchesAt h))

end

mutual

/-- A node that belongs to a set operation and to none of its branches is a
descendant. -/
theorem mem_walk_of_mem_sideNodes : ∀ {n : SqlTree}, x ∈ sideNodes n → x ∈ n.walk
  | .node c args, h => by
    rw [sideNodes] at h
    split at h
    · exact mem_walk_node.mpr (.inr (mem_argWalk_of_mem_sideArgs h))
    · cases h

theorem mem_argWalk_of_mem_sideArgs : ∀ {args : SyntaxArgs SqlClass} {this expression : Bool},
    x ∈ sideArgs this expression args → x ∈ argWalk args
  | .nil, _, _, h => by cases h
  | .cons k child rest, _, _, h => by
    rw [mem_argWalk_cons]
    rw [sideArgs] at h
    split at h
    · exact (List.mem_append.mp h).imp mem_walk_of_mem_sideNodes mem_argWalk_of_mem_sideArgs
    · split at h
      · exact (List.mem_append.mp h).imp mem_walk_of_mem_sideNodes mem_argWalk_of_mem_sideArgs
      · exact (List.mem_append.mp h).imp_right mem_argWalk_of_mem_sideArgs

end

/-- The node belongs to a branch of the child under the key, if one is to come. -/
def InBranchAt (toCome : Bool) (key : String) (args : SyntaxArgs SqlClass) (x : SqlTree) : Prop :=
  toCome = true ∧ ∃ node, some node ∈ branchesAt key args ∧ x ∈ node.walk

theorem inBranchAt_head {child node : SqlTree} {rest : SyntaxArgs SqlClass}
    (hnode : some node ∈ branches child) (hx : x ∈ node.walk) :
    InBranchAt true key (.cons key child rest) x := by
  refine ⟨rfl, node, ?_, hx⟩
  rw [branchesAt, if_pos rfl]
  exact hnode

theorem InBranchAt.cons {toCome : Bool} {k : String} {child : SqlTree}
    {rest : SyntaxArgs SqlClass} (h : InBranchAt toCome key rest x)
    (hk : ¬(toCome = true ∧ k = key)) : InBranchAt toCome key (.cons k child rest) x := by
  obtain ⟨hcome, node, hnode, hx⟩ := h
  refine ⟨hcome, node, ?_, hx⟩
  rw [branchesAt, if_neg fun heq => hk ⟨hcome, heq⟩]
  exact hnode

mutual

/-- Every node is a set operation, belongs to one beside its branches, or belongs to a
branch. -/
theorem mem_walk_cases : ∀ {n : SqlTree}, x ∈ n.walk →
    x.cls.isSetOperation = true ∨ x ∈ sideNodes n ∨ ∃ node, some node ∈ branches n ∧ x ∈ node.walk
  | .node c args, h => by
    by_cases hset : c.isSetOperation
    · rcases mem_walk_node.mp h with rfl | h
      · exact .inl hset
      · rw [sideNodes, branches, if_pos hset, if_pos hset]
        rcases mem_argWalk_cases true true h with hx | hx | ⟨-, node, hn, hx⟩ | ⟨-, node, hn, hx⟩
        · exact .inl hx
        · exact .inr (.inl hx)
        · exact .inr (.inr ⟨node, List.mem_append_left _ hn, hx⟩)
        · exact .inr (.inr ⟨node, List.mem_append_right _ hn, hx⟩)
    · refine .inr (.inr ⟨.node c args, ?_, h⟩)
      rw [branches, if_neg hset]
      exact List.mem_singleton_self _

theorem mem_argWalk_cases : ∀ {args : SyntaxArgs SqlClass} (this expression : Bool),
    x ∈ argWalk args → x.cls.isSetOperation = true ∨ x ∈ sideArgs this expression args ∨
      InBranchAt this "this" args x ∨ InBranchAt expression "expression" args x
  | .nil, _, _, h => by simp at h
  | .cons k child rest, this, expression, h => by
    rw [mem_argWalk_cons] at h
    by_cases hthis : this = true ∧ k = "this"
    · obtain ⟨rfl, rfl⟩ := hthis
      rw [sideArgs, if_pos ⟨rfl, rfl⟩]
      rcases h with h | h
      · rcases mem_walk_cases h with hx | hx | ⟨node, hn, hx⟩
        · exact .inl hx
        · exact .inr (.inl (List.mem_append_left _ hx))
        · exact .inr (.inr (.inl (inBranchAt_head hn hx)))
      · rcases mem_argWalk_cases false expression h with hx | hx | ⟨hfalse, -⟩ | hx
        · exact .inl hx
        · exact .inr (.inl (List.mem_append_right _ hx))
        · cases hfalse
        · exact .inr (.inr (.inr (hx.cons (by simp))))
    · rw [sideArgs, if_neg hthis]
      by_cases hexpr : expression = true ∧ k = "expression"
      · obtain ⟨rfl, rfl⟩ := hexpr
        rw [if_pos ⟨rfl, rfl⟩]
        rcases h with h | h
        · rcases mem_walk_cases h with hx | hx | ⟨node, hn, hx⟩
          · exact .inl hx
          · exact .inr (.inl (List.mem_append_left _ hx))
          · exact .inr (.inr (.inr (inBranchAt_head hn hx)))
        · rcases mem_argWalk_cases this false h with hx | hx | hx | ⟨hfalse, -⟩
          · exact .inl hx
          · exact .inr (.inl (List.mem_append_right _ hx))
          · exact .inr (.inr (.inl (hx.cons hthis)))
          · cases hfalse
      · rw [if_neg hexpr]
        rcases h with h | h
        · exact .inr (.inl (List.mem_append_left _ h))
        · rcases mem_argWalk_cases this expression h with hx | hx | hx | hx
          · exact .inl hx
          · exact .inr (.inl (List.mem_append_right _ hx))
          · exact .inr (.inr (.inl (hx.cons hthis)))
          · exact .inr (.inr (.inr (hx.cons hexpr)))

end

/-! ## The gate -/

theorem looksReadOnly_iff {statement : Option SqlTree} :
    looksReadOnly statement = true ↔ ∀ branch ∈ statement.elim [none] branches,
      ∃ node, branch = some node ∧ node.cls = .select ∧ (∀ n ∈ node.walk, n.cls ≠ .lock) ∧
        ∀ body ∈ cteBranches node, isSelect body = true := by
  simp [looksReadOnly, Option.any_eq_true, and_assoc]

theorem mem_cteBranches {body : Option SqlTree} :
    body ∈ cteBranches node ↔ ∃ cte ∈ node.walk, cte.cls = .cte ∧
      body ∈ (cte.arg? "this").elim [none] branches := by
  simp [cteBranches, findAll, and_assoc]

/-- A `SELECT` without a lock whose common table expressions have `SELECT`s for bodies:
the bodies look read-only themselves. -/
theorem looksReadOnly_cte (hlock : ∀ n ∈ node.walk, n.cls ≠ .lock) :
    (∀ cte ∈ node.walk, cte.cls = .cte → looksReadOnly (cte.arg? "this") = true) ↔
      ∀ body ∈ cteBranches node, isSelect body = true := by
  constructor
  · intro h body hbody
    obtain ⟨cte, hcte, hcls, hbody⟩ := mem_cteBranches.mp hbody
    obtain ⟨n, rfl, hn, -⟩ := looksReadOnly_iff.mp (h cte hcte hcls) body hbody
    simp [isSelect, hn]
  · intro h cte hcte hcls
    refine looksReadOnly_iff.mpr fun branch hbranch => ?_
    have hselect := h branch (mem_cteBranches.mpr ⟨cte, hcte, hcls, hbranch⟩)
    cases branch with
    | none => cases hselect
    | some n =>
      -- the branch is a descendant of the `SELECT`
      have hn : n ∈ node.walk := by
        cases hthis : cte.arg? "this" with
        | none => simp [hthis] at hbranch
        | some body =>
          rw [hthis] at hbranch
          exact walk_trans hcte (walk_trans (mem_walk_of_arg? hthis)
            (mem_walk_of_mem_branches hbranch))
      refine ⟨n, rfl, by simpa [isSelect] using hselect,
        fun m hm => hlock m (walk_trans hn hm), fun body hbody => ?_⟩
      obtain ⟨c, hc, hccls, hcbody⟩ := mem_cteBranches.mp hbody
      exact h body (mem_cteBranches.mpr ⟨c, walk_trans hn hc, hccls, hcbody⟩)

/-- A set operation looks read-only if its operands do. -/
theorem looksReadOnly_setOperation (h : node.cls.isSetOperation = true) :
    looksReadOnly (some node) =
      (looksReadOnly (node.arg? "this") && looksReadOnly (node.arg? "expression")) := by
  simp only [looksReadOnly, Option.elim_some, branches_setOperation h, List.all_append]

theorem accepts_eq_of {child : Option SqlTree}
    (h : ∀ n, child = some n → (validateReadOnly n).1 = looksReadOnly (some n)) :
    accepts child = looksReadOnly child := by
  cases child with
  | none => rfl
  | some n => exact h n rfl

/-- **What the rule accepts.** -/
theorem validateReadOnly_eq_looksReadOnly (n : SqlTree) :
    (validateReadOnly n).1 = looksReadOnly (some n) := by
  by_cases hset : n.cls.isSetOperation = true
  · rw [validateReadOnly_setOperation hset, looksReadOnly_setOperation hset,
      accepts_eq_of fun m hm => validateReadOnly_eq_looksReadOnly m,
      accepts_eq_of fun m hm => validateReadOnly_eq_looksReadOnly m]
  · rw [Bool.not_eq_true] at hset
    by_cases hselect : n.cls = .select
    · have hcte : ∀ cte ∈ n.walk, cte.cls = .cte →
          accepts (cte.arg? "this") = looksReadOnly (cte.arg? "this") := fun cte hmem hcls =>
        accepts_eq_of fun m hm => validateReadOnly_eq_looksReadOnly m
      rw [validateReadOnly_select hselect, Bool.eq_iff_iff, Bool.and_eq_true, looksReadOnly_iff]
      simp only [List.all_eq_true, findAll, List.mem_filter, decide_eq_true_eq, ne_eq,
        Option.elim_some, branches_of_not_setOperation hset, List.forall_mem_singleton, and_imp]
      constructor
      · rintro ⟨hlock, hbodies⟩
        refine ⟨n, rfl, hselect, hlock, (looksReadOnly_cte hlock).mp fun cte hmem hcls => ?_⟩
        rw [← hcte cte hmem hcls]
        exact hbodies cte hmem hcls
      · rintro ⟨m, heq, -, hlock, hbodies⟩
        obtain rfl := Option.some.inj heq
        refine ⟨hlock, fun cte hmem hcls => ?_⟩
        rw [hcte cte hmem hcls]
        exact (looksReadOnly_cte hlock).mpr hbodies cte hmem hcls
    · rw [validateReadOnly_other hset hselect]
      simp [looksReadOnly, branches_of_not_setOperation hset, hselect]
termination_by sizeOf n
decreasing_by
  · exact sizeOf_lt_of_arg? hm
  · exact sizeOf_lt_of_arg? hm
  · exact Nat.lt_of_lt_of_le (sizeOf_lt_of_arg? hm) (sizeOf_le_of_mem_walk hmem)

theorem evaluate_eq_true_iff {parse : String → String → Option (List (Option SqlTree))}
    {rule : ReadOnlyRule} {sql : String} {statements : List (Option SqlTree)}
    (hparse : parse sql rule.dialect = some statements) :
    rule.evaluate parse sql = (true, none) ↔
      statements ≠ [] ∧ ∀ statement ∈ statements, looksReadOnly statement = true := by
  have hstatement : ∀ statement : Option SqlTree,
      (statement.elim (nonSelect none) validateReadOnly).1 = looksReadOnly statement := by
    rintro (_ | n)
    · rfl
    · exact validateReadOnly_eq_looksReadOnly n
  cases statements with
  | nil => simp [ReadOnlyRule.evaluate, hparse]
  | cons statement rest =>
    simp only [ReadOnlyRule.evaluate, hparse, firstFailure_eq, List.mem_map, forall_exists_index,
      and_imp, forall_apply_eq_imp_iff₂, hstatement]
    simp

/-- Every node of a statement that looks read-only is harmless or not looked at. -/
theorem unchecked_of_forbidden (hlooks : looksReadOnly (some statement) = true)
    (hn : n ∈ statement.walk) (hforbidden : n.cls.forbidden = true) : Unchecked statement n := by
  rcases mem_walk_cases hn with hset | hside | ⟨branch, hbranch, hmem⟩
  · exfalso
    cases hcls : n.cls <;> simp [hcls, SqlClass.isSetOperation, SqlClass.forbidden] at *
  · exact .inl hside
  · obtain ⟨m, heq, -, hlock, hbodies⟩ := looksReadOnly_iff.mp hlooks _ hbranch
    obtain rfl := Option.some.inj heq
    refine .inr ⟨branch, hbranch, hmem, hlock n hmem, fun hbody => ?_⟩
    have hselect : n.cls = .select := by simpa [isSelect] using hbodies _ hbody
    rw [hselect] at hforbidden
    cases hforbidden

theorem mem_walk_of_unchecked (h : Unchecked statement n) : n ∈ statement.walk := by
  rcases h with hside | ⟨branch, hbranch, hmem, -⟩
  · exact mem_walk_of_mem_sideNodes hside
  · exact walk_trans (mem_walk_of_mem_branches hbranch) hmem

/-- **The rule keeps forbidden nodes out exactly of the texts that do not look
read-only or have none in the places that it does not look at.** -/
theorem read_only_iff (parse : String → String → Option (List (Option SqlTree)))
    (rule : ReadOnlyRule) (sql : String) :
    (rule.evaluate parse sql = (true, none) →
      ∀ statements, parse sql rule.dialect = some statements →
        ∀ statement, some statement ∈ statements →
          ∀ n ∈ statement.walk, n.cls.forbidden = false) ↔
    (∀ statements, parse sql rule.dialect = some statements →
      (∀ statement ∈ statements, looksReadOnly statement = true) →
        ∀ statement, some statement ∈ statements →
          ∀ n, Unchecked statement n → n.cls.forbidden = false) := by
  constructor
  · intro h statements hparse hlooks statement hmem n hn
    have haccepted := (evaluate_eq_true_iff hparse).mpr ⟨List.ne_nil_of_mem hmem, hlooks⟩
    exact h haccepted statements hparse statement hmem n (mem_walk_of_unchecked hn)
  · intro h haccepted statements hparse statement hmem n hn
    have hlooks := ((evaluate_eq_true_iff hparse).mp haccepted).2
    by_contra hforbidden
    rw [Bool.not_eq_false] at hforbidden
    have := h statements hparse hlooks statement hmem n
      (unchecked_of_forbidden (hlooks _ hmem) hn hforbidden)
    rw [hforbidden] at this
    cases this

/-- Children in order. -/
def argList : List (String × SqlTree) → SyntaxArgs SqlClass
  | [] => .nil
  | (key, child) :: rest => .cons key child (argList rest)

/-- A node with its children. -/
def sqlNode (c : SqlClass) (args : List (String × SqlTree)) : SqlTree := .node c (argList args)

/-- `SELECT * FROM t`. -/
def selectStar : SqlTree :=
  sqlNode .select [("expressions", sqlNode (.other "Star") []),
    ("from", sqlNode (.other "From") [("this", sqlNode (.other "Table")
      [("this", sqlNode (.other "Identifier") [])])])]

/-- A `WITH` clause before a set operation, whose body deletes. -/
def deletingUnionText : String :=
  "WITH x AS (DELETE FROM users RETURNING *) SELECT * FROM x UNION SELECT * FROM users"

/-- Its tree. -/
def deletingUnion : SqlTree :=
  sqlNode .union
    [("with", sqlNode (.other "With")
      [("expressions", sqlNode .cte
        [("this", sqlNode .delete
          [("this", sqlNode (.other "Table") [("this", sqlNode (.other "Identifier") [])]),
           ("returning", sqlNode (.other "Returning")
             [("expressions", sqlNode (.other "Star") [])])]),
         ("alias", sqlNode (.other "TableAlias")
           [("this", sqlNode (.other "Identifier") [])])])]),
     ("this", selectStar), ("expression", selectStar)]

/-- The parser, as far as this text goes. -/
def parseDeletingUnion (sql _dialect : String) : Option (List (Option SqlTree)) :=
  if sql = deletingUnionText then some [some deletingUnion] else none

/-- **A text that deletes is accepted.** -/
theorem deleting_union_accepted :
    (ReadOnlyRule.fromDatabaseType .postgresql).evaluate parseDeletingUnion deletingUnionText =
      (true, none) ∧
    parseDeletingUnion deletingUnionText "postgres" = some [some deletingUnion] ∧
    ∃ n ∈ deletingUnion.walk, n.cls = .delete ∧ n.cls.forbidden = true := by
  have hparse : parseDeletingUnion deletingUnionText "postgres" = some [some deletingUnion] :=
    if_pos rfl
  refine ⟨(evaluate_eq_true_iff hparse).mpr ⟨List.cons_ne_nil _ _, ?_⟩, hparse, ?_⟩
  · rw [List.forall_mem_singleton]
    decide
  · have hany : deletingUnion.walk.any (·.cls = .delete) = true := by decide
    obtain ⟨n, hn, hcls⟩ := List.any_eq_true.mp hany
    have hdelete : n.cls = .delete := of_decide_eq_true hcls
    exact ⟨n, hn, hdelete, by rw [hdelete]; rfl⟩

end QueryCraft
