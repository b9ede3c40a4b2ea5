import Mathlib.Algebra.Order.Group.Multiset
import Mathlib.Tactic.Abel
import QueryCraft.PlaceholderCount

/-! # The order of the bound values

The values of the added placeholders are collected while the scopes are visited,
children before parents, but the placeholders are numbered in the order of the
rendered text.  At a `SELECT` the two orders differ in two places: derived tables
are visited before the subqueries of the projection, and the `SELECT` itself after
the subqueries of `GROUP BY`, `HAVING` and `ORDER BY`, although its `WHERE` is
printed before them.

The rendered text is made from the printed one by looking for `?` outside quoted spans,
which may also be an operator of the statement, such as `data ? 'k'`, and may miss a
placeholder.

`params_in_order_iff` says that nothing else can go wrong: the values of a statement
and of all `SELECT`s in it are in order exactly if the renderer finds the placeholders
(`MarksPlaceholders`) and at every `SELECT` the blocks that change places commute
(`SelectNode.Commutes`), as they do when one of them is empty.
-/
namespace QueryCraft

variable {V : Type}

/-! ## Values of rendered text -/

@[simp] theorem tokenValues_nil : tokenValues ([] : List (Token V)) = [] := rfl

@[simp] theorem tokenValues_word (text : String) (ts : List (Token V)) :
    tokenValues (.word text :: ts) = tokenValues ts := rfl

@[simp] theorem tokenValues_append (xs ys : List (Token V)) :
    tokenValues (xs ++ ys) = tokenValues xs ++ tokenValues ys := List.filterMap_append ..

theorem tokenValues_renderAll_append (xs ys : List (Expr V)) :
    tokenValues (Expr.renderAll (xs ++ ys)) =
      tokenValues (Expr.renderAll xs) ++ tokenValues (Expr.renderAll ys) := by
  induction xs with
  | nil => rfl
  | cons x xs ih => simp [Expr.renderAll, ih]

mutual

/-- Qualification does not touch placeholders. -/
theorem Expr.tokenValues_qualify (q : String) : ∀ e : Expr V,
    tokenValues (e.qualify q).render = tokenValues e.render
  | .column _ _ => rfl
  | .star _ => rfl
  | .literal _ => rfl
  | .placeholder _ => rfl
  | .func _ args => by
    simp [Expr.qualify, Expr.render, Expr.tokenValues_qualifyAll q args]
  | .aliased e _ => by simp [Expr.qualify, Expr.render, Expr.tokenValues_qualify q e]
  | .subquery _ args sub => by
    simp [Expr.qualify, Expr.render, Expr.tokenValues_qualifyAll q args,
      Query.tokenValues_qualify q sub]

theorem Expr.tokenValues_qualifyAll (q : String) : ∀ es : List (Expr V),
    tokenValues (Expr.renderAll (Expr.qualifyAll q es)) = tokenValues (Expr.renderAll es)
  | [] => rfl
  | e :: es => by
    simp [Expr.qualifyAll, Expr.renderAll, Expr.tokenValues_qualify q e,
      Expr.tokenValues_qualifyAll q es]

theorem From.tokenValues_qualify (q : String) : ∀ f : From V,
    tokenValues (f.qualify q).render = tokenValues f.render
  | .nothing => rfl
  | .table left _ _ on => by
    simp [From.qualify, From.render, From.tokenValues_qualify q left,
      Expr.tokenValues_qualifyAll q on]
  | .derived left _ sub _ _ on => by
    simp [From.qualify, From.render, From.tokenValues_qualify q left,
      Query.tokenValues_qualify q sub, Expr.tokenValues_qualifyAll q on]

theorem Query.tokenValues_qualify (q : String) : ∀ sub : Query V,
    tokenValues (sub.qualify q).render = tokenValues sub.render
  | .select ps f cs g h o => by
    simp [Query.qualify, Query.render, Expr.tokenValues_qualifyAll q ps,
      From.tokenValues_qualify q f, Expr.tokenValues_qualifyAll q cs,
      Expr.tokenValues_qualifyAll q g, Expr.tokenValues_qualifyAll q h,
      Expr.tokenValues_qualifyAll q o]
  | .withTable _ _ body rest => by
    simp [Query.qualify, Query.render, Query.tokenValues_qualify q body,
      Query.tokenValues_qualify q rest]
  | .setOp left right => by
    simp [Query.qualify, Query.render, Query.tokenValues_qualify q left,
      Query.tokenValues_qualify q right]

end

section Order
variable (lower : String → String) (filters : List (PreparedRowFilter V))

/-- The conjuncts added to a `SELECT` carry the values added for it, in order. -/
theorem tokenValues_addedConditions (ctes : List String) (f : From Empty) :
    tokenValues (Expr.renderAll (f.addedConditions lower filters ctes)) =
      f.addedParams lower filters ctes := by
  have hone : ∀ p : PreparedRowFilter V, ∀ ref,
      tokenValues (f.scopedFilter ctes p ref).render = p.params := by
    intro p ref
    unfold From.scopedFilter
    split
    · rw [Expr.tokenValues_qualify, p.bound]
    · exact p.bound
  unfold From.addedConditions From.addedParams
  induction f.filterMatches lower filters ctes with
  | nil => rfl
  | cons m ms ih => simp [Expr.renderAll, hone, ih]

/-! ## The values, `SELECT` by `SELECT` -/

/-- The values of the filters that match the references of the `SELECT`s, one `SELECT`
after the other. -/
def filterValues (selects : List (SelectNode Empty)) : List V :=
  selects.flatMap fun s => s.sources.addedParams lower filters s.ctes

@[simp] theorem filterValues_append (ss ts : List (SelectNode Empty)) :
    filterValues lower filters (ss ++ ts) =
      filterValues lower filters ss ++ filterValues lower filters ts := List.flatMap_append ..

@[simp] theorem filterValues_singleton (s : SelectNode Empty) :
    filterValues lower filters [s] = s.sources.addedParams lower filters s.ctes := by
  simp [filterValues]

mutual

/-- The values are collected along `traverse_scope`. -/
theorem Expr.filterParams_eq (ctes : List String) : ∀ e : Expr Empty,
    e.filterParams lower filters ctes = filterValues lower filters (e.selects ctes)
  | .column _ _ => rfl
  | .star _ => rfl
  | .literal _ => rfl
  | .func _ args => Expr.filterParamsAll_eq ctes args
  | .aliased e _ => Expr.filterParams_eq ctes e
  | .subquery _ args q => by
    simp [Expr.filterParams, Expr.selects, Expr.filterParamsAll_eq ctes args,
      Query.filterParams_eq ctes q]

theorem Expr.filterParamsAll_eq (ctes : List String) : ∀ es : List (Expr Empty),
    Expr.filterParamsAll lower filters ctes es =
      filterValues lower filters (Expr.selectsAll ctes es)
  | [] => rfl
  | e :: es => by
    simp [Expr.filterParamsAll, Expr.selectsAll, Expr.filterParams_eq ctes e,
      Expr.filterParamsAll_eq ctes es]

theorem From.derivedParams_eq (ctes : List String) : ∀ f : From Empty,
    f.derivedParams lower filters ctes = filterValues lower filters (f.derivedSelects ctes)
  | .nothing => rfl
  | .table left _ _ _ => From.derivedParams_eq ctes left
  | .derived left _ q _ _ _ => by
    simp [From.derivedParams, From.derivedSelects, From.derivedParams_eq ctes left,
      Query.filterParams_eq ctes q]

theorem From.onParams_eq (ctes : List String) : ∀ f : From Empty,
    f.onParams lower filters ctes = filterValues lower filters (f.onSelects ctes)
  | .nothing => rfl
  | .table left _ _ on => by
    simp [From.onParams, From.onSelects, From.onParams_eq ctes left,
      Expr.filterParamsAll_eq ctes on]
  | .derived left _ _ _ _ on => by
    simp [From.onParams, From.onSelects, From.onParams_eq ctes left,
      Expr.filterParamsAll_eq ctes on]

theorem Query.filterParams_eq (ctes : List String) : ∀ q : Query Empty,
    q.filterParams lower filters ctes = filterValues lower filters (q.selects ctes)
  | .select ps f cs g h o => by
    simp [Query.filterParams, Query.selects, From.derivedParams_eq ctes f,
      Expr.filterParamsAll_eq ctes ps, From.onParams_eq ctes f, Expr.filterParamsAll_eq ctes cs,
      Expr.filterParamsAll_eq ctes g, Expr.filterParamsAll_eq ctes h,
      Expr.filterParamsAll_eq ctes o]
  | .withTable name _ body rest => by
    simp [Query.filterParams, Query.selects, Query.filterParams_eq ctes body,
      Query.filterParams_eq (name :: ctes) rest]
  | .setOp left right => by
    simp [Query.filterParams, Query.selects, Query.filterParams_eq ctes left,
      Query.filterParams_eq ctes right]

end

/-! ## Every value has its placeholder -/

mutual

theorem Expr.placeholders_eq (ctes : List String) : ∀ e : Expr Empty,
    (tokenValues (e.withFilters lower filters ctes).render : Multiset V) =
      e.filterParams lower filters ctes
  | .column _ _ => rfl
  | .star _ => rfl
  | .literal _ => rfl
  | .func _ args => by
    simp [Expr.withFilters, Expr.render, Expr.filterParams, Expr.placeholders_eq_all ctes args,
      -Multiset.coe_eq_coe]
  | .aliased e _ => by
    simp [Expr.withFilters, Expr.render, Expr.filterParams, Expr.placeholders_eq ctes e,
      -Multiset.coe_eq_coe]
  | .subquery _ args q => by
    simp [Expr.withFilters, Expr.render, Expr.filterParams, ← Multiset.coe_add,
      Expr.placeholders_eq_all ctes args, Query.placeholders_eq ctes q, -Multiset.coe_eq_coe]

theorem Expr.placeholders_eq_all (ctes : List String) : ∀ es : List (Expr Empty),
    (tokenValues (Expr.renderAll (Expr.withFiltersAll lower filters ctes es)) : Multiset V) =
      Expr.filterParamsAll lower filters ctes es
  | [] => rfl
  | e :: es => by
    simp [Expr.withFiltersAll, Expr.renderAll, Expr.filterParamsAll, ← Multiset.coe_add,
      Expr.placeholders_eq ctes e, Expr.placeholders_eq_all ctes es, -Multiset.coe_eq_coe]

theorem From.placeholders_eq (ctes : List String) : ∀ f : From Empty,
    (tokenValues (f.withFilters lower filters ctes).render : Multiset V) =
      f.derivedParams lower filters ctes + f.onParams lower filters ctes
  | .nothing => rfl
  | .table left _ _ on => by
    simp only [From.withFilters, From.render, From.derivedParams, From.onParams,
      tokenValues_append, tokenValues_word, ← Multiset.coe_add, From.placeholders_eq ctes left,
      Expr.placeholders_eq_all ctes on]
    abel
  | .derived left _ q _ _ on => by
    simp only [From.withFilters, From.render, From.derivedParams, From.onParams,
      tokenValues_append, tokenValues_word, ← Multiset.coe_add, From.placeholders_eq ctes left,
      Query.placeholders_eq ctes q, Expr.placeholders_eq_all ctes on]
    abel

/-- The values that are collected are those of the placeholders, if not in their order. -/
theorem Query.placeholders_eq (ctes : List String) : ∀ q : Query Empty,
    (tokenValues (q.withFilters lower filters ctes).render : Multiset V) =
      q.filterParams lower filters ctes
  | .select ps f cs g h o => by
    simp only [Query.withFilters, Query.render, Query.filterParams, tokenValues_append,
      tokenValues_word, tokenValues_renderAll_append, tokenValues_addedConditions,
      ← Multiset.coe_add, From.placeholders_eq ctes f, Expr.placeholders_eq_all]
    abel
  | .withTable name _ body rest => by
    simp [Query.withFilters, Query.render, Query.filterParams, ← Multiset.coe_add,
      Query.placeholders_eq ctes body, Query.placeholders_eq (name :: ctes) rest,
      -Multiset.coe_eq_coe]
  | .setOp left right => by
    simp [Query.withFilters, Query.render, Query.filterParams, ← Multiset.coe_add,
      Query.placeholders_eq ctes left, Query.placeholders_eq ctes right, -Multiset.coe_eq_coe]

end

/-! ## Blocks that change places -/

/-- The `SELECT`s in a `FROM` clause in the order of its text: source by source, each
followed by its conditions. -/
def From.textSelects (ctes : List String) : From Empty → List (SelectNode Empty)
  | .nothing => []
  | .table left _ _ on => left.textSelects ctes ++ Expr.selectsAll ctes on
  | .derived left _ q _ _ on =>
    left.textSelects ctes ++ q.selects ctes ++ Expr.selectsAll ctes on

theorem From.length_textSelects (ctes : List String) : ∀ f : From Empty,
    (filterValues lower filters (f.textSelects ctes)).length =
      (filterValues lower filters (f.derivedSelects ctes)).length +
        (filterValues lower filters (f.onSelects ctes)).length
  | .nothing => rfl
  | .table left _ _ on => by
    have := From.length_textSelects ctes left
    simp only [From.textSelects, From.derivedSelects, From.onSelects, filterValues_append,
      List.length_append]
    omega
  | .derived left _ q _ _ on => by
    have := From.length_textSelects ctes left
    simp only [From.textSelects, From.derivedSelects, From.onSelects, filterValues_append,
      List.length_append]
    omega

/-- The `SELECT`s in the subqueries after the `WHERE`. -/
def SelectNode.tailSelects (s : SelectNode Empty) : List (SelectNode Empty) :=
  Expr.selectsAll s.ctes s.group ++ Expr.selectsAll s.ctes s.having ++
    Expr.selectsAll s.ctes s.order

/-- The blocks that the two orders place differently commute: the filter values of
derived tables with those of the projection (and of earlier join conditions), and the
filter values of subqueries after the `WHERE` with those of the `SELECT` itself. -/
structure SelectNode.Commutes (s : SelectNode Empty) : Prop where
  sources :
    filterValues lower filters (s.sources.derivedSelects s.ctes ++
      Expr.selectsAll s.ctes s.projections ++ s.sources.onSelects s.ctes) =
    filterValues lower filters (Expr.selectsAll s.ctes s.projections ++
      s.sources.textSelects s.ctes)
  tail : filterValues lower filters (s.tailSelects ++ [s]) =
    filterValues lower filters ([s] ++ s.tailSelects)

/-- The values collected for a query are those of its placeholders, in the order of
the rendered text. -/
def Query.InOrder (ctes : List String) (q : Query Empty) : Prop :=
  q.filterParams lower filters ctes = tokenValues (q.withFilters lower filters ctes).render

/-- With its parts in order, a `SELECT` is in order exactly if its blocks commute. -/
theorem SelectNode.inOrder_iff (s : SelectNode Empty)
    (hp : tokenValues (Expr.renderAll (Expr.withFiltersAll lower filters s.ctes s.projections)) =
      filterValues lower filters (Expr.selectsAll s.ctes s.projections))
    (hf : tokenValues (s.sources.withFilters lower filters s.ctes).render =
      filterValues lower filters (s.sources.textSelects s.ctes))
    (hc : tokenValues (Expr.renderAll (Expr.withFiltersAll lower filters s.ctes s.conditions)) =
      filterValues lower filters (Expr.selectsAll s.ctes s.conditions))
    (hg : tokenValues (Expr.renderAll (Expr.withFiltersAll lower filters s.ctes s.group)) =
      filterValues lower filters (Expr.selectsAll s.ctes s.group))
    (hh : tokenValues (Expr.renderAll (Expr.withFiltersAll lower filters s.ctes s.having)) =
      filterValues lower filters (Expr.selectsAll s.ctes s.having))
    (ho : tokenValues (Expr.renderAll (Expr.withFiltersAll lower filters s.ctes s.order)) =
      filterValues lower filters (Expr.selectsAll s.ctes s.order)) :
    s.query.InOrder lower filters s.ctes ↔ s.Commutes lower filters := by
  -- both sides as: what comes up to the sources, the conditions, the rest
  have hparams : s.query.filterParams lower filters s.ctes =
      filterValues lower filters (s.sources.derivedSelects s.ctes ++
        Expr.selectsAll s.ctes s.projections ++ s.sources.onSelects s.ctes) ++
      (filterValues lower filters (Expr.selectsAll s.ctes s.conditions) ++
        filterValues lower filters (s.tailSelects ++ [s])) := by
    rw [Query.filterParams_eq]
    simp [SelectNode.query, Query.selects, SelectNode.tailSelects]
  have htext : tokenValues (s.query.withFilters lower filters s.ctes).render =
      filterValues lower filters (Expr.selectsAll s.ctes s.projections ++
        s.sources.textSelects s.ctes) ++
      (filterValues lower filters (Expr.selectsAll s.ctes s.conditions) ++
        filterValues lower filters ([s] ++ s.tailSelects)) := by
    simp only [SelectNode.query, Query.withFilters, Query.render, tokenValues_word,
      tokenValues_append, tokenValues_renderAll_append, hp, hf, hc, hg, hh, ho,
      tokenValues_addedConditions, SelectNode.tailSelects, filterValues_append,
      filterValues_singleton, List.append_assoc]
  have hlen : (filterValues lower filters (s.sources.derivedSelects s.ctes ++
        Expr.selectsAll s.ctes s.projections ++ s.sources.onSelects s.ctes)).length =
      (filterValues lower filters (Expr.selectsAll s.ctes s.projections ++
        s.sources.textSelects s.ctes)).length := by
    have := s.sources.length_textSelects lower filters s.ctes
    simp only [filterValues_append, List.length_append]
    omega
  rw [Query.InOrder, hparams, htext]
  constructor
  · intro h
    obtain ⟨h1, h2⟩ := List.append_inj h hlen
    exact ⟨h1, List.append_cancel_left h2⟩
  · rintro ⟨h1, h2⟩
    rw [h1, h2]

/-! ## Commuting everywhere puts everything in order -/

mutual

theorem Expr.inOrder (ctes : List String) : ∀ e : Expr Empty,
    (∀ s ∈ e.selects ctes, s.Commutes lower filters) →
    tokenValues (e.withFilters lower filters ctes).render =
      filterValues lower filters (e.selects ctes)
  | .column _ _, _ => rfl
  | .star _, _ => rfl
  | .literal _, _ => rfl
  | .func _ args, h => by
    simp [Expr.withFilters, Expr.render, Expr.selects, Expr.inOrderAll ctes args h]
  | .aliased e _, h => by
    simp [Expr.withFilters, Expr.render, Expr.selects, Expr.inOrder ctes e h]
  | .subquery _ args q, h => by
    obtain ⟨hargs, hq⟩ := List.forall_mem_append.mp h
    simp [Expr.withFilters, Expr.render, Expr.selects, Expr.inOrderAll ctes args hargs,
      Query.inOrder ctes q hq]

theorem Expr.inOrderAll (ctes : List String) : ∀ es : List (Expr Empty),
    (∀ s ∈ Expr.selectsAll ctes es, s.Commutes lower filters) →
    tokenValues (Expr.renderAll (Expr.withFiltersAll lower filters ctes es)) =
      filterValues lower filters (Expr.selectsAll ctes es)
  | [], _ => rfl
  | e :: es, h => by
    obtain ⟨he, hes⟩ := List.forall_mem_append.mp h
    simp [Expr.withFiltersAll, Expr.renderAll, Expr.selectsAll, Expr.inOrder ctes e he,
      Expr.inOrderAll ctes es hes]

theorem From.inOrder (ctes : List String) : ∀ f : From Empty,
    (∀ s ∈ f.derivedSelects ctes, s.Commutes lower filters) →
    (∀ s ∈ f.onSelects ctes, s.Commutes lower filters) →
    tokenValues (f.withFilters lower filters ctes).render =
      filterValues lower filters (f.textSelects ctes)
  | .nothing, _, _ => rfl
  | .table left _ _ on, hd, ho => by
    obtain ⟨hleft, hon⟩ := List.forall_mem_append.mp ho
    simp [From.withFilters, From.render, From.textSelects, From.inOrder ctes left hd hleft,
      Expr.inOrderAll ctes on hon]
  | .derived left _ q _ _ on, hd, ho => by
    obtain ⟨hdleft, hq⟩ := List.forall_mem_append.mp hd
    obtain ⟨hleft, hon⟩ := List.forall_mem_append.mp ho
    simp [From.withFilters, From.render, From.textSelects, From.inOrder ctes left hdleft hleft,
      Query.inOrder ctes q hq, Expr.inOrderAll ctes on hon]

theorem Query.inOrder (ctes : List String) : ∀ q : Query Empty,
    (∀ s ∈ q.selects ctes, s.Commutes lower filters) →
    tokenValues (q.withFilters lower filters ctes).render =
      filterValues lower filters (q.selects ctes)
  | .select ps f cs g h o, hs => by
    simp only [Query.selects, List.forall_mem_append, List.forall_mem_singleton] at hs
    obtain ⟨⟨⟨⟨⟨hd, hp⟩, hon⟩, hc⟩, ⟨hg, hh⟩, ho⟩, hself⟩ := hs
    have hin := (SelectNode.inOrder_iff lower filters ⟨ctes, ps, f, cs, g, h, o⟩
      (Expr.inOrderAll ctes ps hp) (From.inOrder ctes f hd hon) (Expr.inOrderAll ctes cs hc)
      (Expr.inOrderAll ctes g hg) (Expr.inOrderAll ctes h hh)
      (Expr.inOrderAll ctes o ho)).mpr hself
    rw [← Query.filterParams_eq]
    exact hin.symm
  | .withTable name _ body rest, hs => by
    obtain ⟨hbody, hrest⟩ := List.forall_mem_append.mp hs
    simp [Query.withFilters, Query.render, Query.selects, Query.inOrder ctes body hbody,
      Query.inOrder (name :: ctes) rest hrest]
  | .setOp left right, hs => by
    obtain ⟨hleft, hright⟩ := List.forall_mem_append.mp hs
    simp [Query.withFilters, Query.render, Query.selects, Query.inOrder ctes left hleft,
      Query.inOrder ctes right hright]

end

/-! ## All in order, and all commuting -/

mutual

theorem Expr.selects_inOrder_iff (ctes : List String) : ∀ e : Expr Empty,
    (∀ s ∈ e.selects ctes, s.query.InOrder lower filters s.ctes) ↔
      ∀ s ∈ e.selects ctes, s.Commutes lower filters
  | .column _ _ => by simp [Expr.selects]
  | .star _ => by simp [Expr.selects]
  | .literal _ => by simp [Expr.selects]
  | .func _ args => Expr.selectsAll_inOrder_iff ctes args
  | .aliased e _ => Expr.selects_inOrder_iff ctes e
  | .subquery _ args q => by
    simp only [Expr.selects, List.forall_mem_append]
    exact and_congr (Expr.selectsAll_inOrder_iff ctes args) (Query.selects_inOrder_iff ctes q)

theorem Expr.selectsAll_inOrder_iff (ctes : List String) : ∀ es : List (Expr Empty),
    (∀ s ∈ Expr.selectsAll ctes es, s.query.InOrder lower filters s.ctes) ↔
      ∀ s ∈ Expr.selectsAll ctes es, s.Commutes lower filters
  | [] => by simp [Expr.selectsAll]
  | e :: es => by
    simp only [Expr.selectsAll, List.forall_mem_append]
    exact and_congr (Expr.selects_inOrder_iff ctes e) (Expr.selectsAll_inOrder_iff ctes es)

theorem From.derivedSelects_inOrder_iff (ctes : List String) : ∀ f : From Empty,
    (∀ s ∈ f.derivedSelects ctes, s.query.InOrder lower filters s.ctes) ↔
      ∀ s ∈ f.derivedSelects ctes, s.Commutes lower filters
  | .nothing => by simp [From.derivedSelects]
  | .table left _ _ _ => From.derivedSelects_inOrder_iff ctes left
  | .derived left _ q _ _ _ => by
    simp only [From.derivedSelects, List.forall_mem_append]
    exact and_congr (From.derivedSelects_inOrder_iff ctes left) (Query.selects_inOrder_iff ctes q)

theorem From.onSelects_inOrder_iff (ctes : List String) : ∀ f : From Empty,
    (∀ s ∈ f.onSelects ctes, s.query.InOrder lower filters s.ctes) ↔
      ∀ s ∈ f.onSelects ctes, s.Commutes lower filters
  | .nothing => by simp [From.onSelects]
  | .table left _ _ on => by
    simp only [From.onSelects, List.forall_mem_append]
    exact and_congr (From.onSelects_inOrder_iff ctes left) (Expr.selectsAll_inOrder_iff ctes on)
  | .derived left _ _ _ _ on => by
    simp only [From.onSelects, List.forall_mem_append]
    exact and_congr (From.onSelects_inOrder_iff ctes left) (Expr.selectsAll_inOrder_iff ctes on)

theorem Query.selects_inOrder_iff (ctes : List String) : ∀ q : Query Empty,
    (∀ s ∈ q.selects ctes, s.query.InOrder lower filters s.ctes) ↔
      ∀ s ∈ q.selects ctes, s.Commutes lower filters
  | .select ps f cs g h o => by
    simp only [Query.selects, List.forall_mem_append, List.forall_mem_singleton]
    rw [From.derivedSelects_inOrder_iff ctes f, Expr.selectsAll_inOrder_iff ctes ps,
      From.onSelects_inOrder_iff ctes f, Expr.selectsAll_inOrder_iff ctes cs,
      Expr.selectsAll_inOrder_iff ctes g, Expr.selectsAll_inOrder_iff ctes h,
      Expr.selectsAll_inOrder_iff ctes o]
    -- what lies below commutes, hence is in order, and only the `SELECT` itself is left
    refine and_congr_right ?_
    rintro ⟨⟨⟨⟨hd, hp⟩, hon⟩, hc⟩, ⟨hg, hh⟩, ho⟩
    exact SelectNode.inOrder_iff lower filters ⟨ctes, ps, f, cs, g, h, o⟩
      (Expr.inOrderAll lower filters ctes ps hp) (From.inOrder lower filters ctes f hd hon)
      (Expr.inOrderAll lower filters ctes cs hc) (Expr.inOrderAll lower filters ctes g hg)
      (Expr.inOrderAll lower filters ctes h hh) (Expr.inOrderAll lower filters ctes o ho)
  | .withTable name _ body rest => by
    simp only [Query.selects, List.forall_mem_append]
    exact and_congr (Query.selects_inOrder_iff ctes body)
      (Query.selects_inOrder_iff (name :: ctes) rest)
  | .setOp left right => by
    simp only [Query.selects, List.forall_mem_append]
    exact and_congr (Query.selects_inOrder_iff ctes left) (Query.selects_inOrder_iff ctes right)

end

/-! ## The bound statement -/

/-- The statement is printed with its placeholders in the order of its parts. -/
def PrintsInOrder (generate : Query V → List (Token V)) : Prop :=
  ∀ q, tokenValues (generate q) = tokenValues q.render

/-- The bound statement is the printed one with a token of the driver for each placeholder,
numbered on from the start, and nothing else changed; the values are those of the
placeholders, from left to right. -/
structure BoundSql.Binds (b : BoundSql V) (tokens : List (Token V)) (dialect : String)
    (startIndex : Nat) : Prop where
  sql : ∀ style, driverStyle dialect = some style →
    b.sql = boundText style startIndex (tokenPieces tokens)
  params : b.params = tokenValues tokens

/-- The renderer finds the placeholders and nothing else: it looks for `?` outside quoted
spans.  For a driver that takes `?` there is nothing to do. -/
def MarksPlaceholders (dialect : String) (pieces : List FilterPiece) : Prop :=
  driverStyle dialect = some .question ∨
    NoOwnMarks none pieces ∧ PlaceholdersOutside none pieces

theorem driverStyle_of_knownDialect {dialect : String} (h : knownDialect dialect = true) :
    ∃ style, driverStyle dialect = some style := by
  simp only [knownDialect, List.contains_eq_mem, decide_eq_true_eq, List.mem_cons,
    List.not_mem_nil, or_false] at h
  rcases h with rfl | rfl | rfl | rfl | rfl
  · exact ⟨_, rfl⟩
  · exact ⟨_, rfl⟩
  · exact ⟨_, rfl⟩
  · exact ⟨_, rfl⟩
  · exact ⟨_, rfl⟩

/-- **Values and placeholders agree exactly where blocks commute.**  The values of a
bound statement stand in the order of its placeholders, and so do those of each
`SELECT` in it, exactly if the renderer finds the placeholders and nothing else, and
at every `SELECT` the blocks that change places commute. -/
theorem params_in_order_iff {generate : Query V → List (Token V)}
    (hgenerate : PrintsInOrder generate) {schema : List SchemaTable} {dialect : String}
    {startIndex : Nat} {stmt : Query Empty} {b : BoundSql V}
    (h : applyRowFilters lower filters generate schema dialect startIndex stmt = .ok b) :
    (b.Binds (generate (stmt.withFilters lower filters [])) (lower dialect) startIndex ∧
      ∀ s ∈ stmt.selects [], s.query.InOrder lower filters s.ctes) ↔
    MarksPlaceholders (lower dialect) (tokenPieces (generate (stmt.withFilters lower filters []))) ∧
      ∀ s ∈ stmt.selects [], s.Commutes lower filters := by
  obtain ⟨hknown, hsql, hparams⟩ := applyRowFilters_ok lower filters h
  obtain ⟨style, hstyle⟩ := driverStyle_of_knownDialect hknown
  have hmarks : (∀ style, driverStyle (lower dialect) = some style → b.sql = boundText style
      startIndex (tokenPieces (generate (stmt.withFilters lower filters [])))) ↔
      MarksPlaceholders (lower dialect)
        (tokenPieces (generate (stmt.withFilters lower filters []))) := by
    rw [hsql, MarksPlaceholders, hstyle]
    simp only [Option.some.injEq, forall_eq']
    exact renderPlaceholders_iff hstyle
  rw [Query.selects_inOrder_iff lower filters [] stmt, ← hmarks]
  constructor
  · rintro ⟨hbinds, hall⟩
    exact ⟨hbinds.sql, hall⟩
  · rintro ⟨htext, hall⟩
    refine ⟨⟨htext, ?_⟩, hall⟩
    rw [hparams, hgenerate, Query.filterParams_eq, Query.inOrder lower filters [] stmt hall]

end Order

/-! ## A derived table before the projection

`SELECT (SELECT total FROM users) FROM (SELECT id FROM orders) AS d`, with one filter
on each table.
-/
section Example

/-- `SELECT <column> FROM <table>`. -/
def selectColumn (column table : String) : Query Empty :=
  .select [.column "" column] (.table .nothing .inner { name := table } []) [] [] [] []

/-- A filtered table in the projection, and one in a derived table. -/
def crossedStatement : Query Empty :=
  .select [.subquery .scalar [] (selectColumn "total" "users")]
    (.derived .nothing .inner (selectColumn "id" "orders") "d" [] []) [] [] [] []

def crossedFilters : List (PreparedRowFilter String) :=
  [ownerFilter "orders" "alice", ownerFilter "users" "bob"]

def crossedSchema : List SchemaTable :=
  [{ name := "orders", columns := ["id", "owner"] },
    { name := "users", columns := ["total", "owner"] }]

/-- The placeholder of `users` comes first in the text, the value for `orders` first
among the values. -/
theorem params_not_in_order : ∃ b,
    applyRowFilters lowerAscii crossedFilters Query.render crossedSchema "postgres" 1
        crossedStatement = .ok b ∧
      tokenValues (crossedStatement.withFilters lowerAscii crossedFilters []).render =
        ["bob", "alice"] ∧
      b.params = ["alice", "bob"] ∧
      ¬ b.Binds (crossedStatement.withFilters lowerAscii crossedFilters []).render "postgres"
        1 := by
  refine ⟨_, rfl, by decide, by decide, fun h => ?_⟩
  exact absurd h.params (by decide)

-- An operator `?` takes the number of the placeholder.
example : renderPlaceholders "data ? 'k' AND owner = ?".toList "postgres" 1 =
    "data $1 'k' AND owner = $2".toList := by decide +kernel

/-- `SELECT id FROM orders WHERE id IN (SELECT total FROM users)`. -/
def nestedStatement : Query Empty :=
  .select [.column "" "id"] (.table .nothing .inner { name := "orders" } [])
    [.subquery .membership [.column "" "id"] (selectColumn "total" "users")] [] [] []

/-- There the inner filter comes first in both orders. -/
theorem params_in_order_nested : ∃ b,
    applyRowFilters lowerAscii crossedFilters Query.render crossedSchema "postgres" 1
        nestedStatement = .ok b ∧
      b.params = ["bob", "alice"] ∧
      b.Binds (nestedStatement.withFilters lowerAscii crossedFilters []).render "postgres" 1 := by
  have hok : applyRowFilters lowerAscii crossedFilters Query.render crossedSchema "postgres" 1
      nestedStatement = .ok ⟨_, _⟩ := rfl
  refine ⟨_, hok, by decide, ?_⟩
  refine ((params_in_order_iff lowerAscii crossedFilters (fun _ => rfl) hok).mpr
    ⟨.inr ⟨by decide +kernel, by decide +kernel⟩, ?_⟩).1
  simp only [nestedStatement, selectColumn, Query.selects, From.derivedSelects, From.onSelects,
    Expr.selectsAll, Expr.selects, List.append_nil, List.nil_append, List.cons_append,
    List.forall_mem_cons]
  exact ⟨⟨rfl, rfl⟩, ⟨rfl, rfl⟩, by simp⟩

end Example
end QueryCraft
