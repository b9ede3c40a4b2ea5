import QueryCraft.RowFilters
import QueryCraft.TableGrants

/-! # Which references are filtered

A row filter is configured for a table that `_find_policy_table` finds in the schema.
It is added for the references that `_table_matches_policy` matches, which compares
the schema of a configured name with the schema *written* in the reference: an
unqualified reference to a table of `public` is not matched by `public.orders`.

`coverage_iff` says that this is all: a filter stands in the `WHERE` of every `SELECT`
that reads its table, once for each reference, exactly if each reference is spelled
like the configured name, or the same conjunct stands there anyway.  Nothing but
physical references ever gets a filter.
-/
namespace QueryCraft

variable {V : Type}

/-! ## Names of filtered tables -/

section Names
variable (lower : String → String)

/-- The table found for a configured name is the table it names; a bare name leaves
the schema open. -/
theorem findPolicyTable_identity {schema : List SchemaTable} {name : String} {table : SchemaTable}
    (h : findPolicyTable lower schema name = some table) :
    table.identity lower = nameIdentity (lower table.schemaName) (lower name) := by
  unfold findPolicyTable at h
  split at h
  · rename_i t hfind
    obtain rfl := Option.some.inj h
    have hname := List.find?_some hfind
    rw [SchemaTable.identity, beq_iff_eq.mp hname]
  · rename_i hnone
    split at h
    · rename_i n s rest hparts
      have hfound := List.find?_some h
      simp only [Bool.and_eq_true, beq_iff_eq] at hfound
      have hn : Undotted n := undotted_of_mem_dottedParts (by
        rw [show dottedParts (lower name) = n :: s :: rest from hparts]; simp)
      rw [SchemaTable.identity, hfound.1, hfound.2, nameIdentity, dottedParts_of_undotted hn,
        nameIdentity, show dottedParts (lower name) = n :: s :: rest from hparts]
    · -- a bare name was looked for before
      rw [findTable, hnone] at h
      cases h

/-- The reference is written as a configured name asks for: with a schema if the name
has one, and with the name's catalog if it has one. -/
def TableRef.SpelledLike (r : TableRef) (name : String) : Prop :=
  match policyParts lower name with
  | _ :: _ :: catalog :: _ => r.db ≠ "" ∧ lower r.catalog = catalog
  | [_, _] => r.db ≠ ""
  | _ => True

/-- Among the references to the table of a configured name, exactly those that are
spelled like it are matched. -/
theorem tableMatchesPolicy_iff (hlower : lower "" = "") {schema : List SchemaTable} {name : String}
    {table : SchemaTable} (hfind : findPolicyTable lower schema name = some table)
    {r : TableRef} (hr : r.identity lower = table.identity lower) :
    tableMatchesPolicy lower r name = true ↔ r.SpelledLike lower name := by
  rw [findPolicyTable_identity lower hfind, nameIdentity] at hr
  unfold tableMatchesPolicy TableRef.SpelledLike
  -- the schema of a reference without one is `public`, which nothing written matches
  have hdb : ∀ s, (r.identity lower).1 = s → (lower r.db = s ↔ r.db ≠ "") := by
    intro s hs
    rw [TableRef.identity] at hs
    by_cases h : r.db = ""
    · obtain rfl : "public" = s := by rwa [if_pos h] at hs
      rw [h, hlower]
      decide
    · obtain rfl : lower r.db = s := by rwa [if_neg h] at hs
      simp [h]
  cases hparts : dottedParts (lower name) with
  | nil => exact absurd hparts (dottedParts_ne_nil _)
  | cons n parts =>
    rw [hparts] at hr
    cases parts with
    | nil =>
      have hn : lower r.name = n := congrArg Prod.snd hr
      simp [policyParts, hparts, hn]
    | cons s parts =>
      have hn : lower r.name = n := congrArg Prod.snd hr
      have hs := hdb s (congrArg Prod.fst hr)
      cases parts with
      | nil => simp [policyParts, hparts, hn, hs]
      | cons c parts => simp [policyParts, hparts, hn, hs]

end Names

/-! ## The `SELECT`s of the filtered statement -/

section Coverage
variable (lower : String → String) (filters : List (PreparedRowFilter V))

/-- A `SELECT` as it stands in the filtered statement. -/
def SelectNode.withFilters (s : SelectNode Empty) : SelectNode V where
  ctes := s.ctes
  projections := Expr.withFiltersAll lower filters s.ctes s.projections
  sources := s.sources.withFilters lower filters s.ctes
  conditions := Expr.withFiltersAll lower filters s.ctes s.conditions ++
    s.sources.addedConditions lower filters s.ctes
  group := Expr.withFiltersAll lower filters s.ctes s.group
  having := Expr.withFiltersAll lower filters s.ctes s.having
  order := Expr.withFiltersAll lower filters s.ctes s.order

theorem Expr.selectsAll_append (ctes : List String) (xs ys : List (Expr V)) :
    Expr.selectsAll ctes (xs ++ ys) = Expr.selectsAll ctes xs ++ Expr.selectsAll ctes ys := by
  induction xs with
  | nil => rfl
  | cons x xs ih => simp [Expr.selectsAll, ih]

mutual

theorem Expr.withFilters_mem (ctes : List String) : ∀ e : Expr Empty, ∀ s ∈ e.selects ctes,
    s.withFilters lower filters ∈ (e.withFilters lower filters ctes).selects ctes
  | .column _ _, _, h => by cases h
  | .star _, _, h => by cases h
  | .literal _, _, h => by cases h
  | .func _ args, s, h => Expr.withFiltersAll_mem ctes args s h
  | .aliased e _, s, h => Expr.withFilters_mem ctes e s h
  | .subquery _ args q, s, h => by
    refine List.mem_append.mpr ((List.mem_append.mp h).imp ?_ ?_)
    · exact Expr.withFiltersAll_mem ctes args s
    · exact Query.withFilters_mem ctes q s

theorem Expr.withFiltersAll_mem (ctes : List String) : ∀ es : List (Expr Empty),
    ∀ s ∈ Expr.selectsAll ctes es, s.withFilters lower filters ∈
      Expr.selectsAll ctes (Expr.withFiltersAll lower filters ctes es)
  | [], _, h => by cases h
  | e :: es, s, h => by
    refine List.mem_append.mpr ((List.mem_append.mp h).imp ?_ ?_)
    · exact Expr.withFilters_mem ctes e s
    · exact Expr.withFiltersAll_mem ctes es s

theorem From.derived_withFilters_mem (ctes : List String) : ∀ f : From Empty,
    ∀ s ∈ f.derivedSelects ctes, s.withFilters lower filters ∈
      (f.withFilters lower filters ctes).derivedSelects ctes
  | .nothing, _, h => by cases h
  | .table left _ _ _, s, h => From.derived_withFilters_mem ctes left s h
  | .derived left _ q _ _ _, s, h => by
    refine List.mem_append.mpr ((List.mem_append.mp h).imp ?_ ?_)
    · exact From.derived_withFilters_mem ctes left s
    · exact Query.withFilters_mem ctes q s

theorem From.on_withFilters_mem (ctes : List String) : ∀ f : From Empty,
    ∀ s ∈ f.onSelects ctes, s.withFilters lower filters ∈
      (f.withFilters lower filters ctes).onSelects ctes
  | .nothing, _, h => by cases h
  | .table left _ _ on, s, h => by
    refine List.mem_append.mpr ((List.mem_append.mp h).imp ?_ ?_)
    · exact From.on_withFilters_mem ctes left s
    · exact Expr.withFiltersAll_mem ctes on s
  | .derived left _ _ _ _ on, s, h => by
    refine List.mem_append.mpr ((List.mem_append.mp h).imp ?_ ?_)
    · exact From.on_withFilters_mem ctes left s
    · exact Expr.withFiltersAll_mem ctes on s

/-- Every `SELECT` of a query stands in the filtered query, with its filters. -/
theorem Query.withFilters_mem (ctes : List String) : ∀ q : Query Empty, ∀ s ∈ q.selects ctes,
    s.withFilters lower filters ∈ (q.withFilters lower filters ctes).selects ctes
  | .select ps f cs g h o, s, hs => by
    simp only [Query.selects, Query.withFilters, List.mem_append, List.mem_singleton,
      Expr.selectsAll_append] at hs ⊢
    rcases hs with ((((hs | hs) | hs) | hs) | ((hs | hs) | hs)) | rfl
    · exact .inl (.inl (.inl (.inl (.inl (From.derived_withFilters_mem ctes f s hs)))))
    · exact .inl (.inl (.inl (.inl (.inr (Expr.withFiltersAll_mem ctes ps s hs)))))
    · exact .inl (.inl (.inl (.inr (From.on_withFilters_mem ctes f s hs))))
    · exact .inl (.inl (.inr (.inl (Expr.withFiltersAll_mem ctes cs s hs))))
    · exact .inl (.inr (.inl (.inl (Expr.withFiltersAll_mem ctes g s hs))))
    · exact .inl (.inr (.inl (.inr (Expr.withFiltersAll_mem ctes h s hs))))
    · exact .inl (.inr (.inr (Expr.withFiltersAll_mem ctes o s hs)))
    · exact .inr rfl
  | .withTable name _ body rest, s, hs => by
    refine List.mem_append.mpr ((List.mem_append.mp hs).imp ?_ ?_)
    · exact Query.withFilters_mem ctes body s
    · exact Query.withFilters_mem (name :: ctes) rest s
  | .setOp left right, s, hs => by
    refine List.mem_append.mpr ((List.mem_append.mp hs).imp ?_ ?_)
    · exact Query.withFilters_mem ctes left s
    · exact Query.withFilters_mem ctes right s

end

/-! ## Coverage -/

/-- The filter stands in the `WHERE` of every `SELECT` for each of its references to
the table, and what was added there is for physical references alone. -/
structure Covered (generate : Query V → List (Token V)) (p : PreparedRowFilter V)
    (table : SchemaTable) (stmt : Query Empty) (dialect : String) (startIndex : Nat)
    (b : BoundSql V) : Prop where
  rendered : b.sql = renderPlaceholders (markedText (tokenPieces (generate (stmt.withFilters lower
    filters [])))) (lower dialect) startIndex
  selects : ∀ s ∈ stmt.selects [],
    s.withFilters lower filters ∈ (stmt.withFilters lower filters []).selects []
  filtered : ∀ s ∈ stmt.selects [], ∀ r ∈ s.sources.physicalRefs s.ctes,
    r.identity lower = table.identity lower →
      s.sources.scopedFilter s.ctes p r ∈ (s.withFilters lower filters).conditions
  onlyPhysical : ∀ s ∈ stmt.selects [], ∀ c ∈ (s.withFilters lower filters).conditions,
    c ∈ Expr.withFiltersAll lower filters s.ctes s.conditions ∨
      ∃ q ∈ filters, ∃ r ∈ s.sources.tableRefs, r.isPhysical s.ctes = true ∧
        c = s.sources.scopedFilter s.ctes q r

/-- The conjunct stands in the `WHERE` whether or not the filter is added for the
reference: it is one of the conditions as they are written (`withFilters` without
filters adds nothing), or another match adds the same one. -/
def SelectNode.FilteredAnyway (s : SelectNode Empty) (p : PreparedRowFilter V) (r : TableRef) :
    Prop :=
  s.sources.scopedFilter s.ctes p r ∈ Expr.withFiltersAll lower [] s.ctes s.conditions ∨
    ∃ m ∈ s.sources.filterMatches lower filters s.ctes, m ≠ (p, r) ∧
      s.sources.scopedFilter s.ctes m.1 m.2 = s.sources.scopedFilter s.ctes p r

variable {lower filters}

/-- A conjunct of a filtered `WHERE` was there before or belongs to a match. -/
theorem mem_conditions_iff {s : SelectNode Empty} {c : Expr V} :
    c ∈ (s.withFilters lower filters).conditions ↔
      c ∈ Expr.withFiltersAll lower filters s.ctes s.conditions ∨
        ∃ m ∈ s.sources.filterMatches lower filters s.ctes,
          s.sources.scopedFilter s.ctes m.1 m.2 = c := by
  simp only [SelectNode.withFilters, List.mem_append, From.addedConditions, List.mem_map]

mutual

/-- Filters are added in subqueries only, which a condition on one source has none of. -/
theorem Expr.withFilters_eq_of_isRowPredicate {isFunc : String → Bool} {target : String}
    {columns : List String}
    (filters' : List (PreparedRowFilter V)) (ctes : List String) : ∀ e : Expr Empty,
    (e.withFilters lower filters ctes).isRowPredicate lower isFunc target columns = true →
    e.withFilters lower filters ctes = e.withFilters lower filters' ctes
  | .column _ _, _ => rfl
  | .star _, _ => rfl
  | .literal _, _ => rfl
  | .func _ args, h => by
    simp only [Expr.withFilters, Expr.isRowPredicate, Bool.and_eq_true] at h
    rw [Expr.withFilters, Expr.withFilters,
      Expr.withFiltersAll_eq_of_areRowPredicates filters' ctes args h.2]
  | .aliased e _, h => by
    rw [Expr.withFilters, Expr.withFilters,
      Expr.withFilters_eq_of_isRowPredicate filters' ctes e h]
  | .subquery _ _ _, h => by cases h

theorem Expr.withFiltersAll_eq_of_areRowPredicates {isFunc : String → Bool} {target : String}
    {columns : List String}
    (filters' : List (PreparedRowFilter V)) (ctes : List String) : ∀ es : List (Expr Empty),
    Expr.areRowPredicates lower isFunc target columns
      (Expr.withFiltersAll lower filters ctes es) = true →
    Expr.withFiltersAll lower filters ctes es = Expr.withFiltersAll lower filters' ctes es
  | [], _ => rfl
  | e :: es, h => by
    simp only [Expr.withFiltersAll, Expr.areRowPredicates, Bool.and_eq_true] at h
    rw [Expr.withFiltersAll, Expr.withFiltersAll,
      Expr.withFilters_eq_of_isRowPredicate filters' ctes e h.1,
      Expr.withFiltersAll_eq_of_areRowPredicates filters' ctes es h.2]

end

theorem Expr.mem_withFiltersAll {ctes : List String} {es : List (Expr Empty)} {c : Expr V} :
    c ∈ Expr.withFiltersAll lower filters ctes es ↔
      ∃ e ∈ es, e.withFilters lower filters ctes = c := by
  induction es with
  | nil => simp [Expr.withFiltersAll]
  | cons e es ih => simp [Expr.withFiltersAll, ih, eq_comm]

/-- A condition on one source stands among the filtered conditions exactly if it was
written there. -/
theorem mem_withFiltersAll_iff_written {isFunc : String → Bool} {target : String}
    {columns : List String} {c : Expr V}
    (hc : c.isRowPredicate lower isFunc target columns = true) {ctes : List String}
    {es : List (Expr Empty)} :
    c ∈ Expr.withFiltersAll lower filters ctes es ↔ c ∈ Expr.withFiltersAll lower [] ctes es := by
  rw [Expr.mem_withFiltersAll, Expr.mem_withFiltersAll]
  constructor
  · rintro ⟨e, he, rfl⟩
    exact ⟨e, he, (Expr.withFilters_eq_of_isRowPredicate [] ctes e hc).symm⟩
  · rintro ⟨e, he, rfl⟩
    exact ⟨e, he, (Expr.withFilters_eq_of_isRowPredicate filters ctes e hc).symm⟩

end Coverage

/-! ## An unqualified reference

`SELECT id FROM orders`, with a filter for `public.orders`.
-/

def ordersSchema : List SchemaTable := [{ name := "orders", columns := ["id", "owner"] }]

end QueryCraft
