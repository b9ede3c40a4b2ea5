import QueryCraft.TableGrants

/-! # What columns and stars refer to

SQL looks a name up in the innermost scope that has it: a qualifier among the names
of the sources, an unqualified column among their columns.  A lookup with several
matches is an error of the database, as is one without any; neither reads a column.

`RoleAuthorizationRule` looks names up in tables built for the whole statement, so
its answer may be about another table than the one that is read.  A mention is
*attributed* to a table it reads if the entry the rule looks into is that table's
entry, and, for an unqualified column, if no source of its scope shows the rule an
output column that it does not have.

That depends on the names of the statement alone, on how the policy spells its tables,
and for a star on the schema (`Mention.Unmistaken`): of the references that bear a name,
the last one counts, in whatever scope it stands.  `columns_sound` says that nothing but
a mistaken name can go wrong: an accepted statement without one reads granted columns
only.
-/
namespace QueryCraft

/-! ## Resolution -/

section Resolution
variable (lower : String → String) (schema : List SchemaTable)

/-- The source a qualifier names. -/
def resolveQualifier (chain : List Scope) (table : String) : Option Source :=
  (innermost (fun s => lower s.name == lower table) chain).map (·.source)

/-- The source a column belongs to. -/
def resolveColumn (chain : List Scope) (table name : String) : Option Source :=
  if table ≠ "" then resolveQualifier lower chain table
  else (innermost (fun s => (s.source.columns lower schema).contains (lower name)) chain).map
    (·.source)

/-- The physical table of a source. -/
def Source.physical? : Source → Option TableRef
  | .physical ref => some ref
  | .logical _ => none

/-- The physical tables a mention reads. -/
def Mention.tables : Mention → List TableRef
  | .scope _ => []
  | .column own outer table name =>
    ((resolveColumn lower schema (own :: outer) table name).bind Source.physical?).toList
  | .star own outer table =>
    if table = "" then Scope.physicalRefs own
    else ((resolveQualifier lower (own :: outer) table).bind Source.physical?).toList

/-- The columns it reads of such a table. -/
def Mention.columnsOf (r : TableRef) : Mention → List String
  | .scope _ => []
  | .column _ _ _ name => [lower name]
  | .star _ _ _ => physicalColumns lower schema r

variable (policy : List (String × List String))

/-- The policy grants a column of the table a reference denotes. -/
def Granted (r : TableRef) (column : String) : Prop :=
  ∃ entry columns, dictGet policy entry = some columns ∧ EntryGrants lower entry r ∧
    column ∈ columns

/-- All columns that a mention reads of a table are granted. -/
def Mention.GrantedFor (m : Mention) (r : TableRef) : Prop :=
  ∀ c ∈ m.columnsOf lower schema r, Granted lower policy r c

/-! ## Attribution -/

/-- No source of the scope shows the rule a column that it does not have. -/
def Scope.ShowsNoMissing (scope : Scope) (column : String) : Prop :=
  ∀ s ∈ scope, ∀ table, s.source = .logical table →
    ∀ columns, scopeOutputColumns lower table = some columns → column ∈ columns →
      column ∈ table.outputs

/-- The entry of a table grants the table that is read, and the rule knows all of its
columns. -/
def Covers (r : TableRef) (actual : String) : Prop :=
  EntryGrants lower (lower actual) r ∧
    physicalColumns lower schema r ⊆
      (dictGet (physicalColumnsByTable lower schema) (lower actual)).getD []

/-- What the rule looks into for a mention is about the table. -/
def Mention.Attributed (aliases : List (String × String)) (r : TableRef) : Mention → Prop
  | .scope _ => True
  | .column own _ table name =>
    if table ≠ "" then EntryGrants lower (lower (qualifiedTable aliases table)) r
    else Scope.ShowsNoMissing lower own (lower name) ∧
      ∀ owner ∈ columnOwners lower policy aliases name, EntryGrants lower (lower owner) r
  | .star _ _ table =>
    if table ≠ "" then Covers lower schema r (qualifiedTable aliases table)
    else ∃ actual ∈ dictValues aliases, Covers lower schema r actual

/-! ## What is set aside -/

theorem mem_scope_of_sources {scope : Scope} {key : String} {source : Source}
    (h : (key, source) ∈ scope.sources lower) :
    ∃ s ∈ scope, lower s.name = key ∧ s.source = source := by
  obtain ⟨s, hs, heq⟩ := List.mem_map.mp h
  obtain ⟨rfl, rfl⟩ := Prod.mk.inj heq
  refine ⟨s, ?_, rfl, rfl⟩
  rcases List.mem_append.mp hs with hs | hs
  · exact (List.mem_filter.mp hs).1
  · exact (List.mem_filter.mp hs).1

/-- **A column that is set aside is read from no physical table**, unless a source
shows a column it does not have. -/
theorem resolveColumn_of_isLogicalColumn {own : Scope} {outer : List Scope} {table name : String}
    (h : isLogicalColumn lower policy own table name = some true)
    (hshow : table = "" → Scope.ShowsNoMissing lower own (lower name)) (r : TableRef) :
    resolveColumn lower schema (own :: outer) table name ≠ some (.physical r) := by
  intro hr
  unfold isLogicalColumn at h
  unfold resolveColumn at hr
  split at h
  · rename_i htable
    rw [if_pos htable] at hr
    split at h
    · rename_i t hget
      obtain ⟨s, hs, hname, hsource⟩ := mem_scope_of_sources lower (mem_of_dictGet hget)
      obtain ⟨s', hs', hsource'⟩ := Option.map_eq_some_iff.mp hr
      rw [innermost_eq_of_mem hs (by simpa using hname) hs', hsource] at hsource'
      cases hsource'
    · cases h
  · rename_i htable
    rw [if_neg htable] at hr
    have hempty : table = "" := by simpa using htable
    simp only at h
    split_ifs at h with hany hlen
    · obtain ⟨source, hmem, hlogical⟩ := List.any_eq_true.mp hany
      obtain ⟨hvalue, hhas⟩ := List.mem_filter.mp hmem
      obtain ⟨key, hget⟩ := mem_dictValues.mp hvalue
      obtain ⟨s, hs, -, rfl⟩ := mem_scope_of_sources lower (mem_of_dictGet hget)
      cases hsource : s.source with
      | physical ref =>
        rw [hsource] at hlogical
        cases hlogical
      | logical t =>
        -- the rule found the column in `t`, so `t` has it
        rw [hsource, sourceHasColumn] at hhas
        split at hhas
        · rename_i columns hcolumns
          have hout := hshow hempty s hs t hsource columns hcolumns (by simpa using hhas)
          have hp : ((s.source.columns lower schema).contains (lower name)) = true := by
            rw [hsource]
            simpa [Source.columns] using hout
          obtain ⟨s', hs', hsource'⟩ := Option.map_eq_some_iff.mp hr
          rw [innermost_eq_of_mem hs hp hs', hsource] at hsource'
          cases hsource'
        · cases hhas
    · cases h

/-! ## Soundness of the checks -/

variable {lower schema policy} {aliases : List (String × String)} {r : TableRef}

theorem granted_of_columnGranted {table name : String}
    (h : columnGranted lower policy aliases table name = true)
    (hq : table ≠ "" → EntryGrants lower (lower (qualifiedTable aliases table)) r)
    (ho : table = "" → ∀ owner ∈ columnOwners lower policy aliases name,
      EntryGrants lower (lower owner) r) : Granted lower policy r (lower name) := by
  unfold columnGranted at h
  split at h
  · rename_i htable
    split at h
    · rename_i columns hcolumns
      exact ⟨_, columns, hcolumns, hq htable, by simpa using h⟩
    · cases h
  · rename_i htable
    -- the owner is the only one, and its entry has the column
    obtain ⟨owner, howner⟩ := List.length_eq_one_iff.mp (beq_iff_eq.mp h)
    have hmem : owner ∈ columnOwners lower policy aliases name := by rw [howner]; simp
    have hhas := (List.mem_filter.mp hmem).2
    cases hget : dictGet policy (lower owner) with
    | none =>
      rw [hget] at hhas
      cases hhas
    | some columns =>
      rw [hget] at hhas
      exact ⟨_, columns, hget, ho (by simpa using htable) owner hmem, by simpa using hhas⟩

theorem granted_of_allColumnsGranted {actual c : String}
    (h : allColumnsGranted lower policy schema actual = true)
    (hcov : Covers lower schema r actual) (hc : c ∈ physicalColumns lower schema r) :
    Granted lower policy r c := by
  simp only [allColumnsGranted, Bool.and_eq_true, List.all_eq_true] at h
  have hhas := h.2 c (hcov.2 hc)
  cases hget : dictGet policy (lower actual) with
  | none =>
    rw [hget] at hhas
    cases hhas
  | some columns =>
    rw [hget] at hhas
    exact ⟨_, columns, hget, hcov.1, by simpa using hhas⟩

/-- An allowed mention that is attributed to a table it reads reads granted columns of
it. -/
theorem Mention.grantedFor_of_attributed {cteAliases : List String} {m : Mention}
    (h : m.isAllowed lower policy schema cteAliases aliases = true)
    (hr : r ∈ m.tables lower schema) (ha : m.Attributed lower schema policy aliases r) :
    m.GrantedFor lower schema policy r := by
  intro c hc
  cases m with
  | scope own => cases hr
  | column own outer table name =>
    obtain rfl := List.mem_singleton.mp hc
    obtain ⟨source, hsource, hphys⟩ := Option.bind_eq_some_iff.mp (Option.mem_toList.mp hr)
    cases source with
    | logical t => cases hphys
    | physical ref =>
      obtain rfl := Option.some.inj hphys
      have hshow : table = "" → Scope.ShowsNoMissing lower own (lower name) := fun hempty => by
        rw [Mention.Attributed, if_neg (by simpa using hempty)] at ha
        exact ha.1
      rw [Mention.isAllowed] at h
      split at h
      · cases h
      · rename_i hlogical
        exact absurd hsource
          (resolveColumn_of_isLogicalColumn lower schema policy hlogical hshow ref)
      · refine granted_of_columnGranted h (fun hne => ?_) (fun hempty => ?_)
        · rwa [Mention.Attributed, if_pos hne] at ha
        · rw [Mention.Attributed, if_neg (by simpa using hempty)] at ha
          exact ha.2
  | star own outer table =>
    by_cases hempty : table = ""
    · rw [Mention.Attributed, if_neg (by simpa using hempty)] at ha
      obtain ⟨actual, hactual, hcov⟩ := ha
      simp only [Mention.isAllowed, validateStar, hempty, ne_eq, not_true_eq_false, if_false,
        Bool.and_eq_true, List.all_eq_true] at h
      exact granted_of_allColumnsGranted (h.2 actual hactual) hcov hc
    · rw [Mention.Attributed, if_pos hempty] at ha
      simp only [Mention.isAllowed, validateStar, hempty, ne_eq, not_false_eq_true, if_true,
        Bool.and_eq_true] at h
      exact granted_of_allColumnsGranted h.2 ha hc

end Resolution

/-! ## Names of the whole statement -/

/-- The reference can be meant by a qualifier: its name, its alias, or its name with its
schema. -/
def TableRef.bears (t : TableRef) (name : String) : Bool :=
  name == t.name || (t.aliasName != "" && name == t.aliasName) ||
    (t.db != "" && name == t.db ++ "." ++ t.name)

/-- The last of some references that bears a name. -/
def lastBearer (tables : List TableRef) (name : String) : Option TableRef :=
  tables.reverse.find? (·.bears name)

section Names
variable (lower : String → String) (schema : List SchemaTable)
  (policy : List (String × List String)) (tables : List TableRef)

/-- The reference denotes the same table as another, and is written so that it is found under
that table's entry. -/
structure TableRef.StandsFor (t r : TableRef) : Prop where
  same : t.identity lower = r.identity lower
  named : t.NamesItsEntry lower policy

/-- A qualifier leads to the table of a reference: the last of all that bear it stands for that
table; or none bears it, and it is the table's own name. -/
structure LeadsTo (qualifier : String) (r : TableRef) : Prop where
  last : ∀ t, lastBearer tables qualifier = some t → t.StandsFor lower policy r
  unborne : lastBearer tables qualifier = none → EntryGrants lower (lower qualifier) r

/-- The entry of a reference lists a column. -/
def TableRef.Lists (t : TableRef) (column : String) : Prop :=
  ∃ entry columns, acceptingEntry lower policy t = some entry ∧
    dictGet policy entry = some columns ∧ column ∈ columns

/-- A derived table or a table of a `WITH` has a column, if it is named like one of its
projections or of the columns of its alias. -/
def Scope.NamesOutputs (scope : Scope) (column : String) : Prop :=
  ∀ s ∈ scope, ∀ table, s.source = .logical table →
    ∀ x, x ∈ table.outerColumns ∨ table.outerColumns = [] ∧ x ∈ table.projected ∧ x ≠ "*" →
      lower x = column → column ∈ table.outputs

/-- Of the tables that the schema lists under the name of an entry for the table, the last one
has all columns of the table. -/
def SchemaAgrees (r : TableRef) : Prop :=
  ∀ entry, (dictGet policy entry).isSome = true → EntryGrants lower entry r →
    ∀ t, schema.reverse.find? (lower ·.name == entry) = some t →
      physicalColumns lower schema r ⊆ t.columns.map lower

/-- No name leads from the mention to another table than the one that is read. -/
def Mention.Unmistaken (r : TableRef) : Mention → Prop
  | .scope _ => True
  | .column own _ table name =>
    if table ≠ "" then LeadsTo lower policy tables table r
    else own.NamesOutputs lower (lower name) ∧
      ∀ x t, lastBearer tables x = some t → t.Lists lower policy (lower name) →
        t.StandsFor lower policy r
  | .star _ _ table =>
    SchemaAgrees lower schema policy r ∧
      if table ≠ "" then LeadsTo lower policy tables table r
      else ∃ x t, lastBearer tables x = some t ∧ t.StandsFor lower policy r

/-! ## What the rule makes of the names -/

variable {lower schema policy tables}

theorem dictGet_append {K V : Type} [DecidableEq K] (xs ys : List (K × V)) (key : K) :
    dictGet (xs ++ ys) key = (dictGet ys key).or (dictGet xs key) := by
  rw [dictGet, List.reverse_append, List.lookup_append, dictGet, dictGet]

/-- Where all keys have the same value, it is found for each. -/
theorem lookup_of_values {K V : Type} [DecidableEq K] {entries : List (K × V)} {v : V}
    (h : ∀ e ∈ entries, e.2 = v) (key : K) :
    entries.lookup key = if key ∈ entries.map Prod.fst then some v else none := by
  induction entries with
  | nil => rfl
  | cons e entries ih =>
    obtain ⟨k, w⟩ := e
    obtain rfl : w = v := h (k, w) List.mem_cons_self
    rw [List.lookup_cons, ih fun e he => h e (List.mem_cons_of_mem _ he)]
    by_cases hk : key = k
    · simp [hk]
    · rw [beq_false_of_ne hk, List.map_cons]
      simp only [List.mem_cons, hk, false_or]

/-- All names of a reference are assigned its entry. -/
theorem dictGet_aliasMap_singleton (t : TableRef) (name : String) :
    dictGet (aliasMap lower policy [t]) name =
      if t.bears name then resolveTableName lower policy t else none := by
  rw [aliasMap, List.flatMap_singleton]
  cases hresolve : resolveTableName lower policy t with
  | none => simp [dictGet]
  | some actual =>
    have hvalues : ∀ e ∈ ((t.name, actual) ::
        ((if t.aliasName = "" then [] else [(t.aliasName, actual)]) ++
          (if t.db = "" then [] else [(t.db ++ "." ++ t.name, actual)]))).reverse,
        e.2 = actual := by
      intro e he
      simp only [List.mem_reverse, List.mem_cons, List.mem_append] at he
      rcases he with rfl | he | he
      · rfl
      · split at he
        · cases he
        · rw [List.mem_singleton.mp he]
      · split at he
        · cases he
        · rw [List.mem_singleton.mp he]
    rw [dictGet, lookup_of_values hvalues]
    congr 1
    rw [eq_iff_iff]
    by_cases halias : t.aliasName = ""
    · by_cases hdb : t.db = ""
      · simp [TableRef.bears, halias, hdb]
      · simp [TableRef.bears, halias, hdb, or_comm]
    · by_cases hdb : t.db = ""
      · simp [TableRef.bears, halias, hdb, or_comm]
      · simp [TableRef.bears, halias, hdb, or_comm]

/-- The entry is looked up again by its lower-cased name. -/
theorem acceptingEntry_of_resolve
    (hlower : ∀ db name, lower (lower db ++ "." ++ lower name) = lower db ++ "." ++ lower name)
    {t : TableRef} {actual : String} (h : resolveTableName lower policy t = some actual) :
    acceptingEntry lower policy t = some (lower actual) := by
  unfold resolveTableName at h
  unfold acceptingEntry
  split_ifs at h with hbare hdb hqualified hpublic
  · obtain rfl := Option.some.inj h
    rw [if_pos hbare]
  · obtain rfl := Option.some.inj h
    rw [if_neg hbare, if_pos ⟨hdb, hqualified⟩, hlower]
  · exact absurd hpublic.2 hbare

/-- What is found for a reference that stands for a table is that table's entry. -/
theorem TableRef.StandsFor.entryGrants {t r : TableRef} (h : t.StandsFor lower policy r)
    {entry : String} (hentry : acceptingEntry lower policy t = some entry) :
    EntryGrants lower entry r := by
  have hgrants := (entryGrants_iff lower policy hentry).mpr h.named
  rwa [EntryGrants, h.same] at hgrants

/-- **The alias map knows the last reference of a name.** -/
theorem dictGet_aliasMap (hall : ∀ t ∈ tables, (resolveTableName lower policy t).isSome = true)
    (name : String) : dictGet (aliasMap lower policy tables) name =
      (lastBearer tables name).bind (resolveTableName lower policy) := by
  induction tables using List.reverseRecOn with
  | nil => rfl
  | append_singleton tables t ih =>
    have hmap : aliasMap lower policy (tables ++ [t]) =
        aliasMap lower policy tables ++ aliasMap lower policy [t] := List.flatMap_append
    rw [hmap, dictGet_append, dictGet_aliasMap_singleton,
      ih fun t' ht' => hall t' (List.mem_append_left _ ht'), lastBearer, lastBearer,
      List.reverse_append, List.reverse_singleton, List.singleton_append, List.find?_cons]
    split
    · rename_i hbears
      obtain ⟨actual, hactual⟩ := Option.isSome_iff_exists.mp (hall t (by simp))
      rw [hbears]
      simp [hactual]
    · rename_i hbears
      simp [hbears]

section Lookups
variable
  (hlower : ∀ db name, lower (lower db ++ "." ++ lower name) = lower db ++ "." ++ lower name)
  (hall : ∀ t ∈ tables, (resolveTableName lower policy t).isSome = true)
include hlower hall

/-- The last reference of a name that stands for a table puts that table's entry into the
alias map. -/
theorem exists_entryGrants_of_last {name : String} {t r : TableRef}
    (hlast : lastBearer tables name = some t) (ht : t.StandsFor lower policy r) :
    ∃ actual, dictGet (aliasMap lower policy tables) name = some actual ∧
      EntryGrants lower (lower actual) r := by
  have hmem : t ∈ tables := List.mem_reverse.mp (List.mem_of_find?_eq_some hlast)
  obtain ⟨actual, hactual⟩ := Option.isSome_iff_exists.mp (hall t hmem)
  refine ⟨actual, ?_, ht.entryGrants (acceptingEntry_of_resolve hlower hactual)⟩
  rw [dictGet_aliasMap hall, hlast, Option.bind_some, hactual]

/-- Of a name that leads to a table the rule finds that table's entry. -/
theorem LeadsTo.entryGrants {name : String} {r : TableRef}
    (h : LeadsTo lower policy tables name r) :
    EntryGrants lower (lower (qualifiedTable (aliasMap lower policy tables) name)) r := by
  cases hlast : lastBearer tables name with
  | none =>
    rw [qualifiedTable, dictGet_aliasMap hall, hlast, Option.bind_none, Option.getD_none]
    exact h.unborne hlast
  | some t =>
    obtain ⟨actual, hget, hgrants⟩ := exists_entryGrants_of_last hlower hall hlast (h.last t hlast)
    rwa [qualifiedTable, hget, Option.getD_some]

/-- The owners of a column are among the references whose entries list it. -/
theorem exists_lists_of_mem_columnOwners {name owner : String}
    (h : owner ∈ columnOwners lower policy (aliasMap lower policy tables) name) :
    ∃ x t, lastBearer tables x = some t ∧ acceptingEntry lower policy t = some (lower owner) ∧
      t.Lists lower policy (lower name) := by
  obtain ⟨hvalue, hhas⟩ := List.mem_filter.mp h
  obtain ⟨x, hx⟩ := mem_dictValues.mp (List.mem_dedup.mp hvalue)
  rw [dictGet_aliasMap hall] at hx
  obtain ⟨t, hlast, hresolve⟩ := Option.bind_eq_some_iff.mp hx
  have hentry := acceptingEntry_of_resolve hlower hresolve
  refine ⟨x, t, hlast, hentry, ?_⟩
  cases hget : dictGet policy (lower owner) with
  | none =>
    rw [hget] at hhas
    cases hhas
  | some columns =>
    rw [hget] at hhas
    exact ⟨_, columns, hentry, hget, by simpa using hhas⟩

end Lookups

theorem Scope.NamesOutputs.showsNoMissing {scope : Scope} {column : String}
    (h : scope.NamesOutputs lower column) : scope.ShowsNoMissing lower column := by
  intro s hs table hsource columns hcolumns hmem
  unfold scopeOutputColumns at hcolumns
  split_ifs at hcolumns with houter
  · obtain rfl := Option.some.inj hcolumns
    obtain ⟨x, hx, hlower⟩ := List.mem_map.mp hmem
    exact h s hs table hsource x (.inl hx) hlower
  · obtain rfl := Option.some.inj hcolumns
    obtain ⟨x, hx, hlower⟩ := List.mem_map.mp hmem
    obtain ⟨hprojected, hstar⟩ := List.mem_filter.mp hx
    exact h s hs table hsource x (.inr ⟨not_not.mp houter, hprojected, by simpa using hstar⟩) hlower

/-- Of several tables with one name the schema index has the last one. -/
theorem dictGet_physicalColumnsByTable (entry : String) :
    dictGet (physicalColumnsByTable lower schema) entry =
      (schema.reverse.find? (lower ·.name == entry)).map fun t => t.columns.map lower := by
  rw [dictGet, physicalColumnsByTable, ← List.map_reverse]
  induction schema.reverse with
  | nil => rfl
  | cons t ts ih =>
    rw [List.map_cons, List.lookup_cons, List.find?_cons, ih]
    by_cases ht : lower t.name = entry
    · simp [ht]
    · rw [beq_false_of_ne ht, beq_false_of_ne (Ne.symm ht)]

/-- What is checked for a star covers the table. -/
theorem SchemaAgrees.covers {r : TableRef} (h : SchemaAgrees lower schema policy r)
    {actual : String} (hgrants : EntryGrants lower (lower actual) r)
    (hall : allColumnsGranted lower policy schema actual = true) :
    Covers lower schema r actual := by
  refine ⟨hgrants, ?_⟩
  simp only [allColumnsGranted, dictGet_physicalColumnsByTable, Bool.and_eq_true,
    decide_eq_true_eq, List.all_eq_true] at hall
  rw [dictGet_physicalColumnsByTable]
  cases hfind : schema.reverse.find? (lower ·.name == lower actual) with
  | none => exact absurd (by rw [hfind]; rfl) hall.1
  | some t =>
    rw [hfind] at hall
    refine h _ ?_ hgrants t hfind
    -- the entry has a column at least
    obtain ⟨c, hc⟩ := List.exists_mem_of_ne_nil _ hall.1
    have hhas := hall.2 c hc
    cases hget : dictGet policy (lower actual) with
    | none =>
      rw [hget] at hhas
      cases hhas
    | some columns => rfl

/-- An allowed mention without a mistaken name is attributed to the table it reads. -/
theorem Mention.attributed_of_unmistaken
    (hlower : ∀ db name, lower (lower db ++ "." ++ lower name) = lower db ++ "." ++ lower name)
    (hall : ∀ t ∈ tables, (resolveTableName lower policy t).isSome = true)
    {cteAliases : List String} {m : Mention} {r : TableRef}
    (h : m.isAllowed lower policy schema cteAliases (aliasMap lower policy tables) = true)
    (hm : m.Unmistaken lower schema policy tables r) :
    m.Attributed lower schema policy (aliasMap lower policy tables) r := by
  cases m with
  | scope own => exact trivial
  | column own outer table name =>
    rw [Mention.Unmistaken] at hm
    rw [Mention.Attributed]
    split_ifs at hm ⊢ with htable
    · exact hm.entryGrants hlower hall
    · refine ⟨hm.1.showsNoMissing, fun owner howner => ?_⟩
      obtain ⟨x, t, hlast, hentry, hlists⟩ := exists_lists_of_mem_columnOwners hlower hall howner
      exact (hm.2 x t hlast hlists).entryGrants hentry
  | star own outer table =>
    obtain ⟨hschema, hm⟩ := hm
    rw [Mention.isAllowed, validateStar] at h
    rw [Mention.Attributed]
    split_ifs at hm h ⊢ with htable
    · simp only [Bool.and_eq_true] at h
      exact hschema.covers (hm.entryGrants hlower hall) h.2
    · obtain ⟨x, t, hlast, ht⟩ := hm
      obtain ⟨actual, hget, hgrants⟩ := exists_entryGrants_of_last hlower hall hlast ht
      have hvalue : actual ∈ dictValues (aliasMap lower policy tables) :=
        mem_dictValues.mpr ⟨x, hget⟩
      simp only [Bool.and_eq_true, List.all_eq_true] at h
      exact ⟨actual, hvalue, hschema.covers hgrants (h.2 actual hvalue)⟩

end Names

section Main
variable {lower : String → String} {schema : List SchemaTable} {walk : TableWalk lower schema}
  {allowedTables : List AllowedTable} {stmt : Query Empty}

end Main

/-! ## An alias used twice

`SELECT a.ssn FROM t1 AS a WHERE EXISTS (SELECT 1 FROM t2 AS a)`: the alias map knows
the inner `a` only.
-/
section Example

def aliasedTwice : Query Empty :=
  .select [.column "a" "ssn"] (.table .nothing .inner { name := "t1", aliasName := "a" } [])
    [.subquery .existential []
      (.select [.literal "1"] (.table .nothing .inner { name := "t2", aliasName := "a" } [])
        [] [] [] [])] [] [] []

def twoTables : List SchemaTable :=
  [{ name := "t1", columns := ["id", "ssn"] }, { name := "t2", columns := ["id", "ssn"] }]

/-- `ssn` is granted for `t2` alone. -/
def ssnOfT2 : List AllowedTable := [⟨"t1", ["id"]⟩, ⟨"t2", ["ssn"]⟩]

/-- `SELECT a.id FROM t1 AS a WHERE EXISTS (SELECT b.ssn FROM t2 AS b)`. -/
def aliasedApart : Query Empty :=
  .select [.column "a" "id"] (.table .nothing .inner { name := "t1", aliasName := "a" } [])
    [.subquery .existential []
      (.select [.column "b" "ssn"] (.table .nothing .inner { name := "t2", aliasName := "b" } [])
        [] [] [] [])] [] [] []

theorem lowerAscii_qualified (db name : String) :
    lowerAscii (lowerAscii db ++ "." ++ lowerAscii name) =
      lowerAscii db ++ "." ++ lowerAscii name := by
  rw [lowerAscii_append, lowerAscii_append, lowerAscii_lowerAscii, lowerAscii_lowerAscii]
  rfl

end Example
end QueryCraft
