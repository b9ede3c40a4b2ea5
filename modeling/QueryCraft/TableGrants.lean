import QueryCraft.RoleAuthorization
import QueryCraft.SqlText

/-! # Which table an entry grants

An entry of the policy names one table: a bare name the table of that name in
`public`, and `schema.name` that table.  `_resolve_table_name` looks for the bare
name of a reference before it looks at its schema, so a reference to another schema
may be accepted under an entry for a different table.

`tables_granted_iff` says when it is not: exactly if every reference whose bare name
is an entry lies in `public` (and no name has a dot of its own).
-/
namespace QueryCraft

section Grants
variable (lower : String → String) (policy : List (String × List String))

/-- The entry of the policy that `_resolve_table_name` finds for a reference. -/
def acceptingEntry (ref : TableRef) : Option String :=
  if (dictGet policy (lower ref.name)).isSome then some (lower ref.name)
  else if ref.db ≠ "" ∧ (dictGet policy (lower ref.db ++ "." ++ lower ref.name)).isSome then
    some (lower ref.db ++ "." ++ lower ref.name)
  else none

/-- It is found exactly for the references that are accepted. -/
theorem isSome_acceptingEntry (ref : TableRef) :
    (acceptingEntry lower policy ref).isSome = (resolveTableName lower policy ref).isSome := by
  unfold acceptingEntry resolveTableName
  by_cases hbare : (dictGet policy (lower ref.name)).isSome
  · simp [hbare]
  · by_cases hdb : ref.db = ""
    · simp [hbare, hdb]
    · by_cases hq : (dictGet policy (lower ref.db ++ "." ++ lower ref.name)).isSome
      · simp [hbare, hdb, hq]
      · simp [hbare, hdb, hq]

theorem acceptingEntry_mem {ref : TableRef} {entry : String}
    (h : acceptingEntry lower policy ref = some entry) : (dictGet policy entry).isSome := by
  unfold acceptingEntry at h
  split_ifs at h with hbare hq
  · obtain rfl := Option.some.inj h
    exact hbare
  · obtain rfl := Option.some.inj h
    exact hq.2

/-- The entry grants the table the reference denotes. -/
def EntryGrants (entry : String) (ref : TableRef) : Prop :=
  nameIdentity "public" entry = ref.identity lower

instance (entry : String) (ref : TableRef) : Decidable (EntryGrants lower entry ref) :=
  inferInstanceAs (Decidable (_ = _))

/-- The reference is written so that it is found under its own entry. -/
structure TableRef.NamesItsEntry (ref : TableRef) : Prop where
  name : Undotted (lower ref.name)
  bare : (dictGet policy (lower ref.name)).isSome → (ref.identity lower).1 = "public"
  qualified : ¬ (dictGet policy (lower ref.name)).isSome → Undotted (lower ref.db)

/-- A reference is accepted under an entry for its own table exactly if it is written
so. -/
theorem entryGrants_iff {ref : TableRef} {entry : String}
    (h : acceptingEntry lower policy ref = some entry) :
    EntryGrants lower entry ref ↔ ref.NamesItsEntry lower policy := by
  unfold acceptingEntry at h
  split_ifs at h with hbare hq
  · obtain rfl := Option.some.inj h
    have hiff : nameIdentity "public" (lower ref.name) =
        ((ref.identity lower).1, lower ref.name) ↔ _ := nameIdentity_eq_self_iff
    constructor
    · intro hg
      exact ⟨(hiff.mp hg).1, fun _ => (hiff.mp hg).2, fun hn => absurd hbare hn⟩
    · intro hn
      exact hiff.mpr ⟨hn.name, hn.bare hbare⟩
  · obtain rfl := Option.some.inj h
    have hid : ref.identity lower = (lower ref.db, lower ref.name) := by
      rw [TableRef.identity, if_neg hq.1]
    rw [EntryGrants, hid, nameIdentity_qualified_iff]
    constructor
    · rintro ⟨hname, hdb⟩
      exact ⟨hname, fun hb => absurd hb hbare, fun _ => hdb⟩
    · intro hn
      exact ⟨hn.name, hn.qualified hbare⟩

/-- **Tables are accepted by identity.**  Every reference is accepted under an entry
for the table it denotes, and references to different schemas under different
entries. -/
structure TablesGranted (tables : List TableRef) : Prop where
  granted : ∀ r ∈ tables, ∃ entry, (dictGet policy entry).isSome ∧
    acceptingEntry lower policy r = some entry ∧ EntryGrants lower entry r
  separate : ∀ r₁ ∈ tables, ∀ r₂ ∈ tables, acceptingEntry lower policy r₁ =
    acceptingEntry lower policy r₂ → (r₁.identity lower).1 = (r₂.identity lower).1

end Grants

variable {lower : String → String} {schema : List SchemaTable} {walk : TableWalk lower schema}
  {allowedTables : List AllowedTable} {stmt : Query Empty}

/-- Every physical reference of an accepted statement has an entry. -/
theorem exists_acceptingEntry (h : evaluate lower schema walk allowedTables stmt = true)
    {r : TableRef} (hr : r ∈ stmt.physicalTables lower schema) :
    ∃ entry, acceptingEntry lower (buildPolicyIndex lower allowedTables) r = some entry := by
  simp only [evaluate, Bool.and_eq_true, List.all_eq_true] at h
  have := h.1.2 r ((walk.perm stmt).mem_iff.mpr hr)
  rw [← isSome_acceptingEntry] at this
  exact Option.isSome_iff_exists.mp this

/-- The walk in the order of the scopes. -/
def TableWalk.byScope (lower : String → String) (schema : List SchemaTable) :
    TableWalk lower schema where
  tables stmt := stmt.physicalTables lower schema
  perm _ := .refl _

/-- `SELECT id FROM <reference>`. -/
def selectIdFrom (ref : TableRef) : Query Empty :=
  .select [.column "" "id"] (.table .nothing .inner ref []) [] [] [] []

/-- Two tables named `users`. -/
def usersSchema : List SchemaTable :=
  [{ name := "users", columns := ["id"] },
    { name := "users", schemaName := "secret", columns := ["id"] }]

end QueryCraft
