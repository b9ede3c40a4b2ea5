import QueryCraft.SqlSyntax

/-! # Schema tables and their names

A table of the connection schema carries its name and its schema, but its name may
also be a flattened `schema.name`, as some sources report it.  Policies name tables
in the same two ways.  `nameIdentity` reads such a name as a pair of schema and
name; a reference in a statement has its schema in a part of its own, and an absent
one is `public`.
-/
namespace QueryCraft

/-! ## Dotted names -/

/-- The parts of a dotted name, last part first. -/
def dottedParts (name : String) : List String :=
  ((name.toList.splitOn '.').map String.ofList).reverse

/-- The name contains no dot. -/
def Undotted (name : String) : Prop := '.' ∉ name.toList

instance (name : String) : Decidable (Undotted name) := inferInstanceAs (Decidable (¬ _))

theorem separator_not_mem {α : Type} [DecidableEq α] {a : α} {part xs : List α}
    (h : part ∈ xs.splitOn a) : a ∉ part := by
  induction xs generalizing part with
  | nil =>
    rw [List.splitOn_nil, List.mem_singleton] at h
    simp [h]
  | cons x xs ih =>
    rw [List.splitOn_cons_eq_if_modifyHead] at h
    split at h
    · rcases List.mem_cons.mp h with rfl | h
      · simp
      · exact ih h
    · rename_i hx
      obtain ⟨p, ps, hps⟩ := List.exists_cons_of_ne_nil (List.splitOn_ne_nil a xs)
      rw [hps, List.modifyHead_cons] at h
      rcases List.mem_cons.mp h with rfl | h
      · have hne : a ≠ x := fun hax => hx (by simp [hax])
        have hp : a ∉ p := ih (by rw [hps]; simp)
        simp [hne, hp]
      · exact ih (by rw [hps]; simp [h])

theorem undotted_of_mem_dottedParts {part name : String} (h : part ∈ dottedParts name) :
    Undotted part := by
  obtain ⟨cs, hcs, rfl⟩ := List.mem_map.mp (List.mem_reverse.mp h)
  simpa [Undotted] using separator_not_mem hcs

theorem dottedParts_of_undotted {name : String} (h : Undotted name) :
    dottedParts name = [name] := by
  simp [dottedParts, List.splitOn_eq_singleton h]

theorem dottedParts_qualified {name : String} (h : Undotted name) (db : String) :
    dottedParts (db ++ "." ++ name) = name :: dottedParts db := by
  have hsplit : (db ++ "." ++ name).toList.splitOn '.' =
      db.toList.splitOn '.' ++ [name.toList] := by
    rw [← List.splitOn_eq_singleton h, ← List.splitOn_append_cons_self]
    simp
  rw [dottedParts, hsplit]
  simp [dottedParts]

theorem dottedParts_ne_nil (name : String) : dottedParts name ≠ [] := by
  simp [dottedParts]

/-! ## Identities -/

/-- A name, possibly flattened, as a pair of schema and name. -/
def nameIdentity (defaultSchema name : String) : String × String :=
  match dottedParts name with
  | [] => (defaultSchema, name)
  | [n] => (defaultSchema, n)
  | n :: schema :: _ => (schema, n)

theorem nameIdentity_eq_self_iff {defaultSchema schema name : String} :
    nameIdentity defaultSchema name = (schema, name) ↔ Undotted name ∧ schema = defaultSchema := by
  constructor
  · intro h
    have hname : Undotted name := by
      unfold nameIdentity at h
      split at h
      · exact absurd ‹_› (dottedParts_ne_nil name)
      all_goals
        rename_i hparts
        obtain ⟨-, rfl⟩ := Prod.mk.inj h
        exact undotted_of_mem_dottedParts (by rw [hparts]; simp)
    rw [nameIdentity, dottedParts_of_undotted hname] at h
    exact ⟨hname, (Prod.mk.inj h).1.symm⟩
  · rintro ⟨h, rfl⟩
    rw [nameIdentity, dottedParts_of_undotted h]

theorem nameIdentity_qualified_iff {defaultSchema schema name : String} :
    nameIdentity defaultSchema (schema ++ "." ++ name) = (schema, name) ↔
      Undotted name ∧ Undotted schema := by
  constructor
  · intro h
    have hname : Undotted name := by
      unfold nameIdentity at h
      split at h
      · exact absurd ‹_› (dottedParts_ne_nil _)
      all_goals
        rename_i hparts
        obtain ⟨-, rfl⟩ := Prod.mk.inj h
        exact undotted_of_mem_dottedParts (by rw [hparts]; simp)
    obtain ⟨p, ps, hp⟩ := List.exists_cons_of_ne_nil (dottedParts_ne_nil schema)
    rw [nameIdentity, dottedParts_qualified hname, hp] at h
    obtain ⟨rfl, -⟩ := Prod.mk.inj h
    exact ⟨hname, undotted_of_mem_dottedParts (by rw [hp]; simp)⟩
  · rintro ⟨hname, hschema⟩
    rw [nameIdentity, dottedParts_qualified hname, dottedParts_of_undotted hschema]

section Tables
variable (lower : String → String)

/-- A table of the connection schema. -/
structure SchemaTable where
  name : String
  schemaName : String := "public"
  columns : List String
deriving DecidableEq, Repr

/-- The table a schema entry describes. -/
def SchemaTable.identity (t : SchemaTable) : String × String :=
  nameIdentity (lower t.schemaName) (lower t.name)

/-- The table a reference denotes, when it is physical. -/
def TableRef.identity (r : TableRef) : String × String :=
  (if r.db = "" then "public" else lower r.db, lower r.name)

/-- `SchemaContext.find_table`. -/
def findTable (schema : List SchemaTable) (name : String) : Option SchemaTable :=
  schema.find? fun t => lower t.name == lower name

/-- The columns of the table a reference denotes, lower-cased. -/
def physicalColumns (schema : List SchemaTable) (r : TableRef) : List String :=
  match schema.find? fun t => t.identity lower == r.identity lower with
  | none => []
  | some t => t.columns.map lower

end Tables
end QueryCraft
