import QueryCraft.AuditLog
import QueryCraft.FilterInjection

/-! # The role policy provider

`make_role_policy_provider` reads the policy of a user for a connection: the role of the user,
the policy row of the role and the connection, and the identity of the user, from which it
fills in the values of the placeholders.  For a user without an identity, or with one that has
no email, it puts empty strings in their places and leaves it to `bind_placeholders` to refuse
them.

`bind_placeholders` refuses only keys that are missing or `None`.  `missing_identity_iff` says
that `apply_row_filters` raises for such a user exactly if it refuses the statement or a filter
for every user, and that otherwise a filter on a table of the statement binds the empty
string.
-/
namespace QueryCraft

/-- A row of `users`, without the columns that neither login nor the provider reads. -/
structure PolicyUser where
  id : String
  username : String
  role : String
  roleId : Option String
deriving DecidableEq, Repr

/-- A row of `user_identities`. -/
structure IdentityRow where
  userId : String
  provider : String
  subjectId : String
  email : Option String
deriving DecidableEq, Repr

/-- A row of `role_connection_policies`. -/
structure PolicyRow where
  roleId : String
  connectionId : String
  allowedTables : List Json
  rowFilters : List RowFilterEntry
  columnMasks : List Json

/-- The tables that the provider reads. -/
structure PolicyTables where
  users : List PolicyUser
  identities : List IdentityRow
  policies : List PolicyRow

/-- `RolePolicy`. -/
structure RolePolicy where
  userId : String
  roleId : String
  connectionId : String
  allowedTables : List Json
  rowFilters : List RowFilterEntry
  columnMasks : List Json
  userContext : UserContext String

/-- `_deny_all_policy`. -/
def denyAllPolicy (userId : String) : RolePolicy where
  userId := userId
  roleId := "00000000-0000-0000-0000-000000000000"
  connectionId := "00000000-0000-0000-0000-000000000000"
  allowedTables := []
  rowFilters := []
  columnMasks := []
  userContext := [("email", some ""), ("subject_id", some ""), ("role", some "")]

/-- `user_context`. -/
def userContextOf (user : PolicyUser) (identity : Option IdentityRow) : UserContext String :=
  [("email", some ((identity.bind (·.email)).getD "")),
    ("subject_id", some (identity.elim "" (·.subjectId))),
    ("role", some user.role)]

/-- `_provider`.  A query may fail, and `scalar_one_or_none` raises on several rows. -/
def rolePolicyProvider (tables : PolicyTables) (dbError : Bool) (userId connectionId : String) :
    Option RolePolicy :=
  if dbError then some (denyAllPolicy userId)
  else
    match tables.users.filter (·.id = userId) with
    | [] => none
    | [user] =>
      match user.roleId with
      | none => none
      | some roleId =>
        match tables.policies.filter fun p => p.roleId = roleId ∧ p.connectionId = connectionId with
        | [row] => some
          { userId := userId
            roleId := roleId
            connectionId := connectionId
            allowedTables := row.allowedTables
            rowFilters := row.rowFilters
            columnMasks := row.columnMasks
            userContext := userContextOf user (tables.identities.find? (·.userId = userId)) }
        | _ => some (denyAllPolicy userId)
    | _ => some (denyAllPolicy userId)

/-- The user has no identity, or the key is the email and the identity has none. -/
def MissingIdentity (tables : PolicyTables) (userId key : String) : Prop :=
  (key = "email" ∧ ∀ i ∈ tables.identities, i.userId = userId → i.email.getD "" = "") ∨
    (key = "subject_id" ∧ ∀ i ∈ tables.identities, i.userId ≠ userId)

section Refused
variable (lower : String → String) (glot : Sqlglot) (schema : List SchemaTable)

/-- `apply_row_filters` raises whoever the user is: the dialect is unknown, the text is not one
`SELECT`, its scopes cannot be traversed, or one of the filters cannot be used. -/
def RefusedForAll (dialect : String) (sql : List Char) (entries : List RowFilterEntry) : Prop :=
  ¬ ∃ name stmt, sqlglotDialect? (lowerAscii dialect) = some name ∧
    glot.parse name sql = some [some stmt] ∧ stmt.cls.kind = .select ∧
    (glot.scopes stmt).isSome = true ∧
    ∀ entry ∈ entries, ∃ tableName filterSql filterStmt condition,
      UsableFilter lower glot schema dialect name entry tableName filterSql filterStmt condition

end Refused

section Theorems
variable {tables : PolicyTables} {dbError : Bool} {userId connectionId : String}
  {policy : RolePolicy}

/-- What the provider returns: an empty policy, or the one of the user's role with the values
of the first identity. -/
theorem rolePolicyProvider_cases
    (h : rolePolicyProvider tables dbError userId connectionId = some policy) :
    policy = denyAllPolicy userId ∨
      ∃ user ∈ tables.users, user.id = userId ∧ policy.userContext =
        userContextOf user (tables.identities.find? (·.userId = userId)) := by
  unfold rolePolicyProvider at h
  split at h
  · exact .inl (Option.some.inj h).symm
  · split at h
    · cases h
    · rename_i user hfilter
      have hmem : user ∈ tables.users.filter (·.id = userId) := by
        rw [hfilter]
        exact List.mem_singleton_self user
      rw [List.mem_filter, decide_eq_true_eq] at hmem
      split at h
      · cases h
      · split at h
        · cases h
          exact .inr ⟨user, hmem.1, hmem.2, rfl⟩
        · exact .inl (Option.some.inj h).symm
    · exact .inl (Option.some.inj h).symm

/-- The provider puts a value in the place of every key. -/
theorem completeContext_of_provider
    (h : rolePolicyProvider tables dbError userId connectionId = some policy) :
    CompleteContext policy.userContext := by
  intro key hkey
  simp only [allowedPlaceholderKeys, List.mem_cons, List.not_mem_nil, or_false] at hkey
  rcases rolePolicyProvider_cases h with rfl | ⟨user, -, -, hcontext⟩
  · rcases hkey with rfl | rfl | rfl <;> rfl
  · rw [hcontext]
    rcases hkey with rfl | rfl | rfl <;> rfl

/-- For a user without an identity the value is the empty string. -/
theorem value_of_missingIdentity
    (h : rolePolicyProvider tables dbError userId connectionId = some policy) {key : String}
    (hmissing : MissingIdentity tables userId key) : policy.userContext.value? key = some "" := by
  rcases rolePolicyProvider_cases h with rfl | ⟨user, -, -, hcontext⟩
  · rcases hmissing with ⟨rfl, -⟩ | ⟨rfl, -⟩ <;> rfl
  · rw [hcontext]
    cases hfind : tables.identities.find? (·.userId = userId) with
    | none => rcases hmissing with ⟨rfl, -⟩ | ⟨rfl, -⟩ <;> rfl
    | some identity =>
      have hmem := List.mem_of_find?_eq_some hfind
      have huser : identity.userId = userId := by simpa using List.find?_some hfind
      rcases hmissing with ⟨rfl, hemail⟩ | ⟨rfl, hnone⟩
      · exact congrArg some (hemail identity hmem huser)
      · exact absurd huser (hnone identity hmem)

variable {lower : String → String} {glot : Sqlglot} {schema : List SchemaTable}
  {dialect : String} {sql : List Char}

/-- With a value for every key, `apply_row_filters` raises exactly if it does so for every
user. -/
theorem raises_iff_refusedForAll {V : Type} {context : UserContext V}
    (hcontext : CompleteContext context) {entries : List RowFilterEntry} :
    (∀ b, applyFilterTexts lower glot schema dialect sql entries context ≠ .ok b) ↔
      RefusedForAll lower glot schema dialect sql entries := by
  rw [RefusedForAll, ← not_exists, not_iff_not]
  constructor
  · rintro ⟨b, hb⟩
    obtain ⟨name, stmt, prepared, scopes, hname, hparse, hselect, hprepared, hscopes, -⟩ :=
      applyFilterTexts_ok_iff.mp hb
    exact ⟨name, stmt, hname, hparse, hselect, by rw [hscopes, Option.isSome_some],
      (exists_prepareAll_iff hcontext).mp ⟨prepared, hprepared⟩⟩
  · rintro ⟨name, stmt, hname, hparse, hselect, hscopes, husable⟩
    obtain ⟨scopes, hscopes⟩ := Option.isSome_iff_exists.mp hscopes
    obtain ⟨prepared, hprepared⟩ := (exists_prepareAll_iff hcontext).mpr husable
    exact ⟨_, applyFilterTexts_ok_iff.mpr ⟨name, stmt, prepared, scopes, hname, hparse, hselect,
      hprepared, hscopes, rfl⟩⟩

/-- Every key of a filter is bound at each source of the filter's table. -/
theorem mem_boundKeys {scopes : List (List TableRef)} {entries : List RowFilterEntry}
    {entry : RowFilterEntry} (hentry : entry ∈ entries) {sources : List TableRef}
    (hsources : sources ∈ scopes) {source : TableRef} (hsource : source ∈ sources)
    (hmatch : tableMatchesPolicy lower source (entry.table.getD "") = true) {key : String}
    (hkey : key ∈ placeholderKeys (filterPieces (entry.filter.getD []))) :
    key ∈ boundKeys lower scopes entries := by
  simp only [boundKeys, List.mem_flatMap, List.mem_filter]
  exact ⟨sources, hsources, entry, hentry, source, ⟨hsource, hmatch⟩, hkey⟩

/-- A user without an identity is refused exactly if every user is; otherwise a filter on a
table that the statement reads is bound to the empty string. -/
theorem missing_identity_iff
    (hpolicy : rolePolicyProvider tables dbError userId connectionId = some policy)
    {key : String} (hmissing : MissingIdentity tables userId key) {entry : RowFilterEntry}
    (hentry : entry ∈ policy.rowFilters)
    (hkey : key ∈ placeholderKeys (filterPieces (entry.filter.getD []))) :
    ((∀ b, applyFilterTexts lower glot schema dialect sql policy.rowFilters policy.userContext ≠
        .ok b) ↔ RefusedForAll lower glot schema dialect sql policy.rowFilters) ∧
      ∀ b, applyFilterTexts lower glot schema dialect sql policy.rowFilters policy.userContext =
        .ok b → ∃ name stmt scopes, sqlglotDialect? (lowerAscii dialect) = some name ∧
          glot.parse name sql = some [some stmt] ∧ glot.scopes stmt = some scopes ∧
          ((∃ sources ∈ scopes, ∃ source ∈ sources,
            tableMatchesPolicy lower source (entry.table.getD "") = true) → "" ∈ b.params) := by
  refine ⟨raises_iff_refusedForAll (completeContext_of_provider hpolicy), fun b hb => ?_⟩
  obtain ⟨name, stmt, prepared, scopes, hname, hparse, -, hprepared, hscopes, rfl⟩ :=
    applyFilterTexts_ok_iff.mp hb
  refine ⟨name, stmt, scopes, hname, hparse, hscopes, ?_⟩
  rintro ⟨sources, hsources, source, hsource, hmatch⟩
  have hbound := mem_boundKeys hentry hsources hsource hmatch hkey
  have hvalue : some "" ∈ (addedValues lower scopes prepared).map some := by
    rw [addedValues_eq hprepared, ← value_of_missingIdentity hpolicy hmissing]
    exact List.mem_map_of_mem hbound
  obtain ⟨v, hv, heq⟩ := List.mem_map.mp hvalue
  cases heq
  exact hv

end Theorems

/-- A user with a role and a policy, but no identity. -/
def tablesWithoutIdentity : PolicyTables where
  users := [{ id := "u-1", username := "ann", role := "admin", roleId := some "r-1" }]
  identities := []
  policies := [{ roleId := "r-1", connectionId := "c-1", allowedTables := [],
                 rowFilters := [ownedEntry "email"], columnMasks := [] }]

/-- The policy of that user. -/
def policyWithoutIdentity : RolePolicy where
  userId := "u-1"
  roleId := "r-1"
  connectionId := "c-1"
  allowedTables := []
  rowFilters := [ownedEntry "email"]
  columnMasks := []
  userContext := [("email", some ""), ("subject_id", some ""), ("role", some "admin")]

theorem provider_without_identity :
    rolePolicyProvider tablesWithoutIdentity false "u-1" "c-1" = some policyWithoutIdentity := rfl

/-- The filter is refused for this user exactly if it is for all. -/
theorem missing_identity_refused_iff :
    MissingIdentity tablesWithoutIdentity "u-1" "email" ∧
    ((∀ b, applyFilterTexts lowerAscii (ticketsGlot "email") ticketsSchema "postgres" ticketsSql
        policyWithoutIdentity.rowFilters policyWithoutIdentity.userContext ≠ .ok b) ↔
      RefusedForAll lowerAscii (ticketsGlot "email") ticketsSchema "postgres" ticketsSql
        policyWithoutIdentity.rowFilters) := by
  have hmissing : MissingIdentity tablesWithoutIdentity "u-1" "email" :=
    .inl ⟨rfl, fun i hi => by cases hi⟩
  exact ⟨hmissing, (missing_identity_iff provider_without_identity hmissing
    List.mem_cons_self (by decide +kernel)).1⟩

/-- The filter passes the validator, and the statement is returned with an empty owner. -/
theorem missing_identity_binds_empty :
    rolePolicyProvider tablesWithoutIdentity false "u-1" "c-1" = some policyWithoutIdentity ∧
    MissingIdentity tablesWithoutIdentity "u-1" "email" ∧
    validateRowFilterText lowerAscii (ticketsGlot "email").parse ticketsSchema "tickets"
      "postgres" (ownedBy "email") = true ∧
    applyFilterTexts lowerAscii (ticketsGlot "email") ticketsSchema "postgres" ticketsSql
      policyWithoutIdentity.rowFilters policyWithoutIdentity.userContext =
      .ok ⟨"SELECT id FROM tickets WHERE owner = $1".toList, [""]⟩ :=
  ⟨rfl, .inl ⟨rfl, fun i hi => by cases hi⟩, by decide +kernel, by decide +kernel⟩

end QueryCraft
