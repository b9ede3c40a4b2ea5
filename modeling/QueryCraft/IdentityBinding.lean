import Mathlib.Data.List.Nodup
import QueryCraft.PolicyProvider
import QueryCraft.Transitions

/-! # Identity binding over login histories

`_resolve_role_and_create_session` resolves the groups of a login to a role, and finds the
user by provider and subject, or creates one.  The login writes the role id of the user and
the email of the identity.  The policy provider reads the role id, to find the policy, but
binds `{user.role}` to the column `users.role`, which no login writes: a row keeps the server
default it was created with.

`identity_binding_iff` is about every state that logins and changes of roles, group mappings
and policies lead to: email and subject are those of the latest login, and the role is exactly
if that login was assigned the role with the name that is the default.

Logins are executed one at a time.  A login that fails is rolled back.
-/
namespace QueryCraft

/-- What login reads of a row of `roles`. -/
structure LoginRole where
  id : String
  name : String
  priority : Int
deriving DecidableEq, Repr

/-- A row of `sso_group_mappings`. -/
structure GroupMapping where
  groupValue : String
  roleId : String
deriving DecidableEq, Repr

/-- What the identity provider says about a user. -/
structure SsoLogin where
  authProvider : String
  subjectId : String
  email : String
  groups : List String
deriving DecidableEq, Repr

/-- The name of a user that the login creates. -/
def SsoLogin.username (login : SsoLogin) : String :=
  if login.email = "" then login.subjectId else login.email

/-- The identity is the one of the login. -/
def SsoLogin.names (login : SsoLogin) (i : IdentityRow) : Bool :=
  i.provider = login.authProvider ∧ i.subjectId = login.subjectId

/-- What a login assigned. -/
structure Assignment where
  subjectId : String
  email : String
  role : LoginRole
deriving DecidableEq, Repr

/-- The tables, and for each user the logins so far, latest first. -/
structure LoginHistory where
  tables : PolicyTables
  roles : List LoginRole
  mappings : List GroupMapping
  logins : List (String × Assignment)

namespace LoginHistory

/-- `ORDER BY priority, name`: the first of two rows.  Priorities are unique. -/
def firstRole (a b : LoginRole) : LoginRole :=
  if a.priority < b.priority ∨ (a.priority = b.priority ∧ a.name ≤ b.name) then a else b

/-- `resolve_role_from_groups`. -/
def resolveRoleFromGroups (s : LoginHistory) (groups : List String) : Option LoginRole :=
  match (s.mappings.filter (groups.contains ·.groupValue)).flatMap fun m =>
    s.roles.filter (·.id = m.roleId) with
  | [] => none
  | role :: roles => some (roles.foldl firstRole role)

/-- The server default of `users.role`. -/
def defaultRole : String := "admin"

/-- The branch that creates a user; the database chooses the id. -/
def createUser (s : LoginHistory) (login : SsoLogin) (role : LoginRole) (newId : String) :
    Option LoginHistory :=
  if s.tables.users.any (·.username = login.username) ∨ s.tables.users.any (·.id = newId) then none
  else some
    { s with
      tables :=
        { s.tables with
          users := s.tables.users ++
            [{ id := newId, username := login.username, role := defaultRole
               roleId := some role.id }]
          identities := s.tables.identities ++
            [{ userId := newId, provider := login.authProvider, subjectId := login.subjectId
               email := some login.email }] }
      logins := (newId, ⟨login.subjectId, login.email, role⟩) :: s.logins }

/-- The role id of the user of an identity is set. -/
def setRoleId (identity : IdentityRow) (role : LoginRole) (u : PolicyUser) : PolicyUser :=
  if u.id = identity.userId then { u with roleId := some role.id } else u

/-- The email of the identity of a login is set. -/
def setEmail (login : SsoLogin) (i : IdentityRow) : IdentityRow :=
  if login.names i then { i with email := some login.email } else i

/-- The branch that updates the identity and the role id of its user. -/
def updateUser (s : LoginHistory) (login : SsoLogin) (role : LoginRole) (identity : IdentityRow) :
    LoginHistory :=
  { s with
    tables :=
      { s.tables with
        users := s.tables.users.map (setRoleId identity role)
        identities := s.tables.identities.map (setEmail login) }
    logins := (identity.userId, ⟨login.subjectId, login.email, role⟩) :: s.logins }

/-- `_resolve_role_and_create_session`; `none` where it raises. -/
def resolveRoleAndCreateSession (s : LoginHistory) (login : SsoLogin) (newId : String) :
    Option LoginHistory :=
  match s.resolveRoleFromGroups login.groups with
  | none => none
  | some role =>
    match s.tables.identities.filter login.names with
    | [] => s.createUser login role newId
    | [identity] => some (s.updateUser login role identity)
    | _ => none

/-- What happens to the tables. -/
inductive Event where
  | login (login : SsoLogin) (newId : String)
  | setMappings (mappings : List GroupMapping)
  | setPolicies (policies : List PolicyRow)
  /-- Roles are added, renamed or deleted; the foreign key of a user is set to `NULL`. -/
  | setRoles (roles : List LoginRole)

/-- One event; `none` where it fails and changes nothing. -/
def step (s : LoginHistory) : Event → Option LoginHistory
  | .login login newId => s.resolveRoleAndCreateSession login newId
  | .setMappings mappings => some { s with mappings }
  | .setPolicies policies => some { s with tables := { s.tables with policies } }
  | .setRoles roles => some
    { s with
      roles
      tables :=
        { s.tables with
          users := s.tables.users.map fun u =>
            { u with roleId := u.roleId.filter fun r => roles.any (·.id = r) } } }

/-- No user has an identity yet. -/
structure Initial (s : LoginHistory) : Prop where
  ids : (s.tables.users.map (·.id)).Nodup
  identities : s.tables.identities = []
  logins : s.logins = []

/-- The values that the filters of a user should be bound to. -/
def expectedValue (a : Assignment) (key : String) : String :=
  if key = "email" then a.email else if key = "subject_id" then a.subjectId else a.role.name

/-- What every login leaves behind. -/
structure Recorded (s : LoginHistory) : Prop where
  ids : (s.tables.users.map (·.id)).Nodup
  owners : (s.tables.identities.map (·.userId)).Nodup
  user : ∀ i ∈ s.tables.identities, ∃ u ∈ s.tables.users, u.id = i.userId ∧ u.role = defaultRole
  latest : ∀ i ∈ s.tables.identities, ∃ a, s.logins.lookup i.userId = some a ∧
    i.subjectId = a.subjectId ∧ i.email = some a.email
  identity : ∀ l ∈ s.logins, ∃ i ∈ s.tables.identities, i.userId = l.1

variable {s t : LoginHistory}

/-! ## What logins leave behind -/

theorem recorded_of_initial (h : Initial s) : Recorded s where
  ids := h.ids
  owners := by simp [h.identities]
  user := by simp [h.identities]
  latest := by simp [h.identities]
  identity := by simp [h.logins]

/-- Rows may change as long as the ids, the owners and the role columns stay, and the logins
are recorded. -/
theorem Recorded.of_map (h : Recorded s) (f : PolicyUser → PolicyUser)
    (g : IdentityRow → IdentityRow)
    (hid : ∀ u, (f u).id = u.id) (hrole : ∀ u, (f u).role = u.role)
    (howner : ∀ i, (g i).userId = i.userId)
    (husers : t.tables.users = s.tables.users.map f)
    (hidentities : t.tables.identities = s.tables.identities.map g)
    (hlatest : ∀ i ∈ s.tables.identities, ∃ a, t.logins.lookup i.userId = some a ∧
      (g i).subjectId = a.subjectId ∧ (g i).email = some a.email)
    (hidentity : ∀ l ∈ t.logins, ∃ i ∈ s.tables.identities, i.userId = l.1) : Recorded t where
  ids := by
    rw [husers, List.map_map]
    simpa only [Function.comp_def, hid] using h.ids
  owners := by
    rw [hidentities, List.map_map]
    simpa only [Function.comp_def, howner] using h.owners
  user := by
    intro i hi
    rw [hidentities] at hi
    obtain ⟨j, hj, rfl⟩ := List.mem_map.mp hi
    obtain ⟨u, hu, huid, hurole⟩ := h.user j hj
    refine ⟨f u, ?_, by rw [hid, huid, howner], by rw [hrole, hurole]⟩
    rw [husers]
    exact List.mem_map_of_mem hu
  latest := by
    intro i hi
    rw [hidentities] at hi
    obtain ⟨j, hj, rfl⟩ := List.mem_map.mp hi
    rw [howner]
    exact hlatest j hj
  identity := by
    intro l hl
    obtain ⟨i, hi, hiuser⟩ := hidentity l hl
    refine ⟨g i, ?_, by rw [howner, hiuser]⟩
    rw [hidentities]
    exact List.mem_map_of_mem hi

theorem Recorded.createUser (h : Recorded s) {login : SsoLogin} {role : LoginRole} {newId : String}
    (hcreate : s.createUser login role newId = some t) : Recorded t := by
  unfold LoginHistory.createUser at hcreate
  split at hcreate
  · cases hcreate
  · rename_i hfree
    cases hcreate
    have hnew : ∀ u ∈ s.tables.users, u.id ≠ newId := by
      intro u hu heq
      exact hfree (.inr (List.any_eq_true.mpr ⟨u, hu, by simp [heq]⟩))
    have howner : ∀ i ∈ s.tables.identities, i.userId ≠ newId := by
      intro i hi heq
      obtain ⟨u, hu, huid, -⟩ := h.user i hi
      exact hnew u hu (huid.trans heq)
    refine ⟨?_, ?_, fun i hi => ?_, fun i hi => ?_, fun l hl => ?_⟩
    · simp only [List.map_append, List.map_cons, List.map_nil]
      refine List.nodup_append.mpr ⟨h.ids, List.nodup_singleton _, fun a ha b hb => ?_⟩
      obtain ⟨u, hu, rfl⟩ := List.mem_map.mp ha
      rw [List.mem_singleton.mp hb]
      exact hnew u hu
    · simp only [List.map_append, List.map_cons, List.map_nil]
      refine List.nodup_append.mpr ⟨h.owners, List.nodup_singleton _, fun a ha b hb => ?_⟩
      obtain ⟨i, hi, rfl⟩ := List.mem_map.mp ha
      rw [List.mem_singleton.mp hb]
      exact howner i hi
    · rcases List.mem_append.mp hi with hi | hi
      · obtain ⟨u, hu, huid⟩ := h.user i hi
        exact ⟨u, List.mem_append_left _ hu, huid⟩
      · obtain rfl := List.mem_singleton.mp hi
        exact ⟨_, List.mem_append_right _ (List.mem_singleton_self _), rfl, rfl⟩
    · rcases List.mem_append.mp hi with hi | hi
      · obtain ⟨a, ha, hrest⟩ := h.latest i hi
        exact ⟨a, by rw [List.lookup_cons, beq_false_of_ne (howner i hi), ha], hrest⟩
      · obtain rfl := List.mem_singleton.mp hi
        exact ⟨_, List.lookup_cons_self, rfl, rfl⟩
    · rcases List.mem_cons.mp hl with rfl | hl
      · exact ⟨_, List.mem_append_right _ (List.mem_singleton_self _), rfl⟩
      · obtain ⟨i, hi, hiuser⟩ := h.identity l hl
        exact ⟨i, List.mem_append_left _ hi, hiuser⟩

theorem mem_of_lookup {l : List (String × Assignment)} {key : String} {v : Assignment}
    (h : l.lookup key = some v) : (key, v) ∈ l := by
  obtain ⟨l₁, l₂, hl, -⟩ := List.lookup_eq_some_iff.mp h
  rw [hl]
  exact List.mem_append_right _ List.mem_cons_self

/-- Two identities of one user are the same. -/
theorem Recorded.eq_of_userId (h : Recorded s) {i j : IdentityRow}
    (hi : i ∈ s.tables.identities) (hj : j ∈ s.tables.identities) (heq : i.userId = j.userId) :
    i = j :=
  List.inj_on_of_nodup_map h.owners hi hj heq

theorem setRoleId_id (identity : IdentityRow) (role : LoginRole) (u : PolicyUser) :
    (setRoleId identity role u).id = u.id := by
  unfold setRoleId
  split <;> rfl

theorem setRoleId_role (identity : IdentityRow) (role : LoginRole) (u : PolicyUser) :
    (setRoleId identity role u).role = u.role := by
  unfold setRoleId
  split <;> rfl

theorem setEmail_userId (login : SsoLogin) (i : IdentityRow) :
    (setEmail login i).userId = i.userId := by
  unfold setEmail
  split <;> rfl

theorem Recorded.updateUser (h : Recorded s) {login : SsoLogin} {role : LoginRole}
    {identity : IdentityRow} (hfound : s.tables.identities.filter login.names = [identity]) :
    Recorded (s.updateUser login role identity) := by
  have hmem : ∀ i, i ∈ s.tables.identities ∧ login.names i = true ↔ i = identity := by
    intro i
    rw [← List.mem_filter, hfound, List.mem_singleton]
  obtain ⟨hidentity, hnames⟩ := (hmem identity).mpr rfl
  refine h.of_map (setRoleId identity role) (setEmail login) (setRoleId_id _ _)
    (setRoleId_role _ _) (setEmail_userId _) rfl rfl (fun i hi => ?_) (fun l hl => ?_)
  · by_cases hi' : login.names i = true
    · obtain rfl := (hmem i).mp ⟨hi, hi'⟩
      refine ⟨_, List.lookup_cons_self, ?_, ?_⟩
      · rw [setEmail, if_pos hi']
        rw [SsoLogin.names, decide_eq_true_eq] at hi'
        exact hi'.2
      · rw [setEmail, if_pos hi']
    · -- another identity belongs to another user
      have hne : i.userId ≠ identity.userId := by
        intro heq
        rw [h.eq_of_userId hi hidentity heq] at hi'
        exact hi' hnames
      obtain ⟨a, ha, hsubject, hemail⟩ := h.latest i hi
      rw [setEmail, if_neg hi']
      refine ⟨a, ?_, hsubject, hemail⟩
      rw [LoginHistory.updateUser, List.lookup_cons, beq_false_of_ne hne, ha]
  · rcases List.mem_cons.mp hl with rfl | hl
    · exact ⟨identity, hidentity, rfl⟩
    · exact h.identity l hl

theorem Recorded.step (h : Recorded s) {e : Event} (hstep : s.step e = some t) : Recorded t := by
  cases e with
  | login login newId =>
    simp only [LoginHistory.step, resolveRoleAndCreateSession] at hstep
    split at hstep
    · cases hstep
    · split at hstep
      · exact h.createUser hstep
      · rename_i hfound
        cases hstep
        exact h.updateUser hfound
      · cases hstep
  | setMappings mappings =>
    cases hstep
    exact ⟨h.ids, h.owners, h.user, h.latest, h.identity⟩
  | setPolicies policies =>
    cases hstep
    exact ⟨h.ids, h.owners, h.user, h.latest, h.identity⟩
  | setRoles roles =>
    cases hstep
    exact h.of_map (fun u => { u with roleId := u.roleId.filter fun r => roles.any (·.id = r) })
      id (fun _ => rfl) (fun _ => rfl) (fun _ => rfl) rfl (by simp) h.latest h.identity

/-- So in every state that is reached. -/
theorem recorded_of_reaches {s₀ : LoginHistory} (hinit : Initial s₀)
    (h : Reaches LoginHistory.step (fun _ _ => True) s₀ s) : Recorded s :=
  h.invariant (recorded_of_initial hinit) fun _ _ _ hrec _ hstep => hrec.step hstep

/-! ## What is bound -/

variable {lower : String → String} {glot : Sqlglot} {schema : List SchemaTable}
  {dialect : String} {sql : List Char} {userId connectionId : String} {dbError : Bool}
  {policy : RolePolicy} {a : Assignment}

/-- The provider binds the email and the subject of the latest login, and the default role. -/
theorem Recorded.value? (h : Recorded s) (hlogin : s.logins.lookup userId = some a)
    (hpolicy : rolePolicyProvider s.tables dbError userId connectionId = some policy)
    (hfilters : policy.rowFilters ≠ []) {key : String} (hkey : key ∈ allowedPlaceholderKeys) :
    policy.userContext.value? key =
      some (if key = "role" then defaultRole else expectedValue a key) := by
  rcases rolePolicyProvider_cases hpolicy with rfl | ⟨user, huser, huserId, hcontext⟩
  · exact absurd rfl hfilters
  · obtain ⟨i, hi, hiuser⟩ := h.identity (userId, a) (mem_of_lookup hlogin)
    have hsome : (s.tables.identities.find? (·.userId = userId)).isSome = true :=
      List.find?_isSome.mpr ⟨i, hi, by simpa using hiuser⟩
    obtain ⟨identity, hfind⟩ := Option.isSome_iff_exists.mp hsome
    have hidentity := List.mem_of_find?_eq_some hfind
    have howner : identity.userId = userId := by simpa using List.find?_some hfind
    obtain ⟨a', ha', hsubject, hemail⟩ := h.latest identity hidentity
    rw [howner, hlogin] at ha'
    cases ha'
    have hrole : user.role = defaultRole := by
      obtain ⟨u, hu, huid, hurole⟩ := h.user identity hidentity
      rw [List.inj_on_of_nodup_map h.ids huser hu (by rw [huid, howner, huserId]), hurole]
    simp only [allowedPlaceholderKeys, List.mem_cons, List.not_mem_nil, or_false] at hkey
    rw [hcontext, hfind]
    rcases hkey with rfl | rfl | rfl
    · simp [UserContext.value?, userContextOf, allowedPlaceholderKeys, expectedValue, hemail]
    · simp [UserContext.value?, userContextOf, allowedPlaceholderKeys, expectedValue, hsubject,
        List.lookup_cons]
    · simp [UserContext.value?, userContextOf, allowedPlaceholderKeys, hrole, List.lookup_cons]

/-- The values that `apply_row_filters` binds are those of the latest login of the user if and
only if that login was assigned the role with the default name, or no role is bound. -/
theorem identity_binding_iff {s₀ : LoginHistory} (hinit : Initial s₀)
    (hreach : Reaches LoginHistory.step (fun _ _ => True) s₀ s)
    (hlogin : s.logins.lookup userId = some a)
    (hpolicy : rolePolicyProvider s.tables dbError userId connectionId = some policy)
    {b : BoundText String} (happly : applyFilterTexts lower glot schema dialect sql
      policy.rowFilters policy.userContext = .ok b) :
    ∃ name stmt scopes, sqlglotDialect? (lowerAscii dialect) = some name ∧
      glot.parse name sql = some [some stmt] ∧ glot.scopes stmt = some scopes ∧
      (b.params = (boundKeys lower scopes policy.rowFilters).map (expectedValue a) ↔
        "role" ∉ boundKeys lower scopes policy.rowFilters ∨ a.role.name = defaultRole) := by
  obtain ⟨name, stmt, prepared, scopes, hname, hparse, -, hprepared, hscopes, rfl⟩ :=
    applyFilterTexts_ok_iff.mp happly
  refine ⟨name, stmt, scopes, hname, hparse, hscopes, ?_⟩
  have hbound : (addedValues lower scopes prepared).map some =
      (boundKeys lower scopes policy.rowFilters).map policy.userContext.value? :=
    addedValues_eq hprepared
  have hrecorded := recorded_of_reaches hinit hreach
  have hvalue : ∀ key ∈ boundKeys lower scopes policy.rowFilters,
      policy.userContext.value? key =
        some (if key = "role" then defaultRole else expectedValue a key) := by
    intro key hkey
    have hmem : policy.userContext.value? key ∈
        (boundKeys lower scopes policy.rowFilters).map policy.userContext.value? :=
      List.mem_map_of_mem hkey
    rw [← hbound] at hmem
    obtain ⟨v, -, hv⟩ := List.mem_map.mp hmem
    refine hrecorded.value? hlogin hpolicy ?_ (mem_allowed_of_value? (by rw [← hv]; rfl))
    intro hnone
    simp [hnone, boundKeys] at hkey
  rw [← List.map_inj_right (fun _ _ => Option.some.inj), hbound, List.map_map,
    List.map_inj_left]
  constructor
  · intro heq
    by_cases hrole : "role" ∈ boundKeys lower scopes policy.rowFilters
    · right
      have := (hvalue _ hrole).symm.trans (heq _ hrole)
      exact (Option.some.inj this).symm
    · exact .inl hrole
  · intro hcond key hkey
    rw [hvalue key hkey, Function.comp_apply]
    by_cases hrole : key = "role"
    · subst hrole
      rw [if_pos rfl, ← hcond.resolve_left (not_not_intro hkey)]
      rfl
    · rw [if_neg hrole]

/-! ## A login as analyst -/

/-- A role. -/
def analystRole : LoginRole := { id := "r-1", name := "analyst", priority := 10 }

/-- Members of one group are analysts, who see the tickets that a filter leaves them. -/
def beforeLogin (key : String) : LoginHistory where
  tables :=
    { users := []
      identities := []
      policies := [{ roleId := "r-1", connectionId := "c-1", allowedTables := []
                     rowFilters := [ownedEntry key], columnMasks := [] }] }
  roles := [analystRole]
  mappings := [{ groupValue := "analysts", roleId := "r-1" }]
  logins := []

/-- A login of a member of the group. -/
def annLogin : SsoLogin where
  authProvider := "oidc"
  subjectId := "s-1"
  email := "ann@example.com"
  groups := ["analysts"]

/-- The state after the first login. -/
def afterLogin (key : String) : LoginHistory where
  tables :=
    { users := [{ id := "u-1", username := "ann@example.com", role := "admin"
                  roleId := some "r-1" }]
      identities := [{ userId := "u-1", provider := "oidc", subjectId := "s-1"
                       email := some "ann@example.com" }]
      policies := (beforeLogin key).tables.policies }
  roles := [analystRole]
  mappings := [{ groupValue := "analysts", roleId := "r-1" }]
  logins := [("u-1", ⟨"s-1", "ann@example.com", analystRole⟩)]

/-- The policy after the login. -/
def annPolicy (key : String) : RolePolicy where
  userId := "u-1"
  roleId := "r-1"
  connectionId := "c-1"
  allowedTables := []
  rowFilters := [ownedEntry key]
  columnMasks := []
  userContext := [("email", some "ann@example.com"), ("subject_id", some "s-1"),
    ("role", some "admin")]

theorem reaches_afterLogin (key : String) :
    Reaches LoginHistory.step (fun _ _ => True) (beforeLogin key) (afterLogin key) :=
  Reaches.refl.step (.login annLogin "u-1") trivial rfl

theorem initial_beforeLogin (key : String) : Initial (beforeLogin key) :=
  ⟨List.nodup_nil, rfl, rfl⟩

/-- A filter by email is bound to the email of the login. -/
theorem email_bound : ∃ b, applyFilterTexts lowerAscii (ticketsGlot "email") ticketsSchema
      "postgres" ticketsSql (annPolicy "email").rowFilters (annPolicy "email").userContext =
        .ok b ∧
    ∃ name stmt scopes, sqlglotDialect? (lowerAscii "postgres") = some name ∧
      (ticketsGlot "email").parse name ticketsSql = some [some stmt] ∧
      (ticketsGlot "email").scopes stmt = some scopes ∧
      (b.params = (boundKeys lowerAscii scopes (annPolicy "email").rowFilters).map
          (expectedValue ⟨"s-1", "ann@example.com", analystRole⟩) ↔
        "role" ∉ boundKeys lowerAscii scopes (annPolicy "email").rowFilters ∨
          analystRole.name = defaultRole) := by
  have happly : applyFilterTexts lowerAscii (ticketsGlot "email") ticketsSchema "postgres"
      ticketsSql (annPolicy "email").rowFilters (annPolicy "email").userContext =
      .ok ⟨"SELECT id FROM tickets WHERE owner = $1".toList, ["ann@example.com"]⟩ := by
    decide +kernel
  have hpolicy : rolePolicyProvider (afterLogin "email").tables false "u-1" "c-1" =
      some (annPolicy "email") := rfl
  exact ⟨_, happly, identity_binding_iff (initial_beforeLogin "email")
    (reaches_afterLogin "email") rfl hpolicy happly⟩

/-- A filter by role is bound to the default, although the login was assigned another role. -/
theorem role_bound_to_default :
    Initial (beforeLogin "role") ∧
    Reaches LoginHistory.step (fun _ _ => True) (beforeLogin "role") (afterLogin "role") ∧
    (afterLogin "role").logins.lookup "u-1" =
      some ⟨"s-1", "ann@example.com", analystRole⟩ ∧
    rolePolicyProvider (afterLogin "role").tables false "u-1" "c-1" = some (annPolicy "role") ∧
    applyFilterTexts lowerAscii (ticketsGlot "role") ticketsSchema "postgres" ticketsSql
        (annPolicy "role").rowFilters (annPolicy "role").userContext =
      .ok ⟨"SELECT id FROM tickets WHERE owner = $1".toList, ["admin"]⟩ ∧
    expectedValue ⟨"s-1", "ann@example.com", analystRole⟩ "role" = "analyst" :=
  ⟨initial_beforeLogin "role", reaches_afterLogin "role", rfl, rfl, by decide +kernel, rfl⟩

end LoginHistory
end QueryCraft
