import Mathlib.Data.List.Sort
import QueryCraft.SessionRecord

/-! # The writers of session records

Two functions create sessions: `AuthService.sign_in` for local accounts, and
`SsoService._resolve_role_and_create_session` for the identity that an identity provider
has vouched for.  Both build the record from a user row, a role row and, for single
sign-on, the subject and the email that the provider sent.

Ids come from the database and are canonical; everything else is text that may be empty,
and the reader accepts no empty text.  In particular an identity without an email is
written with an empty one (`session_accepted_iff`).
-/
namespace QueryCraft

/-! ## Rows -/

/-- A row of `users`. -/
structure UserRow where
  id : Uuid
  username : String
  displayName : String
  passwordHash : Option String
  role : String
  roleId : Option Uuid
  authProvider : AuthProvider

/-- A row of `roles` whose permissions are a list of non-empty strings. -/
structure RoleRow where
  id : Uuid
  name : String
  priority : Int
  permissions : List String
  permissions_ne : ∀ p ∈ permissions, p ≠ ""

/-- A row of `user_identities`. -/
structure UserIdentity where
  userId : Uuid
  provider : AuthProvider
  subjectId : String

/-- The tables.  A group mapping gives a role to a group. -/
structure Directory where
  users : List UserRow
  roles : List RoleRow
  identities : List UserIdentity
  groupMappings : List (String × Uuid)

namespace Directory

/-- A row by its id. -/
def userById (d : Directory) (id : Uuid) : Option UserRow :=
  d.users.find? (·.id.text = id.text)

/-- `user.role_obj`. -/
def roleObj (d : Directory) (user : UserRow) : Option RoleRow :=
  user.roleId.bind fun id => d.roles.find? (·.id.text = id.text)

/-- The identity of a subject at a provider. -/
def identity (d : Directory) (authProvider : AuthProvider) (subjectId : String) :
    Option UserIdentity :=
  d.identities.find? fun i => i.provider = authProvider ∧ i.subjectId = subjectId

/-- `resolve_role_from_groups`: of the roles that the groups are mapped to, the first by
priority and name. -/
def resolveRoleFromGroups (d : Directory) (groups : List String) : Option RoleRow :=
  let mapped := d.roles.filter fun role =>
    d.groupMappings.any fun (group, id) => id.text = role.id.text ∧ group ∈ groups
  (mapped.insertionSort fun a b =>
    a.priority < b.priority ∨ (a.priority = b.priority ∧ a.name ≤ b.name)).head?

end Directory

/-! ## The record -/

/-- The session record that the writers build; one of them leaves the email out. -/
def sessionData (user : UserRow) (roleId : Option Uuid) (roleName : Option String)
    (permissions : List String) (authProvider : AuthProvider) (subjectId : String)
    (email : Option String) (createdAt lastActivity : Timestamp) : List (String × Json) :=
  [("user_id", .str user.id.text), ("username", .str user.username),
   ("display_name", .str user.displayName), ("role", .str user.role),
   ("role_id", (roleId.map (·.text)).elim .null .str), ("role_name", roleName.elim .null .str),
   ("permissions", .arr (permissions.map .str)), ("auth_provider", .str authProvider.text),
   ("subject_id", .str subjectId)] ++ (email.map fun e => ("email", Json.str e)).toList ++
  [("created_at", .float createdAt.value.mantissa createdAt.value.scale),
   ("last_activity", .float lastActivity.value.mantissa lastActivity.value.scale)]

/-- `AuthService.sign_in`, up to the stored session: its owner and its record; `none` when
the login is rejected. -/
def signIn (d : Directory) (verifyPassword : String → String → Bool) (username password : String)
    (createdAt lastActivity : Timestamp) : Option (String × Json) := do
  let user ← d.users.find? (·.username = username)
  guard (user.authProvider = .local)
  let passwordHash ← user.passwordHash
  guard (verifyPassword password passwordHash)
  guard (user.role = "admin")
  let role := d.roleObj user
  -- a local user's subject is the user name
  return (user.id.text,
    .obj (sessionData user user.roleId (role.map (·.name)) (role.elim [] (·.permissions))
      user.authProvider username none createdAt lastActivity))

/-- The user of an identity; a new one is named after the email or the subject, and has
the column's default role.  `none` where the name is taken or the user is missing. -/
def identityUser (d : Directory) (newId : Uuid) (role : RoleRow) (authProvider : AuthProvider)
    (subjectId email : String) : Option UserRow :=
  match d.identity authProvider subjectId with
  | some identity =>
    (d.userById identity.userId).map fun user => { user with roleId := some role.id }
  | none =>
    let username := if email = "" then subjectId else email
    if d.users.any (·.username = username) then none
    else some {
      id := newId, username := username, displayName := username, passwordHash := none,
      role := "admin", roleId := some role.id, authProvider := authProvider }

/-- `_resolve_role_and_create_session`, up to the stored session: its owner and its
record; `none` when the login is rejected. -/
def resolveRoleAndCreateSession (d : Directory) (newId : Uuid) (subjectId email : String)
    (groups : List String) (authProvider : AuthProvider) (createdAt lastActivity : Timestamp) :
    Option (String × Json) := do
  let role ← d.resolveRoleFromGroups groups
  let user ← identityUser d newId role authProvider subjectId email
  return (user.id.text,
    .obj (sessionData user (some role.id) (some role.name) role.permissions authProvider subjectId
      (some email) createdAt lastActivity))

/-- The part of `process_oidc_callback` and `process_saml_callback` that reads the subject
and the email; an absent one is empty. -/
def ssoLogin (d : Directory) (newId : Uuid) (subject email : Option String) (groups : List String)
    (authProvider : AuthProvider) (createdAt lastActivity : Timestamp) : Option (String × Json) :=
  resolveRoleAndCreateSession d newId (subject.getD "") (email.getD "") groups authProvider
    createdAt lastActivity

/-! ## What the reader accepts -/

theorem ne_empty_of_read {s t : String} (h : Json.nonEmptyString? (.str s) = some t) : s ≠ "" := by
  obtain ⟨heq, hne⟩ := Json.nonEmptyString?_eq_some.mp h
  rw [Json.str.inj heq]
  exact hne

theorem ne_empty_of_read_nullable {s : String} {t : Option String}
    (h : Json.nullable Json.nonEmptyString? (.str s) = some t) : s ≠ "" := by
  obtain ⟨_, hread, -⟩ := Option.map_eq_some_iff.mp h
  exact ne_empty_of_read hread

section
variable {user : UserRow} {roleId : Option Uuid} {roleName : Option String}
  {permissions : List String} {authProvider : AuthProvider} {subjectId : String}
  {email : Option String} {createdAt lastActivity : Timestamp}

/-- A record is accepted if none of its texts is empty. -/
theorem sessionData_accepted_iff (hpermissions : ∀ p ∈ permissions, p ≠ "") :
    (parseSessionRecord (.obj (sessionData user roleId roleName permissions authProvider
        subjectId email createdAt lastActivity)) (some user.id.text)).isSome = true ↔
      user.username ≠ "" ∧ user.displayName ≠ "" ∧ user.role ≠ "" ∧
        (∀ name ∈ roleName, name ≠ "") ∧ subjectId ≠ "" ∧ (∀ e ∈ email, e ≠ "") := by
  rw [Option.isSome_iff_exists]
  constructor
  · rintro ⟨r, hr⟩
    obtain ⟨-, h, -⟩ := parseSessionRecord_eq_some.mp hr
    have husername : Json.nonEmptyString? (.str user.username) = some r.username := h.username
    have hdisplay : Json.nonEmptyString? (.str user.displayName) = some r.displayName :=
      h.displayName
    have hrole : Json.nonEmptyString? (.str user.role) = some r.role := h.role
    have hsubject : Json.nonEmptyString? (.str subjectId) = some r.subjectId := h.subjectId
    refine ⟨ne_empty_of_read husername, ne_empty_of_read hdisplay, ne_empty_of_read hrole,
      fun name hname => ?_, ne_empty_of_read hsubject, fun e he => ?_⟩
    · obtain rfl := Option.mem_def.mp hname
      exact ne_empty_of_read_nullable h.roleName
    · obtain rfl := Option.mem_def.mp he
      obtain ⟨v, hv, -⟩ := Option.map_eq_some_iff.mp h.email
      exact ne_empty_of_read_nullable hv
  · rintro ⟨husername, hdisplay, hrole, hname, hsubject, hemail⟩
    refine ⟨⟨user.id.text, user.username, user.displayName, user.role, roleId.map (·.text),
      roleName, permissions, authProvider, subjectId, email.map some, createdAt.value,
      lastActivity.value, none⟩, parseSessionRecord_eq_some.mpr ⟨?_, ?_, by simp⟩⟩
    · cases email <;> simp [sessionData, sessionFields]
    · have hid : ∀ u : Uuid, Json.canonicalUuid? (.str u.text) = some u.text := fun u =>
        Json.canonicalUuid?_eq_some.mpr ⟨rfl, u.text_ne_empty, u.canonical⟩
      refine ⟨hid user.id, if_neg husername, if_neg hdisplay, if_neg hrole, ?_, ?_,
        Json.stringList?_map_str hpermissions, Json.authProvider?_text authProvider,
        if_neg hsubject, ?_, ?_, ?_, ?_⟩
      · cases roleId with
        | none => rfl
        | some id => exact congrArg (Option.map some) (hid id)
      · cases roleName with
        | none => rfl
        | some name => exact congrArg (Option.map some) (if_neg (hname name rfl))
      · cases email with
        | none => rfl
        | some e => exact congrArg (Option.map some) (congrArg (Option.map some) (if_neg (hemail e rfl)))
      · cases email <;> exact Json.timestamp?_float createdAt.valid
      · cases email <;> exact Json.timestamp?_float lastActivity.valid
      · cases email <;> rfl

end

/-- The user of an identity has no empty text, if the subject and the email have none and
the user's row has none. -/
theorem identityUser_texts {d : Directory} {newId : Uuid} {role : RoleRow}
    {authProvider : AuthProvider} {subjectId email : String} {user : UserRow}
    (h : identityUser d newId role authProvider subjectId email = some user)
    (hemail : email ≠ "") :
    (user.username ≠ "" ∧ user.displayName ≠ "" ∧ user.role ≠ "") ↔
      ∀ identity ∈ d.identity authProvider subjectId, ∀ row ∈ d.userById identity.userId,
        row.username ≠ "" ∧ row.displayName ≠ "" ∧ row.role ≠ "" := by
  unfold identityUser at h
  split at h
  · rename_i identity hidentity
    obtain ⟨row, hrow, rfl⟩ := Option.map_eq_some_iff.mp h
    simp [hidentity, hrow]
  · rename_i hidentity
    simp only [if_neg hemail] at h
    split at h
    · cases h
    · obtain rfl := Option.some.inj h
      simp [hidentity, hemail]

/-- **A stored session is accepted if and only if none of its texts is empty**: for a
local login the user name, the display name and the name of the role, and for single
sign-on also the subject, the email and the user's role. -/
theorem session_accepted_iff (d : Directory) (createdAt lastActivity : Timestamp) :
    (∀ (verifyPassword : String → String → Bool) (username password owner : String)
      (session : Json),
      signIn d verifyPassword username password createdAt lastActivity = some (owner, session) →
      ((parseSessionRecord session (some owner)).isSome = true ↔
        username ≠ "" ∧ ∀ user ∈ d.users.find? (·.username = username),
          user.displayName ≠ "" ∧ ∀ role ∈ d.roleObj user, role.name ≠ "")) ∧
    (∀ (newId : Uuid) (subject email : Option String) (groups : List String)
      (authProvider : AuthProvider) (owner : String) (session : Json),
      ssoLogin d newId subject email groups authProvider createdAt lastActivity =
        some (owner, session) →
      ((parseSessionRecord session (some owner)).isSome = true ↔
        subject.getD "" ≠ "" ∧ email.getD "" ≠ "" ∧
        (∀ role ∈ d.resolveRoleFromGroups groups, role.name ≠ "") ∧
        ∀ identity ∈ d.identity authProvider (subject.getD ""),
          ∀ user ∈ d.userById identity.userId,
            user.username ≠ "" ∧ user.displayName ≠ "" ∧ user.role ≠ "")) := by
  constructor
  · intro verifyPassword username password owner session h
    obtain ⟨user, huser, h⟩ := Option.bind_eq_some_iff.mp h
    obtain ⟨-, -, h⟩ := Option.bind_eq_some_iff.mp h
    obtain ⟨passwordHash, -, h⟩ := Option.bind_eq_some_iff.mp h
    obtain ⟨-, -, h⟩ := Option.bind_eq_some_iff.mp h
    obtain ⟨_, hadmin, h⟩ := Option.bind_eq_some_iff.mp h
    obtain ⟨rfl, rfl⟩ := Prod.mk.inj (Option.some.inj h)
    have hname : user.username = username := by simpa using List.find?_some huser
    have hrole : user.role = "admin" := by
      by_contra hne
      rw [show guard (user.role = "admin") = (none : Option Unit) from if_neg hne] at hadmin
      cases hadmin
    rw [sessionData_accepted_iff]
    · rw [hname, hrole, huser]
      simp only [Option.mem_def, Option.map_eq_some_iff, Option.some.injEq, forall_eq', ne_eq,
        forall_exists_index, and_imp, forall_apply_eq_imp_iff₂, reduceCtorEq, false_imp_iff,
        implies_true]
      refine ⟨fun ⟨hn, hd, _, hr, _⟩ => ⟨hn, hd, hr⟩, fun ⟨hn, hd, hr⟩ => ?_⟩
      exact ⟨hn, hd, by decide, hr, hn, trivial⟩
    · cases hobj : d.roleObj user with
      | none => simp
      | some role => exact role.permissions_ne
  · intro newId subject email groups authProvider owner session h
    obtain ⟨role, hrole, h⟩ := Option.bind_eq_some_iff.mp h
    obtain ⟨user, huser, h⟩ := Option.bind_eq_some_iff.mp h
    obtain ⟨rfl, rfl⟩ := Prod.mk.inj (Option.some.inj h)
    rw [sessionData_accepted_iff role.permissions_ne, hrole]
    simp only [Option.mem_def, Option.some.injEq, forall_eq']
    constructor
    · rintro ⟨hu, hd, hr, hname, hsubject, hemail⟩
      exact ⟨hsubject, hemail, hname, (identityUser_texts huser hemail).mp ⟨hu, hd, hr⟩⟩
    · rintro ⟨hsubject, hemail, hname, hrow⟩
      obtain ⟨hu, hd, hr⟩ := (identityUser_texts huser hemail).mpr hrow
      exact ⟨hu, hd, hr, hname, hsubject, hemail⟩

/-- Two ids. -/
def uuidA : Uuid := ⟨"00000000-0000-4000-8000-00000000000a", by decide⟩
def uuidB : Uuid := ⟨"00000000-0000-4000-8000-00000000000b", by decide⟩

/-- One role, given to the group of analysts, and no users. -/
def analystsOnly : Directory where
  users := []
  roles := [⟨uuidA, "Analyst", 1, ["query.submit"], by decide⟩]
  identities := []
  groupMappings := [("analysts", uuidA)]

/-- Half a second past the epoch. -/
def earlyTime : Timestamp := ⟨⟨5, 1⟩, by decide +kernel⟩

/-- A first login of "sub-1" with the given email. -/
def firstLogin (email : Option String) : Option (String × Json) :=
  ssoLogin analystsOnly uuidB (some "sub-1") email ["analysts"] .oidc earlyTime earlyTime

theorem session_accepted_with_email :
    ∃ owner session, firstLogin (some "a@b.c") = some (owner, session) ∧
      (parseSessionRecord session (some owner)).isSome = true := by
  obtain ⟨⟨owner, session⟩, h⟩ : ∃ result, firstLogin (some "a@b.c") = some result := ⟨_, rfl⟩
  refine ⟨owner, session, h, ((session_accepted_iff analystsOnly earlyTime earlyTime).2 uuidB
    (some "sub-1") (some "a@b.c") ["analysts"] .oidc owner session h).mpr ⟨?_, ?_, ?_, ?_⟩⟩
  · decide
  · decide
  · intro role hrole
    obtain rfl := Option.some.inj hrole
    decide
  · intro identity hidentity
    cases hidentity

/-- **A login without an email stores a session that is not accepted.** -/
theorem session_rejected_without_email :
    ∃ owner session, firstLogin none = some (owner, session) ∧
      parseSessionRecord session (some owner) = none := ⟨_, _, rfl, rfl⟩

end QueryCraft
