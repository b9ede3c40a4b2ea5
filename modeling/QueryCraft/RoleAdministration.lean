import QueryCraft.IdentityBinding
import QueryCraft.RoleTables
import QueryCraft.SessionRecord

/-! # Role administration

The requests that change roles, their connection policies and the mappings of SSO groups to
roles (`admin_roles.py`, `role_service.py`, `role_repository.py` and the group mappings of
`admin_sso.py`).  A request passes `require_permission`, which reads the current role of the
user, and is then executed in one transaction: it is committed with the reply, or rolled back
and refused.  Only the refusal to touch a built-in role is committed, as an entry of the audit
log.

An exception carries nothing but its kind, except for `BuiltinProtectedError`, whose handlers
commit: it carries the tables as they were when it was raised.

Requests are executed one at a time.
-/
namespace QueryCraft

/-! ## What a request uses -/

/-- What the requests use of other code. -/
structure RoleEnv where
  /-- `uuid.UUID`, with the canonical text of its value. -/
  parseUuid : String → Option String
  /-- `str.lower`. -/
  lower : String → String
  /-- `sqlglot.parse`. -/
  parse : SqlParser
  /-- Python's comparison of two lists. -/
  sameList : List Json → List Json → Bool
  /-- Whether JSONB takes the documents; it refuses null characters. -/
  storable : PolicyValues → Bool

/-- What the database chooses for the rows that a request inserts: the time of the transaction
and the ids, of a role, of the policy for a connection and of the mapping of a group. -/
structure NewRows where
  now : Int
  roleId : String
  policyId : String → String
  mappingId : String → String

/-- Why a request is given up: the exceptions of the service, `HTTPException`, and any other. -/
inductive RoleError where
  | builtinProtected (pending : RoleTables)
  | duplicateName
  | duplicatePriority
  | notFound
  | invalidPermissions
  | http (status : Nat) (error messageKey : String)
  | internal

/-- `_RoleDetailResponse`: the role, its mappings and its policies. -/
structure RoleDetail where
  role : Role
  groupMappings : List (String × String)
  connectionPolicies : List ConnectionPolicyRow

/-- The replies. -/
inductive RoleReply where
  | detail (status : Nat) (role : RoleDetail)
  | mapping (mapping : GroupMappingRow) (roleName : String)
  | deleted
  | refused (status : Nat) (error messageKey : String)

/-- `_reject_control_chars` accepts the text. -/
def hasNoControlChars (s : String) : Bool := s.toList.all fun c => 32 ≤ c.toNat && c.toNat != 127

/-- `name`: `min_length=1, max_length=100`. -/
def isRoleName (s : String) : Bool := 1 ≤ s.length && s.length ≤ 100 && hasNoControlChars s

/-- `description`: `max_length=500`. -/
def isRoleDescription (s : String) : Bool := s.length ≤ 500 && hasNoControlChars s

/-- `priority`: `ge=0, le=MAX_DB_INTEGER`. -/
def isRolePriority (n : Int) : Bool := 0 ≤ n && n ≤ maxDbInteger

/-- `ConnectionPolicyItem`. -/
structure ConnectionPolicyItem extends PolicyValues where
  connectionId : String

/-- `RoleCreate`, as the validators let it through. -/
structure RoleCreate where
  name : String
  description : Option String
  priority : Int
  permissions : List String
  groupMappings : List String
  connectionPolicies : List ConnectionPolicyItem
  name_valid : isRoleName name = true
  description_valid : description.all isRoleDescription = true
  priority_valid : isRolePriority priority = true
  groupMappings_valid : groupMappings.Nodup

/-- The fields of a role that a request sets. -/
structure RoleFields where
  name : Option String
  description : Option String
  priority : Option Int
  permissions : Option (List String)

/-- `RoleUpdate`, as the validators let it through. -/
structure RoleUpdate extends RoleFields where
  groupMappings : Option (List String)
  connectionPolicies : Option (List ConnectionPolicyItem)
  name_valid : name.all isRoleName = true
  description_valid : description.all isRoleDescription = true
  priority_valid : priority.all isRolePriority = true
  groupMappings_valid : ∀ values ∈ groupMappings, values.Nodup

/-- `validate_permissions` and `_validate_permissions` accept the list. -/
def permissionsAllowed (permissions : List String) : Bool :=
  permissions.all allowedPermissions.contains

/-! ## The repository -/

namespace RoleFields
variable (fields : RoleFields) (role : Role)

/-- `protected_fields.intersection(fields.keys())`. -/
def attemptsProtected : Bool :=
  fields.name.isSome || fields.permissions.isSome || fields.priority.isSome

/-- `setattr` for each of the fields. -/
def set : Role :=
  { role with
    name := fields.name.getD role.name
    description := (fields.description.map some).getD role.description
    priority := fields.priority.getD role.priority
    permissions := fields.permissions.getD role.permissions }

/-- `changed_fields`. -/
def changed : RoleFields where
  name := fields.name.filter (· ≠ role.name)
  description := fields.description.filter (some · ≠ role.description)
  priority := fields.priority.filter (· ≠ role.priority)
  permissions := fields.permissions.filter (· ≠ role.permissions)

/-- `fields.keys()`. -/
def keys : List String :=
  (if fields.name.isSome then ["name"] else []) ++
    (if fields.description.isSome then ["description"] else []) ++
    (if fields.priority.isSome then ["priority"] else []) ++
    if fields.permissions.isSome then ["permissions"] else []

end RoleFields

namespace RoleTables
variable (db : RoleTables)

/-- `RoleRepository.create`. -/
def create (role : Role) : Except RoleError RoleTables :=
  if db.roles.any (·.id = role.id) then .error .internal
  else .ok { db with roles := db.roles ++ [role] }

/-- `RoleRepository.update`. -/
def update (roleId : String) (fields : RoleFields) : Except RoleError (RoleTables × Option Role) :=
  match db.getById roleId with
  | none => .ok (db, none)
  | some role =>
    if role.isBuiltin && fields.attemptsProtected then .error (.builtinProtected db)
    else .ok
      ({ db with roles := db.roles.map fun r => if r.id = roleId then fields.set r else r },
        some (fields.set role))

/-- The row of a role is deleted.  The foreign keys delete its mappings and policies and set
that of its users to `NULL`. -/
def deleteRow (roleId : String) : RoleTables :=
  { db with
    roles := db.roles.filter (·.id ≠ roleId)
    mappings := db.mappings.filter (·.roleId ≠ roleId)
    policies := db.policies.filter (·.roleId ≠ roleId)
    users := db.users.map fun u => if u.roleId = some roleId then { u with roleId := none } else u }

/-- `RoleRepository.delete`. -/
def delete (roleId : String) : Except RoleError (RoleTables × Bool) :=
  match db.getById roleId with
  | none => .ok (db, false)
  | some role =>
    if role.isBuiltin then .error (.builtinProtected db) else .ok (db.deleteRow roleId, true)

end RoleTables

/-! ## The service -/

/-- The entry for an attempt to touch a built-in role. -/
def builtinProtectedEntry (actor : Option String) (roleId : String) : LogRequest where
  action := .accessDenied
  actorIdentity := actor
  resourceType := some "role"
  resourceId := some roleId
  outcome := "denied"
  context := .obj [("reason", .str "builtin_protected")]

/-- The entry for a role that was created, changed or deleted. -/
def roleEntry (action : AuditActionType) (actor : Option String) (roleId : String)
    (context : Json) : LogRequest where
  action := action
  actorIdentity := actor
  resourceType := some "role"
  resourceId := some roleId
  context := context

/-- The entry for a role that was created. -/
def roleCreateEntry (actor : Option String) (role : Role) : LogRequest :=
  roleEntry .roleCreate actor role.id
    (.obj [("name", .str role.name), ("priority", .int role.priority)])

namespace RoleService
variable (db : RoleTables) (actor : Option String)

/-- `RoleService.create_role`. -/
def createRole (role : Role) : Except RoleError RoleTables :=
  if (db.getByName role.name).isSome then .error .duplicateName
  else if (db.getByPriority role.priority).isSome then .error .duplicatePriority
  else if !permissionsAllowed role.permissions then .error .invalidPermissions
  else do
    let db ← db.create role
    return db.log (roleCreateEntry actor role)

/-- `RoleService.update_role`, for a caller that writes the entry of the audit log itself:
the role, and the names of the fields that changed. -/
def updateRole (roleId : String) (fields : RoleFields) :
    Except RoleError (RoleTables × Role × List String) :=
  match db.getById roleId with
  | none => .error .notFound
  | some existing =>
    if existing.isBuiltin && fields.attemptsProtected then .error (.builtinProtected db)
    else if fields.name.any fun name => (db.getByName name).any (·.id ≠ roleId) then
      .error .duplicateName
    else if fields.priority.any fun priority => (db.getByPriority priority).any (·.id ≠ roleId) then
      .error .duplicatePriority
    else if !fields.permissions.all permissionsAllowed then .error .invalidPermissions
    else if (fields.changed existing).keys = [] then .ok (db, existing, [])
    else do
      let (db, updated) ← db.update roleId (fields.changed existing)
      match updated with
      | none => .error .notFound
      | some role => return (db, role, (fields.changed existing).keys)

/-- `RoleService.delete_role`. -/
def deleteRole (roleId : String) : Except RoleError RoleTables :=
  match db.getById roleId with
  | none => .error .notFound
  | some existing =>
    if existing.isBuiltin then
      .error (.builtinProtected (db.log (builtinProtectedEntry actor roleId)))
    else do
      let (db, deleted) ← db.delete roleId
      if deleted then return db.log (roleEntry .roleDelete actor roleId (.obj []))
      else .error .notFound

end RoleService

end QueryCraft
