import Mathlib.Data.List.Sort
import Mathlib.Data.String.Basic
import QueryCraft.KeyedRows
import QueryCraft.PolicyProvider
import QueryCraft.ReadOnlyRule

/-! # The tables of role administration

The rows of `roles`, of the group mappings and connection policies that belong to a role, and
of the users and connections they refer to.  An id is the canonical text of a UUID.

`Consistent` collects the constraints of the tables: the columns that are unique and the
foreign keys.  The model does not enforce them when a row is written; the constraint on the
primary key is the only one that the database is left to check, since it chooses the ids.  So
what is proved of the requests in `RoleAdministration` is that the code keeps the constraints
by itself.

Seen as partial maps the tables say who gets what (`Grants`): the role of an id, the mapping of
a group, the policy of a role for a connection.
-/
namespace QueryCraft

/-! ## The rows -/

/-- `Permission`. -/
inductive Permission where
  | querySubmit | queryHistoryView | adminConnectionsManage | adminRolesManage | adminSsoManage
  | adminAuditVerify | adminQuotasManage | adminSecurityManage
deriving DecidableEq, Repr

/-- `str(permission)`. -/
def Permission.value : Permission → String
  | querySubmit => "query.submit"
  | queryHistoryView => "query.history.view"
  | adminConnectionsManage => "admin.connections.manage"
  | adminRolesManage => "admin.roles.manage"
  | adminSsoManage => "admin.sso.manage"
  | adminAuditVerify => "admin.audit.verify"
  | adminQuotasManage => "admin.quotas.manage"
  | adminSecurityManage => "admin.security.manage"

/-- `{p.value for p in Permission}`. -/
def allowedPermissions : List String :=
  [Permission.querySubmit, .queryHistoryView, .adminConnectionsManage, .adminRolesManage,
    .adminSsoManage, .adminAuditVerify, .adminQuotasManage, .adminSecurityManage].map (·.value)

/-- A row of `roles`. -/
structure Role where
  id : String
  name : String
  description : Option String
  priority : Int
  permissions : List String
  isBuiltin : Bool
deriving DecidableEq, Repr

/-- `MAX_DB_INTEGER`. -/
def maxDbInteger : Int := 2147483647

/-- The columns of `roles` hold the values. -/
structure Role.Fits (r : Role) : Prop where
  name : r.name.length ≤ 100
  description : ∀ d ∈ r.description, d.length ≤ 500
  priority : 0 ≤ r.priority ∧ r.priority ≤ maxDbInteger

/-- A row of `sso_group_mappings`. -/
structure GroupMappingRow where
  id : String
  groupValue : String
  roleId : String
  createdAt : Int
deriving DecidableEq, Repr

/-- `_ConnectionPolicyValues`. -/
structure PolicyValues where
  allowedTables : List Json
  rowFilters : List Json
  columnMasks : List Json

/-- A row of `role_connection_policies`. -/
structure ConnectionPolicyRow where
  id : String
  roleId : String
  connectionId : String
  values : PolicyValues
  createdAt : Int

/-- The key of a policy. -/
def ConnectionPolicyRow.key (p : ConnectionPolicyRow) : String × String :=
  (p.roleId, p.connectionId)

/-- A row of `source_database_connections`, as far as the filters of a policy depend on it. -/
structure SourceConnection where
  id : String
  databaseType : DatabaseType
deriving DecidableEq, Repr

/-- A row of `connection_schema_entries`. -/
structure ConnectionSchemaEntry where
  connectionId : String
  tableName : String
  columnName : String
deriving DecidableEq, Repr

/-- `isinstance(value, str)`, with the string. -/
def Json.text? : Json → Option String
  | .str s => some s
  | _ => none

/-- An entry of `row_filters` as it is read by the validator and by the policy provider. -/
def rowFilterEntry (rowFilter : Json) : RowFilterEntry where
  table := (rowFilter.get "table").text?
  filter := (rowFilter.get "filter").text?.map String.toList

/-- The policy as the provider reads it. -/
def ConnectionPolicyRow.toPolicyRow (p : ConnectionPolicyRow) : PolicyRow where
  roleId := p.roleId
  connectionId := p.connectionId
  allowedTables := p.values.allowedTables
  rowFilters := p.values.rowFilters.map rowFilterEntry
  columnMasks := p.values.columnMasks

/-- `ORDER BY created_at, id`. -/
def orderedByCreation {R : Type} (createdAt : R → Int) (id : R → String) (rows : List R) :
    List R :=
  rows.insertionSort fun a b => createdAt a < createdAt b ∨ createdAt a = createdAt b ∧ id a ≤ id b

theorem mem_orderedByCreation {R : Type} {createdAt : R → Int} {id : R → String} {rows : List R}
    {r : R} : r ∈ orderedByCreation createdAt id rows ↔ r ∈ rows :=
  (List.perm_insertionSort _ _).mem_iff

/-! ## The tables -/

/-- The tables, and the entries of the audit log that the requests write.  The schema entries are
listed in the order in which they are selected, by table and column. -/
structure RoleTables where
  roles : List Role
  mappings : List GroupMappingRow
  policies : List ConnectionPolicyRow
  users : List PolicyUser
  identities : List IdentityRow
  connections : List SourceConnection
  schemaEntries : List ConnectionSchemaEntry
  audit : List LogRequest

namespace RoleTables
variable (db : RoleTables)

/-- `RoleRepository.get_by_id`. -/
def getById (roleId : String) : Option Role := rowWith (·.id) db.roles roleId

/-- `RoleRepository.get_by_name`. -/
def getByName (name : String) : Option Role := rowWith (·.name) db.roles name

/-- `RoleRepository.get_by_priority`. -/
def getByPriority (priority : Int) : Option Role := rowWith (·.priority) db.roles priority

/-- `_role_group_mapping_rows`. -/
def roleGroupMappingRows (roleId : String) : List GroupMappingRow :=
  orderedByCreation (·.createdAt) (·.id) (db.mappings.filter (·.roleId = roleId))

/-- `_role_connection_policy_rows`. -/
def roleConnectionPolicyRows (roleId : String) : List ConnectionPolicyRow :=
  orderedByCreation (·.createdAt) (·.id) (db.policies.filter (·.roleId = roleId))

/-- `get_schema_entries`. -/
def getSchemaEntries (connectionId : String) : List ConnectionSchemaEntry :=
  db.schemaEntries.filter (·.connectionId = connectionId)

/-- The tables of the policy provider. -/
def policyTables : PolicyTables where
  users := db.users
  identities := db.identities
  policies := db.policies.map (·.toPolicyRow)

/-- `AuditService.log`. -/
def log (req : LogRequest) : RoleTables := { db with audit := db.audit ++ [req] }

/-- The constraints of the tables. -/
structure Consistent : Prop where
  roleId : UniqueKey (·.id) db.roles
  roleName : UniqueKey (·.name) db.roles
  rolePriority : UniqueKey (·.priority) db.roles
  mappingId : UniqueKey (·.id) db.mappings
  groupValue : UniqueKey (·.groupValue) db.mappings
  policyId : UniqueKey (·.id) db.policies
  policyKey : UniqueKey (·.key) db.policies
  mappingRole : ∀ m ∈ db.mappings, ∃ r ∈ db.roles, r.id = m.roleId
  policyRole : ∀ p ∈ db.policies, ∃ r ∈ db.roles, r.id = p.roleId
  policyConnection : ∀ p ∈ db.policies, ∃ c ∈ db.connections, c.id = p.connectionId
  userId : UniqueKey (·.id) db.users
  userRole : ∀ u ∈ db.users, ∀ roleId, u.roleId = some roleId → ∃ r ∈ db.roles, r.id = roleId
  permissions : ∀ r ∈ db.roles, ∀ p ∈ r.permissions, p ∈ allowedPermissions
  fits : ∀ r ∈ db.roles, r.Fits

end RoleTables

/-! ## The tables as maps -/

/-- Who gets what: the role of an id, the mapping of a group, and the policy of a role for a
connection. -/
@[ext]
structure Grants where
  role : String → Option Role
  group : String → Option GroupMappingRow
  policy : String → String → Option ConnectionPolicyRow

/-- What the tables say. -/
def RoleTables.grants (db : RoleTables) : Grants where
  role := db.getById
  group := rowWith (·.groupValue) db.mappings
  policy roleId connectionId := rowWith (·.key) db.policies (roleId, connectionId)

end QueryCraft
