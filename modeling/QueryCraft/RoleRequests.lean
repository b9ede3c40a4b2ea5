import QueryCraft.Raising
import QueryCraft.RoleAdministration

/-! # Requests to role administration

The endpoints of `admin_roles.py` that change something, and those of `admin_sso.py` for group
mappings.  What SQLAlchemy collects until the flush is collected here (`PolicyChanges`), so that
the policies of a role are written in one go.
-/
namespace QueryCraft

/-! ## Group mappings of a role -/

/-- The mapping of a group that a request inserts. -/
def NewRows.mapping (new : NewRows) (roleId groupValue : String) : GroupMappingRow :=
  ⟨new.mappingId groupValue, groupValue, roleId, new.now⟩

/-- The policy for a connection that a request inserts. -/
def NewRows.policy (new : NewRows) (roleId connectionId : String) (values : PolicyValues) :
    ConnectionPolicyRow :=
  ⟨new.policyId connectionId, roleId, connectionId, values, new.now⟩

/-- `_duplicate_group_mapping_error`. -/
def duplicateGroupMappingError : RoleError :=
  .http 409 "conflict" "error.conflict.duplicateGroupMapping"

/-- `_audit_group_mapping_change`. -/
def groupMappingEntry (actor : Option String) (mappingId action : String) : LogRequest where
  action := .roleMappingChange
  actorIdentity := actor
  resourceType := some "sso_group_mapping"
  resourceId := some mappingId
  context := .obj [("action", .str action)]

section Mappings
variable (new : NewRows) (actor : Option String) (roleId : String)

/-- `_claim_group_mapping`. -/
def claimGroupMapping (db : RoleTables) (groupValue : String) : Except RoleError RoleTables :=
  if db.mappings.any (·.groupValue = groupValue) then .error duplicateGroupMappingError
  else if db.mappings.any (·.id = new.mappingId groupValue) then .error .internal
  else .ok { db with mappings := db.mappings ++ [new.mapping roleId groupValue] }

/-- A group is claimed, with an entry. -/
def claimWithEntry (db : RoleTables) (groupValue : String) : Except RoleError RoleTables := do
  let db ← claimGroupMapping new roleId db groupValue
  return db.log (groupMappingEntry actor (new.mappingId groupValue) "create")

/-- `_create_role_group_mappings`. -/
def createRoleGroupMappings (db : RoleTables) (groupValues : List String) :
    Except RoleError (RoleTables × List (String × String)) := do
  let db ← groupValues.foldlM (claimWithEntry new actor roleId) db
  return (db, groupValues.map fun groupValue => (new.mappingId groupValue, groupValue))

/-- A mapping that is not requested is deleted, with an entry. -/
def deleteUnrequested (requested : List String) (db : RoleTables) (m : GroupMappingRow) :
    RoleTables :=
  if requested.contains m.groupValue then db
  else
    ({ db with mappings := db.mappings.filter (·.id ≠ m.id) } : RoleTables).log
      (groupMappingEntry actor m.id "delete")

/-- A requested group is claimed unless the role has it; the ids are those of `persisted_ids`. -/
def claimUnlessPersisted (persisted : RoleTables × List (String × String)) (groupValue : String) :
    Except RoleError (RoleTables × List (String × String)) :=
  if (persisted.2.lookup groupValue).isSome then .ok persisted
  else do
    let db ← claimWithEntry new actor roleId persisted.1 groupValue
    return (db, persisted.2 ++ [(groupValue, new.mappingId groupValue)])

/-- `_sync_role_group_mappings`. -/
def syncRoleGroupMappings (db : RoleTables) (requested : List String) :
    Except RoleError (RoleTables × List (String × String)) := do
  let current := db.roleGroupMappingRows roleId
  let deleted := current.foldl (deleteUnrequested actor requested) db
  let (db, persisted) ← requested.foldlM (claimUnlessPersisted new actor roleId)
    (deleted, current.map fun m => (m.groupValue, m.id))
  return (db, requested.map fun groupValue =>
    ((persisted.lookup groupValue).getD "", groupValue))

end Mappings

/-! ## Policies of a role -/

/-- `_build_schema_from_entries`: an entry is added to its table. -/
def addSchemaEntry (tables : List SchemaTable) (entry : ConnectionSchemaEntry) :
    List SchemaTable :=
  if tables.any (·.name = entry.tableName) then
    tables.map fun t =>
      if t.name = entry.tableName then { t with columns := t.columns ++ [entry.columnName] } else t
  else tables ++ [{ name := entry.tableName, columns := [entry.columnName] }]

/-- `_build_schema_from_entries`. -/
def buildSchemaFromEntries (entries : List ConnectionSchemaEntry) : List SchemaTable :=
  entries.foldl addSchemaEntry []

/-- The policies that are to be deleted, changed and added at the flush. -/
structure PolicyChanges where
  removed : List ConnectionPolicyRow
  changed : List ConnectionPolicyRow
  added : List ConnectionPolicyRow

namespace PolicyChanges
variable (changes : PolicyChanges)

/-- Whether there is something to flush. -/
def isChanged : Bool :=
  !changes.removed.isEmpty || !changes.changed.isEmpty || !changes.added.isEmpty

/-- The row of a policy after the flush. -/
def rowAfter (p : ConnectionPolicyRow) : ConnectionPolicyRow :=
  (rowWith (·.id) changes.changed p.id).getD p

/-- The flush. -/
def flush (storable : PolicyValues → Bool) (db : RoleTables) : Except RoleError RoleTables :=
  if (changes.added.map (·.id)).Nodup ∧
      (∀ p ∈ changes.added, ∀ q ∈ db.policies, p.id ≠ q.id) ∧
      ∀ p ∈ changes.added ++ changes.changed, storable p.values = true then
    .ok { db with
      policies := (db.policies.map changes.rowAfter).filter (fun p =>
        changes.removed.all (·.id ≠ p.id)) ++ changes.added }
  else .error .internal

end PolicyChanges

section Policies
variable (env : RoleEnv) (new : NewRows) (roleId : String)

/-- `_parse_policy_connection_ids`; `none` where it raises. -/
def parsePolicyConnectionIds (policies : List ConnectionPolicyItem) : Option (List String) :=
  policies.mapM fun policy =>
    if policy.connectionId = "" then none else env.parseUuid policy.connectionId

/-- `_validate_policy_input`. -/
def validatePolicyInput (db : RoleTables) (parsedConnIds : List String) :
    Except RoleError Unit :=
  if ¬ parsedConnIds.Nodup then
    .error (.http 422 "validation" "error.validation.duplicateConnectionPolicy")
  else if ∀ id ∈ parsedConnIds, ∃ c ∈ db.connections, c.id = id then .ok ()
  else .error (.http 404 "not_found" "error.notFound.connection")

/-- `_validate_preview_row_filters` accepts the filter. -/
def rowFilterAccepted (schema : List SchemaTable) (dialect : String) (rowFilter : RowFilterEntry) :
    Bool :=
  match rowFilter.table, rowFilter.filter with
  | some tableName, some filterSql =>
    validateRowFilterText env.lower env.parse schema tableName dialect filterSql
  | _, _ => false

/-- The filters of a policy are accepted for the schema of its connection, unless there are
none. -/
def policyFiltersAccepted (db : RoleTables) (policy : PolicyValues) (connectionId : String) :
    Bool :=
  policy.rowFilters.isEmpty ||
    (rowWith (·.id) db.connections connectionId).any fun connection =>
      policy.rowFilters.all fun rowFilter =>
        rowFilterAccepted env (buildSchemaFromEntries (db.getSchemaEntries connectionId))
          (ReadOnlyRule.fromDatabaseType connection.databaseType).dialect (rowFilterEntry rowFilter)

/-- `_validate_policy_row_filters`, with `_row_filter_validation_error`. -/
def validatePolicyRowFilters (db : RoleTables) (policies : List (ConnectionPolicyItem × String)) :
    Except RoleError Unit :=
  if policies.all fun policy => policyFiltersAccepted env db policy.1.toPolicyValues policy.2 then
    .ok ()
  else .error (.http 422 "filter_validation_failed" "error.filterValidationFailed")

/-- `_connection_policy_values_changed`. -/
def valuesChanged (current requested : PolicyValues) : Bool :=
  !env.sameList current.allowedTables requested.allowedTables ||
    !env.sameList current.rowFilters requested.rowFilters ||
    !env.sameList current.columnMasks requested.columnMasks

/-- `_remove_obsolete_connection_policies`. -/
def obsoletePolicies (current : List ConnectionPolicyRow) (requested : List String) :
    List ConnectionPolicyRow :=
  current.filter fun p => !requested.contains p.connectionId

/-- `_apply_requested_connection_policies`, with what `_remove_obsolete_connection_policies`
found. -/
def requestedChanges (current : List ConnectionPolicyRow)
    (requested : List (ConnectionPolicyItem × String)) : PolicyChanges where
  removed := obsoletePolicies current (requested.map (·.2))
  changed := requested.filterMap fun policy =>
    (rowWith (·.connectionId) current policy.2).bind fun row =>
      if valuesChanged env row.values policy.1.toPolicyValues then
        some { row with values := policy.1.toPolicyValues }
      else none
  added := (requested.filter fun policy => (rowWith (·.connectionId) current policy.2).isNone).map
    fun policy => new.policy roleId policy.2 policy.1.toPolicyValues

/-- `_sync_role_connection_policies`: the policies of the role, and whether any changed. -/
def syncRoleConnectionPolicies (db : RoleTables) (policies : List ConnectionPolicyItem) :
    Except RoleError (RoleTables × List ConnectionPolicyRow × Bool) :=
  match parsePolicyConnectionIds env policies with
  | none => .error (.http 422 "validation" "error.validation.invalidConnection")
  | some parsedConnIds => do
    validatePolicyInput db parsedConnIds
    validatePolicyRowFilters env db (policies.zip parsedConnIds)
    let changes := requestedChanges env new roleId (db.roleConnectionPolicyRows roleId)
      (policies.zip parsedConnIds)
    let db ← changes.flush env.storable db
    return (db, db.roleConnectionPolicyRows roleId, changes.isChanged)

end Policies

/-! ## Roles -/

/-- The row of a role to be created. -/
def RoleCreate.row (body : RoleCreate) (roleId : String) : Role where
  id := roleId
  name := body.name
  description := body.description
  priority := body.priority
  permissions := body.permissions
  isBuiltin := false

section Roles
variable (env : RoleEnv) (new : NewRows) (actor : Option String) (db : RoleTables)

/-- The transaction of `create_role`. -/
def createRole (body : RoleCreate) : Except RoleError (RoleTables × RoleDetail) := do
  let role := body.row new.roleId
  let db ← RoleService.createRole db actor role
  let (db, policies, _) ← syncRoleConnectionPolicies env new role.id db body.connectionPolicies
  let (db, mappings) ← createRoleGroupMappings new actor role.id db body.groupMappings
  return (db, ⟨role, mappings, policies⟩)

/-- The policies of `update_role`: unchanged unless the request names them. -/
def updateConnectionPolicies (roleId : String) (policies : Option (List ConnectionPolicyItem)) :
    Except RoleError (RoleTables × List ConnectionPolicyRow × Bool) :=
  match policies with
  | none => .ok (db, db.roleConnectionPolicyRows roleId, false)
  | some policies => syncRoleConnectionPolicies env new roleId db policies

/-- The mappings of `update_role`: unchanged unless the request names them. -/
def updateGroupMappings (roleId : String) (groupMappings : Option (List String)) :
    Except RoleError (RoleTables × List (String × String)) :=
  match groupMappings with
  | none => .ok (db, (db.roleGroupMappingRows roleId).map fun m => (m.id, m.groupValue))
  | some requested => syncRoleGroupMappings new actor roleId db requested

/-- `_audit_role_update`, if a field was updated. -/
def auditRoleUpdate (roleId : String) (updatedFields : List String) : RoleTables :=
  if updatedFields = [] then db
  else db.log (roleEntry .roleUpdate actor roleId
    (.obj [("updated_fields", .arr (updatedFields.map .str))]))

/-- The transaction of `update_role`. -/
def updateRole (roleId : String) (body : RoleUpdate) :
    Except RoleError (RoleTables × RoleDetail) := do
  let (db, role, changedFields) ← RoleService.updateRole db roleId body.toRoleFields
  let (db, policies, policyChanged) ←
    updateConnectionPolicies env new db role.id body.connectionPolicies
  let db := auditRoleUpdate actor db role.id
    (changedFields ++ if policyChanged then ["connection_policies"] else [])
  let (db, mappings) ← updateGroupMappings new actor db role.id body.groupMappings
  return (db, ⟨role, mappings, policies⟩)

end Roles

/-! ## Group mappings -/

/-- `GroupMappingCreate`. -/
structure GroupMappingCreate where
  groupValue : String
  roleId : String

/-- The entry for a mapping that was created or deleted by itself. -/
def mappingEntry (actor : Option String) (mappingId groupValue roleId action : String) :
    LogRequest where
  action := .roleMappingChange
  actorIdentity := actor
  resourceType := some "sso_group_mapping"
  resourceId := some mappingId
  context := .obj [("sso_group_value", .str groupValue), ("role_id", .str roleId),
    ("action", .str action)]

section GroupMappings
variable (new : NewRows) (actor : Option String) (db : RoleTables)

/-- The transaction of `create_group_mapping`.  A text column refuses null characters. -/
def createGroupMapping (groupValue roleId : String) :
    Except RoleError (RoleTables × GroupMappingRow × String) :=
  if groupValue.toList.contains '\x00' then .error .internal
  else if (rowWith (·.groupValue) db.mappings groupValue).isSome then
    .error duplicateGroupMappingError
  else
    match db.getById roleId with
    | none => .error (.http 404 "not_found" "error.notFound")
    | some role =>
      if db.mappings.any (·.id = new.mappingId groupValue) then .error .internal
      else
        let mapping := new.mapping roleId groupValue
        .ok (({ db with mappings := db.mappings ++ [mapping] } : RoleTables).log
          (mappingEntry actor mapping.id groupValue roleId "create"), mapping, role.name)

/-- The transaction of `delete_group_mapping`; the entry has the id as it was given. -/
def deleteGroupMapping (mappingId : String) (mappingUuid : String) :
    Except RoleError RoleTables :=
  match rowWith (·.id) db.mappings mappingUuid with
  | none => .error (.http 404 "not_found" "error.notFound")
  | some mapping =>
    .ok (({ db with mappings := db.mappings.filter (·.id ≠ mappingUuid) } : RoleTables).log
      (mappingEntry actor mappingId mapping.groupValue mapping.roleId "delete"))

end GroupMappings

/-! ## Replies -/

/-- The replies to exceptions that all endpoints have. -/
def refusal : RoleError → RoleReply
  | .builtinProtected _ => .refused 403 "forbidden" "error.builtinRoleProtected"
  | .duplicateName => .refused 409 "conflict" "error.conflict.duplicateName"
  | .duplicatePriority => .refused 409 "conflict" "error.conflict.duplicatePriority"
  | .notFound => .refused 404 "not_found" "error.notFound"
  | .invalidPermissions => .refused 422 "validation" "error.validation.generic"
  | .http status error messageKey => .refused status error messageKey
  | .internal => .refused 500 "internal" "error.internal"

/-- The handlers of `create_role`. -/
def createRoleRefusal : RoleError → RoleReply
  | .invalidPermissions => .refused 404 "not_found" "error.notFound"
  | error => refusal error

/-- The handlers of `delete_role`. -/
def deleteRoleRefusal : RoleError → RoleReply
  | .duplicateName | .duplicatePriority => .refused 422 "validation" "error.validation.generic"
  | error => refusal error

/-- The reply for an id that is no UUID. -/
def unknownId : RoleReply := .refused 404 "not_found" "error.notFound"

/-- The reply of `_validate_permissions`. -/
def invalidPermissionsReply : RoleReply :=
  .refused 422 "validation" "error.validation.invalidPermissions"

/-- The calls. -/
inductive RoleCall where
  | createRole (body : RoleCreate)
  | updateRole (roleId : String) (body : RoleUpdate)
  | deleteRole (roleId : String)
  | createGroupMapping (body : GroupMappingCreate)
  | deleteGroupMapping (mappingId : String)

namespace RoleCall
variable (env : RoleEnv) (new : NewRows) (actor : Option String) (db : RoleTables)

/-- An endpoint: the reply, and the tables that are committed. -/
def run : RoleCall → RoleReply × RoleTables
  | createRole body =>
    if !permissionsAllowed body.permissions then (invalidPermissionsReply, db)
    else
      match QueryCraft.createRole env new actor db body with
      | .ok (db', detail) => (.detail 201 detail, db')
      | .error e => (createRoleRefusal e, db)
  | updateRole roleId body =>
    if !body.permissions.all permissionsAllowed then (invalidPermissionsReply, db)
    else
      match env.parseUuid roleId with
      | none => (unknownId, db)
      | some roleUuid =>
        match QueryCraft.updateRole env new actor db roleUuid body with
        | .ok (db', detail) => (.detail 200 detail, db')
        | .error (.builtinProtected pending) =>
          (refusal (.builtinProtected pending), pending.log (builtinProtectedEntry actor roleId))
        | .error e => (refusal e, db)
  | deleteRole roleId =>
    match env.parseUuid roleId with
    | none => (unknownId, db)
    | some roleUuid =>
      match RoleService.deleteRole db actor roleUuid with
      | .ok db' => (.deleted, db')
      | .error (.builtinProtected pending) => (refusal (.builtinProtected pending), pending)
      | .error e => (deleteRoleRefusal e, db)
  | createGroupMapping body =>
    match env.parseUuid body.roleId with
    | none => (unknownId, db)
    | some roleUuid =>
      match QueryCraft.createGroupMapping new actor db body.groupValue roleUuid with
      | .ok (db', mapping, roleName) => (.mapping mapping roleName, db')
      | .error e => (refusal e, db)
  | deleteGroupMapping mappingId =>
    match env.parseUuid mappingId with
    | none => (unknownId, db)
    | some mappingUuid =>
      match QueryCraft.deleteGroupMapping actor db mappingId mappingUuid with
      | .ok db' => (.deleted, db')
      | .error e => (refusal e, db)

/-- The HTTP method. -/
def method : RoleCall → String
  | createRole _ | createGroupMapping _ => "POST"
  | updateRole _ _ => "PUT"
  | deleteRole _ | deleteGroupMapping _ => "DELETE"

end RoleCall

end QueryCraft
