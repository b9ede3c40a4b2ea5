import QueryCraft.RoleRequests
import QueryCraft.SqlText

/-! # Access to role administration

Every request passes `require_permission`: it reads the role that the user has in the database
now, not the one of the session, and refuses the request unless the role has the permission.
A refusal is committed with an entry of the audit log.

What else changes the tables are logins, which create users and assign roles to them, and the
administration of connections, which is not modelled: connections and their schema entries may
change in any way, and the foreign key deletes the policies of a connection that goes.  The start
of the application, which restores the administrator, is no step of a run.
-/
namespace QueryCraft

/-! ## `require_permission` -/

/-- `get_current_role`. -/
def RoleTables.getCurrentRole (db : RoleTables) (parseUuid : String → Option String)
    (session : Option SessionRecord) : Option Role :=
  session.bind fun s => (parseUuid s.userId).bind fun userId =>
    (rowWith (·.id) db.users userId).bind fun user => user.roleId.bind db.getById

/-- The entry of `_audit_access_denied`. -/
def accessDeniedEntry (session : Option SessionRecord) (reason requestMethod : String)
    (required : List Permission) : LogRequest where
  action := .accessDenied
  actorIdentity := (session.map (·.username)).filter fun username =>
    !username.toList.all isSpace
  resourceType := some "authorization"
  outcome := "denied"
  context := .obj [("reason", .str reason), ("request_method", .str requestMethod),
    ("required_permissions",
      .arr (((required.map (·.value)).insertionSort (· ≤ ·)).map .str))]

/-- `deny`: the status, the error and the reason of a refusal. -/
def denial (session : Option SessionRecord) (currentRole : Option Role)
    (required : List Permission) : Option (Nat × String × String) :=
  match session, currentRole with
  | none, _ => some (401, "unauthorized", "unauthenticated")
  | some _, none => some (403, "forbidden", "unmapped_role")
  | some _, some role =>
    if required.any fun p => role.permissions.contains p.value then none
    else some (403, "forbidden", "missing_permission")

/-- `require_permission`: what happens to a request that it refuses. -/
def requirePermission (parseUuid : String → Option String) (db : RoleTables)
    (required : List Permission) (requestMethod : String) (session : Option SessionRecord) :
    Option (RoleReply × RoleTables) :=
  (denial session (db.getCurrentRole parseUuid session) required).map fun (status, error, reason) =>
    (.refused status error ("error." ++ error),
      db.log (accessDeniedEntry session reason requestMethod required))

/-! ## Requests -/

/-- A request: the session of the middleware, the call, and what the database chooses. -/
structure RoleRequest where
  session : Option SessionRecord
  call : RoleCall
  new : NewRows

/-- A request is refused by `require_permission` or served. -/
def RoleRequest.perform (env : RoleEnv) (db : RoleTables) (r : RoleRequest) :
    RoleReply × RoleTables :=
  (requirePermission env.parseUuid db [.adminRolesManage] r.call.method r.session).getD
    (r.call.run env r.new (r.session.map (·.username)) db)

/-! ## Steps -/

/-- The tables as login sees them. -/
def RoleTables.loginHistory (db : RoleTables) : LoginHistory where
  tables := db.policyTables
  roles := db.roles.map fun r => ⟨r.id, r.name, r.priority⟩
  mappings := db.mappings.map fun m => ⟨m.groupValue, m.roleId⟩
  logins := []

/-- `_resolve_role_and_create_session`, on the tables; a login that fails is rolled back. -/
def RoleTables.login (db : RoleTables) (login : SsoLogin) (newId : String) : RoleTables :=
  match db.loginHistory.resolveRoleAndCreateSession login newId with
  | none => db
  | some s => { db with users := s.tables.users, identities := s.tables.identities }

/-- Other connections and schema entries; the policies of connections that are gone go too. -/
def RoleTables.setConnections (db : RoleTables) (connections : List SourceConnection)
    (schemaEntries : List ConnectionSchemaEntry) : RoleTables :=
  { db with
    connections, schemaEntries
    policies := db.policies.filter fun p => connections.any (·.id = p.connectionId) }

/-- What happens to the tables. -/
inductive RoleStep where
  | request (r : RoleRequest)
  | login (login : SsoLogin) (newId : String)
  | connections (connections : List SourceConnection) (schemaEntries : List ConnectionSchemaEntry)

/-- One step, with the reply to a request. -/
def RoleTables.perform (env : RoleEnv) (db : RoleTables) : RoleStep → Option RoleReply × RoleTables
  | .request r => ((r.perform env db).1, (r.perform env db).2)
  | .login login newId => (none, db.login login newId)
  | .connections connections schemaEntries => (none, db.setConnections connections schemaEntries)

/-- The replies to a list of steps, and the tables after them. -/
def RoleTables.after (env : RoleEnv) (db : RoleTables) (steps : List RoleStep) :
    List (Option RoleReply) × RoleTables :=
  transcript (RoleTables.perform env) db steps

end QueryCraft
