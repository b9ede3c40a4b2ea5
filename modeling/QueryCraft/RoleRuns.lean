import QueryCraft.RoleOutcomes

/-! # Runs of role administration

Requests, logins and changes of the connections, in any order, from tables that meet their
constraints.  After every run

* the tables meet the constraints again, and the grants are those that a replay of the served
  requests leads to (`administration_replayed`); a login and the policy provider read their
  answers off these grants (`login_role_replayed`, `policy_replayed`);
* a user with a built-in role has kept it, with its permissions (`builtin_role_kept`);
* whatever else has changed has an entry of the audit log (`changes_logged`);
* the filters that the provider serves have been accepted for their connection
  (`policy_filters_accepted`).
-/
namespace QueryCraft

variable {env : RoleEnv} {db db' : RoleTables}

/-! ## Logins -/

section Login
variable {login : SsoLogin} {newId : String}

/-- What a login does: nothing, or it creates a user, or it updates the one it names. -/
inductive LoggedIn (db : RoleTables) (login : SsoLogin) (newId : String) : RoleTables → Prop where
  | refused : LoggedIn db login newId db
  | created (role : LoginRole)
      (hrole : db.loginHistory.resolveRoleFromGroups login.groups = some role)
      (hid : ∀ u ∈ db.users, u.id ≠ newId) :
      LoggedIn db login newId
        { db with
          users := db.users ++
            [{ id := newId, username := login.username, role := LoginHistory.defaultRole
               roleId := some role.id }]
          identities := db.identities ++
            [{ userId := newId, provider := login.authProvider, subjectId := login.subjectId
               email := some login.email }] }
  | updated (role : LoginRole) (identity : IdentityRow)
      (hrole : db.loginHistory.resolveRoleFromGroups login.groups = some role)
      (hidentity : identity ∈ db.identities) (hnames : login.names identity = true) :
      LoggedIn db login newId
        { db with
          users := db.users.map (LoginHistory.setRoleId identity role)
          identities := db.identities.map (LoginHistory.setEmail login) }

theorem loggedIn (db : RoleTables) (login : SsoLogin) (newId : String) :
    LoggedIn db login newId (db.login login newId) := by
  rw [RoleTables.login]
  cases hsession : db.loginHistory.resolveRoleAndCreateSession login newId with
  | none => exact .refused
  | some s =>
    rw [LoginHistory.resolveRoleAndCreateSession] at hsession
    cases hrole : db.loginHistory.resolveRoleFromGroups login.groups with
    | none =>
      rw [hrole] at hsession
      cases hsession
    | some role =>
      rw [hrole] at hsession
      dsimp only at hsession
      split at hsession
      · rw [LoginHistory.createUser] at hsession
        split at hsession
        · cases hsession
        rename_i hfree
        obtain rfl := Option.some.inj hsession
        refine .created role hrole fun u hu heq => hfree (.inr ?_)
        exact List.any_eq_true.mpr ⟨u, hu, decide_eq_true heq⟩
      · rename_i identity hfound
        obtain rfl := Option.some.inj hsession
        have hmem : identity ∈ db.identities.filter login.names :=
          hfound ▸ List.mem_singleton_self identity
        exact .updated role identity hrole (List.mem_of_mem_filter hmem)
          (List.mem_filter.mp hmem).2
      · cases hsession

/-- The roles that the groups are mapped to. -/
theorem mem_mappedRoles {groups : List String} {role : LoginRole} :
    role ∈ ((db.loginHistory.mappings.filter (groups.contains ·.groupValue)).flatMap fun m =>
        db.loginHistory.roles.filter (·.id = m.roleId)) ↔
      ∃ m ∈ db.mappings, m.groupValue ∈ groups ∧ ∃ r ∈ db.roles, r.id = m.roleId ∧
        role = ⟨r.id, r.name, r.priority⟩ := by
  simp only [RoleTables.loginHistory, List.mem_flatMap, List.mem_filter, List.mem_map,
    List.contains_eq_mem, decide_eq_true_eq]
  constructor
  · rintro ⟨_, ⟨⟨m, hm, rfl⟩, hgroup⟩, ⟨r, hr, rfl⟩, hid⟩
    exact ⟨m, hm, hgroup, r, hr, hid, rfl⟩
  · rintro ⟨m, hm, hgroup, r, hr, hid, rfl⟩
    exact ⟨_, ⟨⟨m, hm, rfl⟩, hgroup⟩, ⟨r, hr, rfl⟩, hid⟩

/-- The first of some roles is one of them, and has the least priority. -/
theorem foldl_firstRole (roles : List LoginRole) (role : LoginRole) :
    roles.foldl LoginHistory.firstRole role ∈ role :: roles ∧
      ∀ r ∈ role :: roles, (roles.foldl LoginHistory.firstRole role).priority ≤ r.priority := by
  induction roles generalizing role with
  | nil => exact ⟨List.mem_cons_self, fun r hr => (List.mem_singleton.mp hr) ▸ le_rfl⟩
  | cons next roles ih =>
    obtain ⟨hmem, hle⟩ := ih (LoginHistory.firstRole role next)
    rw [List.foldl_cons]
    have hfirst : LoginHistory.firstRole role next ∈ [role, next] ∧
        ∀ r ∈ [role, next], (LoginHistory.firstRole role next).priority ≤ r.priority := by
      rw [LoginHistory.firstRole]
      split
      · rename_i h
        refine ⟨by simp, fun r hr => ?_⟩
        rcases List.mem_pair.mp hr with rfl | rfl
        · exact le_rfl
        · omega
      · rename_i h
        refine ⟨by simp, fun r hr => ?_⟩
        rcases List.mem_pair.mp hr with rfl | rfl
        · omega
        · exact le_rfl
    constructor
    · rcases List.mem_cons.mp hmem with heq | hmem
      · rw [heq]
        rcases List.mem_pair.mp hfirst.1 with h | h
        · rw [h]
          exact List.mem_cons_self
        · rw [h]
          exact List.mem_cons_of_mem _ List.mem_cons_self
      · exact List.mem_cons_of_mem _ (List.mem_cons_of_mem _ hmem)
    · intro r hr
      have hnext := hle _ List.mem_cons_self
      rcases List.mem_cons.mp hr with rfl | hr
      · exact hnext.trans (hfirst.2 _ (by simp))
      rcases List.mem_cons.mp hr with rfl | hr
      · exact hnext.trans (hfirst.2 _ (by simp))
      · exact hle r (List.mem_cons_of_mem _ hr)

/-- A role that a login is given is mapped to one of its groups, and no other has a smaller
priority. -/
theorem mapped_of_resolve {groups : List String} {role : LoginRole}
    (h : db.loginHistory.resolveRoleFromGroups groups = some role) :
    (∃ m ∈ db.mappings, m.groupValue ∈ groups ∧ ∃ r ∈ db.roles, r.id = m.roleId ∧
        role = ⟨r.id, r.name, r.priority⟩) ∧
      ∀ m ∈ db.mappings, m.groupValue ∈ groups → ∀ r ∈ db.roles, r.id = m.roleId →
        role.priority ≤ r.priority := by
  rw [LoginHistory.resolveRoleFromGroups] at h
  split at h
  · cases h
  rename_i first roles hroles
  obtain rfl := Option.some.inj h
  obtain ⟨hmem, hle⟩ := foldl_firstRole roles first
  rw [← hroles] at hmem hle
  exact ⟨mem_mappedRoles.mp hmem, fun m hm hgroup r hr hid =>
    hle _ (mem_mappedRoles.mpr ⟨m, hm, hgroup, r, hr, hid, rfl⟩)⟩

theorem LoggedIn.consistent (h : LoggedIn db login newId db') (hdb : db.Consistent) :
    db'.Consistent := by
  cases h with
  | refused => exact hdb
  | created role hrole hid =>
    obtain ⟨⟨m, hm, -, r, hr, hroleId, rfl⟩, -⟩ := mapped_of_resolve hrole
    refine { hdb with userId := hdb.userId.concat hid, userRole := fun u hu id huser => ?_ }
    rcases List.mem_append.mp hu with hu | hu
    · exact hdb.userRole u hu id huser
    · rw [List.mem_singleton.mp hu] at huser
      exact ⟨r, hr, Option.some.inj huser⟩
  | updated role identity hrole hidentity hnames =>
    obtain ⟨⟨m, hm, -, r, hr, hroleId, rfl⟩, -⟩ := mapped_of_resolve hrole
    refine { hdb with
      userId := hdb.userId.map fun u _ => LoginHistory.setRoleId_id identity _ u
      userRole := fun u hu id huser => ?_ }
    obtain ⟨v, hv, rfl⟩ := List.mem_map.mp hu
    rw [LoginHistory.setRoleId] at huser
    split at huser
    · exact ⟨r, hr, Option.some.inj huser⟩
    · exact hdb.userRole v hv id huser

/-- A login touches nothing but users and identities. -/
theorem LoggedIn.frame (h : LoggedIn db login newId db') :
    db' = { db with users := db'.users, identities := db'.identities } := by
  cases h with
  | refused => rfl
  | created => rfl
  | updated => rfl

theorem LoggedIn.same (h : LoggedIn db login newId db') :
    db'.mappings = db.mappings ∧ db'.policies = db.policies ∧ db'.audit = db.audit := by
  rw [h.frame]
  exact ⟨rfl, rfl, rfl⟩

end Login

/-! ## Steps -/

section Step
variable {connections : List SourceConnection} {schemaEntries : List ConnectionSchemaEntry}

theorem consistent_setConnections (h : db.Consistent) :
    (db.setConnections connections schemaEntries).Consistent where
  roleId := h.roleId
  roleName := h.roleName
  rolePriority := h.rolePriority
  mappingId := h.mappingId
  groupValue := h.groupValue
  policyId := h.policyId.filter _
  policyKey := h.policyKey.filter _
  mappingRole := h.mappingRole
  policyRole p hp := h.policyRole p (List.mem_of_mem_filter hp)
  policyConnection p hp := by
    obtain ⟨c, hc, heq⟩ := List.any_eq_true.mp (List.mem_filter.mp hp).2
    exact ⟨c, hc, of_decide_eq_true heq⟩
  userId := h.userId
  userRole := h.userRole
  permissions := h.permissions
  fits := h.fits

theorem grants_setConnections (h : db.Consistent) :
    (db.setConnections connections schemaEntries).grants = db.grants.onConnections connections := by
  refine Grants.ext rfl rfl (funext fun roleId => funext fun connectionId => ?_)
  show rowWith (fun p : ConnectionPolicyRow => p.key) (db.policies.filter _)
      (roleId, connectionId) =
    if connections.any (·.id = connectionId) then
      rowWith (fun p : ConnectionPolicyRow => p.key) db.policies (roleId, connectionId) else none
  rw [rowWith_filter h.policyKey]
  cases hpolicy : rowWith (fun p : ConnectionPolicyRow => p.key) db.policies
      (roleId, connectionId) with
  | none => exact (ite_self none).symm
  | some p =>
    have hconnection : p.connectionId = connectionId :=
      (Prod.ext_iff.mp (mem_of_rowWith hpolicy).2).2
    rw [Option.filter_some, hconnection]

theorem LoggedIn.grants {login : SsoLogin} {newId : String} (h : LoggedIn db login newId db') :
    db'.grants = db.grants := by
  rw [h.frame]
  rfl

theorem consistent_perform (h : db.Consistent) (step : RoleStep) :
    (db.perform env step).2.Consistent := by
  cases step with
  | request r =>
    show (r.perform env db).2.Consistent
    rcases r.perform_outcome h with ⟨-, hrefused⟩ | ⟨-, hserved⟩
    · exact hrefused.consistent h
    · exact hserved.served.consistent
  | login login newId => exact (loggedIn db login newId).consistent h
  | connections connections schemaEntries => exact consistent_setConnections h

end Step

/-- Every run leaves tables that meet their constraints. -/
theorem consistent_after (h : db.Consistent) (steps : List RoleStep) :
    (db.after env steps).2.Consistent :=
  transcript_invariant (I := RoleTables.Consistent) (P := fun _ => True)
    (fun _ step hdb _ => consistent_perform hdb step) steps h fun _ _ => trivial

/-! ## A first day -/

/-- Ids are canonical texts, and the only filter that parses is the one by role.  No two policies
with grants are compared. -/
def firstEnv : RoleEnv where
  parseUuid s := if isCanonicalUuid s then some s else none
  lower := lowerAscii
  parse := parseRoleFilter
  sameList a b := a.isEmpty && b.isEmpty
  storable _ := true

/-- The ids that differ in their last two digits. -/
def idEnding (digits : String) : String := "00000000-0000-4000-8000-0000000000" ++ digits

/-- The role of administrators. -/
def adminRole : Role :=
  ⟨idEnding "a1", "Admin", none, 0,
    [Permission.adminRolesManage.value, Permission.querySubmit.value], true⟩

/-- One administrator, and one connection. -/
def firstTables : RoleTables where
  roles := [adminRole]
  mappings := []
  policies := []
  users := [⟨idEnding "b1", "admin", "admin", some (idEnding "a1")⟩]
  identities := []
  connections := [⟨idEnding "c1", .postgresql⟩]
  schemaEntries := [⟨idEnding "c1", "orders", "id"⟩, ⟨idEnding "c1", "orders", "region"⟩]
  audit := []

/-- A session. -/
def sessionOf (userId username roleName : String) : SessionRecord :=
  ⟨userId, username, username, "admin", none, some roleName, [], .local, username, none, ⟨0, 0⟩,
    ⟨0, 0⟩, none⟩

/-- The session of the administrator. -/
def adminSession : SessionRecord := sessionOf (idEnding "b1") "admin" "Admin"

/-- A role for a group, which sees the orders of its region. -/
def analystCreate : RoleCreate where
  name := "Analyst"
  description := none
  priority := 10
  permissions := [Permission.querySubmit.value]
  groupMappings := ["analysts"]
  connectionPolicies :=
    [{ allowedTables := [.obj [("table", .str "orders"), ("columns", .arr [])]]
       rowFilters := [.obj [("table", .str "orders"), ("filter", .str (String.ofList roleFilter))]]
       columnMasks := []
       connectionId := idEnding "c1" }]
  name_valid := by decide
  description_valid := rfl
  priority_valid := by decide
  groupMappings_valid := List.nodup_singleton _

/-- Rows for a request, which needs one of each kind at most. -/
def newRows (digit : String) : NewRows where
  now := 0
  roleId := idEnding ("a" ++ digit)
  policyId _ := idEnding ("d" ++ digit)
  mappingId _ := idEnding ("e" ++ digit)

/-- An administrator creates a role, an analyst logs in and tries to delete the role of
administrators, which not even the administrator can. -/
def firstDay : List RoleStep :=
  [.request ⟨some adminSession, .createRole analystCreate, newRows "2"⟩,
    .login ⟨"oidc", "s-2", "ann@example.com", ["analysts"]⟩ (idEnding "b2"),
    .request ⟨some (sessionOf (idEnding "b2") "ann@example.com" "Analyst"),
      .deleteRole (idEnding "a1"), newRows "3"⟩,
    .request ⟨some adminSession, .deleteRole (idEnding "a1"), newRows "4"⟩]

theorem consistent_firstTables : firstTables.Consistent where
  roleId := List.nodup_singleton _
  roleName := List.nodup_singleton _
  rolePriority := List.nodup_singleton _
  mappingId := List.nodup_nil
  groupValue := List.nodup_nil
  policyId := List.nodup_nil
  policyKey := List.nodup_nil
  mappingRole _ h := nomatch h
  policyRole _ h := nomatch h
  policyConnection _ h := nomatch h
  userId := List.nodup_singleton _
  userRole u hu id hid := by
    rw [List.mem_singleton.mp hu] at hid
    exact ⟨adminRole, List.mem_singleton_self _, Option.some.inj hid⟩
  permissions r hr := by
    rw [List.mem_singleton.mp hr]
    decide
  fits r hr := by
    rw [List.mem_singleton.mp hr]
    exact ⟨by decide, fun _ h => (nomatch h), by decide⟩

example : (firstTables.after firstEnv firstDay).1.map (·.map (·.isRefused)) =
    [some false, none, some true, some true] := by decide +kernel

/-! ## Replay -/

/-- A step with its reply, on the grants: a request that is refused changes nothing. -/
def Grants.step (env : RoleEnv) (g : Grants) : RoleStep × Option RoleReply → Grants
  | (.request r, reply) => if reply.any (·.isRefused) then g else r.call.apply env r.new g
  | (.login _ _, _) => g
  | (.connections connections _, _) => g.onConnections connections

/-- The steps with their replies. -/
def RoleTables.history (env : RoleEnv) (db : RoleTables) (steps : List RoleStep) :
    List (RoleStep × Option RoleReply) :=
  steps.zip (db.after env steps).1

/-- The grants after the steps. -/
def Grants.replay (env : RoleEnv) (g : Grants) (history : List (RoleStep × Option RoleReply)) :
    Grants :=
  history.foldl (Grants.step env) g

theorem grants_perform (h : db.Consistent) (step : RoleStep) :
    (db.perform env step).2.grants = db.grants.step env (step, (db.perform env step).1) := by
  cases step with
  | request r =>
    show (r.perform env db).2.grants =
      if (r.perform env db).1.isRefused = true then db.grants else r.call.apply env r.new db.grants
    rcases r.perform_outcome h with ⟨hreply, hrefused⟩ | ⟨hreply, hserved⟩
    · rw [if_pos hreply]
      exact hrefused.grants
    · rw [if_neg (by rw [hreply]; exact Bool.false_ne_true)]
      exact hserved.grants
  | login login newId => exact (loggedIn db login newId).grants
  | connections connections schemaEntries => exact grants_setConnections h

theorem grants_after (h : db.Consistent) (steps : List RoleStep) :
    (db.after env steps).2.grants = db.grants.replay env (db.history env steps) := by
  induction steps generalizing db with
  | nil => rfl
  | cons step steps ih =>
    show ((db.perform env step).2.after env steps).2.grants =
      (db.grants.step env (step, (db.perform env step).1)).replay env
        ((db.perform env step).2.history env steps)
    rw [ih (consistent_perform h step), grants_perform h step]

/-- **After every run the tables meet their constraints, and the grants are those that the
replies account for.** Each request that was not refused has done to the grants what it says, and
nothing else has changed them. -/
theorem administration_replayed (h : db.Consistent) (steps : List RoleStep) :
    (db.after env steps).2.Consistent ∧
      (db.after env steps).2.grants = db.grants.replay env (db.history env steps) :=
  ⟨consistent_after h steps, grants_after h steps⟩

theorem administration_replayed_firstDay :
    (firstTables.after firstEnv firstDay).2.Consistent ∧
      (firstTables.after firstEnv firstDay).2.grants =
        firstTables.grants.replay firstEnv (firstTables.history firstEnv firstDay) :=
  administration_replayed consistent_firstTables firstDay

/-! ## What is read off the grants -/

namespace Grants
variable (g : Grants)

/-- A group is mapped to the role. -/
def Maps (groups : List String) (r : Role) : Prop :=
  ∃ v ∈ groups, ∃ m, g.group v = some m ∧ g.role m.roleId = some r

/-- The role that the groups lead to: of those they are mapped to, the one with the smallest
priority. -/
def Assigns (groups : List String) (r : Role) : Prop :=
  g.Maps groups r ∧ ∀ r', g.Maps groups r' → r' ≠ r → r.priority < r'.priority

/-- The policy of a user with a role. -/
def policyFor (userContext : UserContext String) (userId roleId connectionId : String) :
    RolePolicy :=
  (g.policy roleId connectionId).elim (denyAllPolicy userId) fun p =>
    { userId, roleId, connectionId, userContext
      allowedTables := p.values.allowedTables
      rowFilters := p.values.rowFilters.map rowFilterEntry
      columnMasks := p.values.columnMasks }

end Grants

theorem maps_iff (h : db.Consistent) {groups : List String} {r : Role} :
    db.grants.Maps groups r ↔
      ∃ m ∈ db.mappings, m.groupValue ∈ groups ∧ r ∈ db.roles ∧ r.id = m.roleId := by
  constructor
  · rintro ⟨v, hv, m, hm, hr⟩
    obtain ⟨hmapping, rfl⟩ := mem_of_rowWith hm
    obtain ⟨hrole, hid⟩ := mem_of_rowWith hr
    exact ⟨m, hmapping, hv, hrole, hid⟩
  · rintro ⟨m, hm, hv, hr, hid⟩
    exact ⟨m.groupValue, hv, m, (rowWith_eq_some h.groupValue).mpr ⟨hm, rfl⟩,
      (rowWith_eq_some h.roleId).mpr ⟨hr, hid⟩⟩

theorem assigns_iff (h : db.Consistent) {groups : List String} {role : LoginRole} :
    db.loginHistory.resolveRoleFromGroups groups = some role ↔
      ∃ r, db.grants.Assigns groups r ∧ role = ⟨r.id, r.name, r.priority⟩ := by
  have hassigns : ∀ {role : LoginRole},
      db.loginHistory.resolveRoleFromGroups groups = some role →
        ∃ r, db.grants.Assigns groups r ∧ role = ⟨r.id, r.name, r.priority⟩ := by
    intro role hrole
    obtain ⟨⟨m, hm, hgroup, r, hr, hid, rfl⟩, hle⟩ := mapped_of_resolve hrole
    refine ⟨r, ⟨(maps_iff h).mpr ⟨m, hm, hgroup, hr, hid⟩, fun r' hr' hne => ?_⟩, rfl⟩
    obtain ⟨m', hm', hgroup', hmem, hid'⟩ := (maps_iff h).mp hr'
    refine lt_of_le_of_ne (hle m' hm' hgroup' r' hmem hid') fun heq => hne ?_
    exact h.rolePriority.eq hmem hr heq.symm
  refine ⟨hassigns, ?_⟩
  rintro ⟨r, ⟨hmaps, hleast⟩, rfl⟩
  cases hrole : db.loginHistory.resolveRoleFromGroups groups with
  | some role =>
    obtain ⟨r', ⟨hmaps', hleast'⟩, rfl⟩ := hassigns hrole
    by_cases heq : r' = r
    · rw [heq]
    · exact absurd (hleast r' hmaps' heq) (hleast' r hmaps (Ne.symm heq)).asymm
  | none =>
    obtain ⟨m, hm, hgroup, hmem, hid⟩ := (maps_iff h).mp hmaps
    have hmapped := mem_mappedRoles.mpr ⟨m, hm, hgroup, r, hmem, hid, rfl⟩
    rw [LoginHistory.resolveRoleFromGroups] at hrole
    split at hrole
    · rename_i hnil
      rw [hnil] at hmapped
      cases hmapped
    · cases hrole

/-- **After every run a login is assigned the role that the replay leads to**: of the roles that
its groups are mapped to, the one whose priority is smaller than that of all others, whatever
the order of the groups and the rows. -/
theorem login_role_replayed (h : db.Consistent) (steps : List RoleStep) (groups : List String)
    (role : LoginRole) :
    (db.after env steps).2.loginHistory.resolveRoleFromGroups groups = some role ↔
      ∃ r, (db.grants.replay env (db.history env steps)).Assigns groups r ∧
        role = ⟨r.id, r.name, r.priority⟩ := by
  rw [← grants_after h]
  exact assigns_iff (consistent_after h steps)

theorem login_role_replayed_firstDay :
    (firstTables.after firstEnv firstDay).2.loginHistory.resolveRoleFromGroups ["analysts"] =
        some ⟨idEnding "a2", "Analyst", 10⟩ ↔
      ∃ r, (firstTables.grants.replay firstEnv (firstTables.history firstEnv firstDay)).Assigns
          ["analysts"] r ∧
        (⟨idEnding "a2", "Analyst", 10⟩ : LoginRole) = ⟨r.id, r.name, r.priority⟩ :=
  login_role_replayed consistent_firstTables firstDay ["analysts"] _

theorem policyTables_users (db : RoleTables) : db.policyTables.users = db.users := rfl

theorem policies_filter (h : db.Consistent) (roleId connectionId : String) :
    db.policyTables.policies.filter
        (fun p => p.roleId = roleId ∧ p.connectionId = connectionId) =
      ((db.grants.policy roleId connectionId).map (·.toPolicyRow)).toList := by
  have hfilter : db.policies.filter (fun p => p.key = (roleId, connectionId)) =
      (db.grants.policy roleId connectionId).toList := filter_key h.policyKey
  rw [Option.toList_map, ← hfilter, RoleTables.policyTables, List.filter_map]
  refine congrArg _ (List.filter_congr fun p _ => ?_)
  rw [Function.comp_apply, decide_eq_decide, ConnectionPolicyRow.key, Prod.mk.injEq]
  rfl

theorem policyFor_iff (h : db.Consistent) (userId connectionId : String) :
    rolePolicyProvider db.policyTables false userId connectionId =
      (rowWith (·.id) db.users userId).bind fun user => user.roleId.map fun roleId =>
        db.grants.policyFor (userContextOf user (db.identities.find? (·.userId = userId))) userId
          roleId connectionId := by
  have husers : db.users.filter (fun u => u.id = userId) =
      (rowWith (·.id) db.users userId).toList := filter_key h.userId
  rw [rolePolicyProvider, if_neg Bool.false_ne_true, policyTables_users, husers]
  cases rowWith (·.id) db.users userId with
  | none => rfl
  | some user =>
    cases hrole : user.roleId with
    | none => simp [hrole]
    | some roleId =>
      simp only [Option.toList_some, hrole, policies_filter h, Option.bind_some, Option.map_some]
      rw [Grants.policyFor]
      cases db.grants.policy roleId connectionId with
      | none => rfl
      | some p => rfl

/-- **After every run the policy provider serves the policy that the replay leads to**: for a
user with a role, the policy of the role for the connection, and one that denies everything if
there is none. -/
theorem policy_replayed (h : db.Consistent) (steps : List RoleStep) (userId connectionId : String) :
    rolePolicyProvider (db.after env steps).2.policyTables false userId connectionId =
      (rowWith (·.id) (db.after env steps).2.users userId).bind fun user =>
        user.roleId.map fun roleId =>
          (db.grants.replay env (db.history env steps)).policyFor
            (userContextOf user ((db.after env steps).2.identities.find? (·.userId = userId)))
            userId roleId connectionId := by
  rw [← grants_after h]
  exact policyFor_iff (consistent_after h steps) userId connectionId

theorem policy_replayed_firstDay :
    rolePolicyProvider (firstTables.after firstEnv firstDay).2.policyTables false (idEnding "b2")
        (idEnding "c1") =
      (rowWith (·.id) (firstTables.after firstEnv firstDay).2.users (idEnding "b2")).bind
        fun user =>
        user.roleId.map fun roleId =>
          (firstTables.grants.replay firstEnv (firstTables.history firstEnv firstDay)).policyFor
            (userContextOf user
              ((firstTables.after firstEnv firstDay).2.identities.find?
                (·.userId = idEnding "b2")))
            (idEnding "b2") roleId (idEnding "c1") :=
  policy_replayed consistent_firstTables firstDay (idEnding "b2") (idEnding "c1")

/-! ## Built-in roles -/

section Builtin
variable {u : PolicyUser} {role : Role} {identities : List IdentityRow}

/-- The step is a login of the user, by one of the identities. -/
def RoleStep.IsLoginOf (identities : List IdentityRow) (userId : String) : RoleStep → Prop
  | .login l _ => ∃ i ∈ identities, i.userId = userId ∧ l.names i = true
  | _ => False

/-- The user and the role are kept, and the user has no other identities. -/
structure Kept (u : PolicyUser) (role : Role) (identities : List IdentityRow) (db : RoleTables) :
    Prop where
  consistent : db.Consistent
  user : u ∈ db.users
  role : ∃ r ∈ db.roles, role.SameProtected r
  identities : ∀ i ∈ db.identities, i.userId = u.id →
    ∃ j ∈ identities, j.userId = u.id ∧ j.provider = i.provider ∧ j.subjectId = i.subjectId

theorem setEmail_names (login : SsoLogin) (i : IdentityRow) :
    (LoginHistory.setEmail login i).provider = i.provider ∧
      (LoginHistory.setEmail login i).subjectId = i.subjectId := by
  rw [LoginHistory.setEmail]
  split
  · exact ⟨rfl, rfl⟩
  · exact ⟨rfl, rfl⟩

theorem Kept.loggedIn {login : SsoLogin} {newId : String} (h : Kept u role identities db)
    (hlogin : ¬ (RoleStep.login login newId).IsLoginOf identities u.id)
    (hdb' : LoggedIn db login newId db') : Kept u role identities db' := by
  have hconsistent := hdb'.consistent h.consistent
  cases hdb' with
  | refused => exact h
  | created newRole hrole hid =>
    refine ⟨hconsistent, List.mem_append_left _ h.user, h.role, fun i hi huser => ?_⟩
    rcases List.mem_append.mp hi with hi | hi
    · exact h.identities i hi huser
    · rw [List.mem_singleton.mp hi] at huser
      exact absurd huser.symm (hid u h.user)
  | updated newRole identity hrole hidentity hnames =>
    have hother : u.id ≠ identity.userId := by
      intro heq
      obtain ⟨j, hj, huser, hprovider, hsubject⟩ := h.identities identity hidentity heq.symm
      refine hlogin ⟨j, hj, huser, ?_⟩
      rw [SsoLogin.names, hprovider, hsubject]
      exact hnames
    refine ⟨hconsistent, List.mem_map.mpr ⟨u, h.user, if_neg hother⟩, h.role,
      fun i hi huser => ?_⟩
    obtain ⟨j, hj, rfl⟩ := List.mem_map.mp hi
    rw [(setEmail_names login j).1, (setEmail_names login j).2]
    rw [LoginHistory.setEmail_userId] at huser
    exact h.identities j hj huser

theorem Kept.refused (h : Kept u role identities db) (hrefused : Refused db db') :
    Kept u role identities db' := by
  cases hrefused with
  | unchanged => exact h
  | logged e _ => exact ⟨{ h.consistent with }, h.user, h.role, h.identities⟩

theorem Kept.perform (h : Kept u role identities db) (hbuiltin : role.isBuiltin = true)
    (huser : u.roleId = some role.id) {step : RoleStep}
    (hstep : ¬ step.IsLoginOf identities u.id) :
    Kept u role identities (db.perform env step).2 := by
  cases step with
  | request r =>
    show Kept u role identities (r.perform env db).2
    rcases r.perform_outcome h.consistent with ⟨-, hrefused⟩ | ⟨-, hserved⟩
    · exact h.refused hrefused
    · obtain ⟨r, hr, hsame⟩ := h.role
      have hr' : r.isBuiltin = true := hsame.2.2.2.1.trans hbuiltin
      obtain ⟨r', hr'', hsame'⟩ := hserved.served.builtin.role r hr hr'
      refine ⟨hserved.served.consistent, ?_, ⟨r', hr'', hsame.trans hsame'⟩, ?_⟩
      · exact hserved.served.builtin.user u h.user r hr hr' (by rw [huser, hsame.1])
      · rw [hserved.served.identities]
        exact h.identities
  | login login newId => exact h.loggedIn hstep (QueryCraft.loggedIn db login newId)
  | connections connections schemaEntries =>
    exact ⟨consistent_setConnections h.consistent, h.user, h.role, h.identities⟩

theorem Kept.after (h : Kept u role identities db) (hbuiltin : role.isBuiltin = true)
    (huser : u.roleId = some role.id) {steps : List RoleStep}
    (hsteps : ∀ step ∈ steps, ¬ step.IsLoginOf identities u.id) :
    Kept u role identities (db.after env steps).2 :=
  transcript_invariant (P := fun step => ¬ RoleStep.IsLoginOf identities u.id step)
    (fun _ _ hkept hstep => hkept.perform hbuiltin huser hstep) steps h hsteps

theorem getCurrentRole_eq_some {parseUuid : String → Option String} {s : SessionRecord} :
    db.getCurrentRole parseUuid (some s) = some role ↔
      ∃ userId, parseUuid s.userId = some userId ∧
        ∃ u, rowWith (·.id) db.users userId = some u ∧
          ∃ roleId, u.roleId = some roleId ∧ db.getById roleId = some role := by
  simp only [RoleTables.getCurrentRole, Option.bind_some, Option.bind_eq_some_iff]

/-- **A user with a built-in role keeps access.** Whatever administrators do, built-in roles and
their users included, the user has the role after every run without a login of that user, with
the same permissions, so that `require_permission` refuses what it refused and nothing else. -/
theorem builtin_role_kept (h : db.Consistent) {s : SessionRecord} {role : Role}
    (hrole : db.getCurrentRole env.parseUuid (some s) = some role)
    (hbuiltin : role.isBuiltin = true) (steps : List RoleStep)
    (hsteps : ∀ step ∈ steps, ∀ userId, env.parseUuid s.userId = some userId →
      ¬ step.IsLoginOf db.identities userId) :
    (∃ role', (db.after env steps).2.getCurrentRole env.parseUuid (some s) = some role' ∧
        role.SameProtected role') ∧
      ∀ required requestMethod,
        requirePermission env.parseUuid (db.after env steps).2 required requestMethod (some s) =
            none ↔
          requirePermission env.parseUuid db required requestMethod (some s) = none := by
  obtain ⟨userId, hparse, u, hu, roleId, huser, hget⟩ := getCurrentRole_eq_some.mp hrole
  obtain ⟨hmem, rfl⟩ := mem_of_rowWith hu
  obtain ⟨hroleMem, rfl⟩ := mem_of_rowWith hget
  have hkept : Kept u role db.identities (db.after env steps).2 :=
    Kept.after ⟨h, hmem, ⟨role, hroleMem, rfl, rfl, rfl, rfl, rfl⟩,
      fun i hi heq => ⟨i, hi, heq, rfl, rfl⟩⟩ hbuiltin huser
      fun step hstep => hsteps step hstep _ hparse
  obtain ⟨role', hrole', hsame⟩ := hkept.role
  have hafter : (db.after env steps).2.getCurrentRole env.parseUuid (some s) = some role' := by
    refine getCurrentRole_eq_some.mpr ⟨u.id, hparse, u, ?_, role.id, huser, ?_⟩
    · exact (rowWith_eq_some hkept.consistent.userId).mpr ⟨hkept.user, rfl⟩
    · exact (rowWith_eq_some hkept.consistent.roleId).mpr ⟨hrole', hsame.1⟩
  refine ⟨⟨role', hafter, hsame⟩, fun required requestMethod => ?_⟩
  rw [requirePermission, requirePermission, Option.map_eq_none_iff, Option.map_eq_none_iff, hafter,
    hrole, denial, denial, hsame.2.2.1]

theorem builtin_role_kept_firstDay :
    (∃ role', (firstTables.after firstEnv firstDay).2.getCurrentRole firstEnv.parseUuid
        (some adminSession) = some role' ∧ adminRole.SameProtected role') ∧
      ∀ required requestMethod,
        requirePermission firstEnv.parseUuid (firstTables.after firstEnv firstDay).2 required
            requestMethod (some adminSession) = none ↔
          requirePermission firstEnv.parseUuid firstTables required requestMethod
            (some adminSession) = none :=
  builtin_role_kept consistent_firstTables rfl rfl firstDay (by
    intro step _ userId _
    cases step with
    | login login newId =>
      rintro ⟨i, hi, -⟩
      cases hi
    | request r => exact id
    | connections connections schemaEntries => exact id)

end Builtin

/-! ## The audit log -/

theorem logged_of_same {entries : List LogRequest} (hgrants : db'.grants = db.grants)
    (hmappings : db'.mappings = db.mappings) : Logged env entries db db' where
  name _ hne := absurd (by rw [hgrants]) hne
  description _ hne := absurd (by rw [hgrants]) hne
  priority _ hne := absurd (by rw [hgrants]) hne
  permissions _ hne := absurd (by rw [hgrants]) hne
  policy _ _ hne := absurd (by rw [hgrants]) hne
  created _ hm := .inl (hmappings ▸ hm)
  deleted _ hm := .inl (hmappings ▸ hm)

theorem Refused.logs (h : Refused db db') :
    ∃ entries, db'.audit = db.audit ++ entries ∧ Logged env entries db db' := by
  cases h with
  | unchanged => exact ⟨[], (List.append_nil _).symm, .refl⟩
  | logged e _ => exact ⟨[e], rfl, logged_of_same rfl rfl⟩

theorem logged_perform (h : db.Consistent) {step : RoleStep}
    (hstep : ∀ connections schemaEntries, step ≠ .connections connections schemaEntries) :
    ∃ entries, (db.perform env step).2.audit = db.audit ++ entries ∧
      Logged env entries db (db.perform env step).2 := by
  cases step with
  | request r =>
    show ∃ entries, (r.perform env db).2.audit = _ ∧ Logged env entries db (r.perform env db).2
    rcases r.perform_outcome h with ⟨-, hrefused⟩ | ⟨-, hserved⟩
    · exact hrefused.logs
    · exact hserved.logged
  | login login newId =>
    have hlogin := loggedIn db login newId
    obtain ⟨hmappings, -, haudit⟩ := hlogin.same
    exact ⟨[], haudit.trans (List.append_nil _).symm, logged_of_same hlogin.grants hmappings⟩
  | connections connections schemaEntries => exact absurd rfl (hstep connections schemaEntries)

/-- **Whatever requests and logins have changed, the audit log says so**: after every run it has
grown by entries that name every field of a role, every policy and every mapping that is not
what it was. -/
theorem changes_logged (h : db.Consistent) (steps : List RoleStep)
    (hsteps : ∀ step ∈ steps, ∀ connections schemaEntries,
      step ≠ .connections connections schemaEntries) :
    ∃ entries, (db.after env steps).2.audit = db.audit ++ entries ∧
      Logged env entries db (db.after env steps).2 := by
  induction steps generalizing db with
  | nil => exact ⟨[], (List.append_nil _).symm, .refl⟩
  | cons step steps ih =>
    rw [List.forall_mem_cons] at hsteps
    obtain ⟨entries, haudit, hlogged⟩ : ∃ entries, (db.perform env step).2.audit =
        db.audit ++ entries ∧ Logged env entries db (db.perform env step).2 :=
      logged_perform h hsteps.1
    obtain ⟨entries', haudit', hlogged'⟩ := ih (consistent_perform h step) hsteps.2
    refine ⟨entries ++ entries', ?_, hlogged.trans hlogged'⟩
    show ((db.perform env step).2.after env steps).2.audit = _
    rw [haudit', haudit, List.append_assoc]

theorem changes_logged_firstDay :
    ∃ entries, (firstTables.after firstEnv firstDay).2.audit = firstTables.audit ++ entries ∧
      Logged firstEnv entries firstTables (firstTables.after firstEnv firstDay).2 :=
  changes_logged consistent_firstTables firstDay (by simp [firstDay])

/-! ## Row filters -/

/-- The filter is accepted for the connection. -/
def RoleTables.acceptsFilter (env : RoleEnv) (db : RoleTables) (connectionId : String)
    (rowFilter : RowFilterEntry) : Bool :=
  (rowWith (·.id) db.connections connectionId).any fun connection =>
    rowFilterAccepted env (buildSchemaFromEntries (db.getSchemaEntries connectionId))
      (ReadOnlyRule.fromDatabaseType connection.databaseType).dialect rowFilter

theorem acceptsFilter_of_policy {values : PolicyValues} {connectionId : String}
    (h : policyFiltersAccepted env db values connectionId = true) {rowFilter : Json}
    (hfilter : rowFilter ∈ values.rowFilters) :
    db.acceptsFilter env connectionId (rowFilterEntry rowFilter) = true := by
  rw [policyFiltersAccepted, Bool.or_eq_true, List.isEmpty_iff] at h
  rcases h with hnil | h
  · rw [hnil] at hfilter
    cases hfilter
  · rw [Option.any_eq_true_iff_get] at h
    obtain ⟨hsome, hall⟩ := h
    rw [RoleTables.acceptsFilter, Option.any_eq_true_iff_get]
    exact ⟨hsome, List.all_eq_true.mp hall rowFilter hfilter⟩

theorem Refused.policies (h : Refused db db') : db'.policies = db.policies := by
  cases h with
  | unchanged => rfl
  | logged e _ => rfl

/-- A policy is there after a step because it was there before, with the same values, or because
its filters have just been accepted. -/
theorem filters_perform (h : db.Consistent) {step : RoleStep} :
    ∀ p ∈ (db.perform env step).2.policies,
      (∃ q ∈ db.policies, q.key = p.key ∧ q.values = p.values) ∨
        policyFiltersAccepted env db p.values p.connectionId = true := by
  cases step with
  | request r =>
    show ∀ p ∈ (r.perform env db).2.policies, _
    rcases r.perform_outcome h with ⟨-, hrefused⟩ | ⟨-, hserved⟩
    · intro p hp
      rw [hrefused.policies] at hp
      exact .inl ⟨p, hp, rfl, rfl⟩
    · exact hserved.served.filters
  | login login newId =>
    obtain ⟨-, hpolicies, -⟩ := (loggedIn db login newId).same
    intro p hp
    exact .inl ⟨p, hpolicies ▸ hp, rfl, rfl⟩
  | connections connections schemaEntries =>
    exact fun p hp => .inl ⟨p, List.mem_of_mem_filter hp, rfl, rfl⟩

/-- So after a run its filters were accepted at some point of the run, unless it has not changed. -/
theorem filters_after (h : db.Consistent) (steps : List RoleStep) :
    ∀ p ∈ (db.after env steps).2.policies,
      (∃ q ∈ db.policies, q.key = p.key ∧ q.values = p.values) ∨
        ∃ earlier later, steps = earlier ++ later ∧
          policyFiltersAccepted env (db.after env earlier).2 p.values p.connectionId = true := by
  induction steps generalizing db with
  | nil => exact fun p hp => .inl ⟨p, hp, rfl, rfl⟩
  | cons step steps ih =>
    intro p hp
    rcases ih (consistent_perform h step) p hp with ⟨q, hq, hkey, hvalues⟩ |
      ⟨earlier, later, rfl, haccepted⟩
    · rcases filters_perform h q hq with ⟨q', hq', hkey', hvalues'⟩ | haccepted
      · exact .inl ⟨q', hq', hkey'.trans hkey, hvalues'.trans hvalues⟩
      · refine .inr ⟨[], step :: steps, rfl, ?_⟩
        have hconnection : q.connectionId = p.connectionId := (Prod.ext_iff.mp hkey).2
        rw [hvalues, hconnection] at haccepted
        exact haccepted
    · exact .inr ⟨step :: earlier, later, rfl, haccepted⟩

/-- What the provider serves is empty or a row of the policies. -/
theorem rowFilters_of_provider {dbError : Bool} {userId connectionId : String} {policy : RolePolicy}
    (hpolicy : rolePolicyProvider db.policyTables dbError userId connectionId = some policy) :
    policy.rowFilters = [] ∨ ∃ p ∈ db.policies, p.connectionId = connectionId ∧
      policy.rowFilters = p.values.rowFilters.map rowFilterEntry := by
  rw [rolePolicyProvider] at hpolicy
  split at hpolicy
  · exact .inl (Option.some.inj hpolicy ▸ rfl)
  split at hpolicy
  · cases hpolicy
  · split at hpolicy
    · cases hpolicy
    · split at hpolicy
      · rename_i row hrow
        obtain ⟨hmem, hkey⟩ := List.mem_filter.mp
          (show row ∈ List.filter _ _ from hrow ▸ List.mem_singleton_self row)
        obtain ⟨p, hp, rfl⟩ := List.mem_map.mp hmem
        exact .inr ⟨p, hp, (of_decide_eq_true hkey).2, Option.some.inj hpolicy ▸ rfl⟩
      · exact .inl (Option.some.inj hpolicy ▸ rfl)
  · exact .inl (Option.some.inj hpolicy ▸ rfl)

/-- **Every row filter that the policy provider serves was accepted by the validator**, at some
point of the run, against the schema that the connection had then. -/
theorem policy_filters_accepted (h : db.Consistent)
    (hstart : ∀ p ∈ db.policies, policyFiltersAccepted env db p.values p.connectionId = true)
    (steps : List RoleStep) {dbError : Bool} {userId connectionId : String} {policy : RolePolicy}
    (hpolicy : rolePolicyProvider (db.after env steps).2.policyTables dbError userId connectionId =
      some policy) {rowFilter : RowFilterEntry} (hfilter : rowFilter ∈ policy.rowFilters) :
    ∃ earlier later, steps = earlier ++ later ∧
      (db.after env earlier).2.acceptsFilter env connectionId rowFilter = true := by
  rcases rowFilters_of_provider hpolicy with hnil | ⟨p, hp, rfl, hfilters⟩
  · rw [hnil] at hfilter
    cases hfilter
  · rw [hfilters] at hfilter
    obtain ⟨filter, hmem, rfl⟩ := List.mem_map.mp hfilter
    rcases filters_after h steps p hp with ⟨q, hq, hkey, hvalues⟩ |
      ⟨earlier, later, heq, haccepted⟩
    · have haccepted := hstart q hq
      have hconnection : q.connectionId = p.connectionId := (Prod.ext_iff.mp hkey).2
      rw [hvalues, hconnection] at haccepted
      exact ⟨[], steps, rfl, acceptsFilter_of_policy haccepted hmem⟩
    · exact ⟨earlier, later, heq, acceptsFilter_of_policy haccepted hmem⟩

theorem policy_filters_accepted_firstDay :
    ∃ policy rowFilter,
      rolePolicyProvider (firstTables.after firstEnv firstDay).2.policyTables false (idEnding "b2")
          (idEnding "c1") = some policy ∧ rowFilter ∈ policy.rowFilters ∧
      ∃ earlier later, firstDay = earlier ++ later ∧
        (firstTables.after firstEnv earlier).2.acceptsFilter firstEnv (idEnding "c1") rowFilter =
          true := by
  have hserved : (rolePolicyProvider (firstTables.after firstEnv firstDay).2.policyTables false
      (idEnding "b2") (idEnding "c1")).map (·.rowFilters.length) = some 1 := by decide +kernel
  obtain ⟨policy, hpolicy, hlength⟩ := Option.map_eq_some_iff.mp hserved
  obtain ⟨rowFilter, hfilters⟩ := List.length_eq_one_iff.mp hlength
  have hfilter : rowFilter ∈ policy.rowFilters := hfilters ▸ List.mem_singleton_self rowFilter
  exact ⟨policy, rowFilter, hpolicy, hfilter,
    policy_filters_accepted consistent_firstTables (List.forall_mem_nil _) firstDay hpolicy hfilter⟩

end QueryCraft
