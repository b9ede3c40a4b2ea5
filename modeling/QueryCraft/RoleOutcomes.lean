import QueryCraft.RoleEffects

/-! # The outcome of a request

A request is refused and leaves the tables as they are, but for one entry if it tried to touch a
built-in role; or it is served, and the grants change as the request says (`RoleCall.apply`).
-/
namespace QueryCraft

/-! ## What a request says -/

namespace RoleCall
variable (env : RoleEnv) (new : NewRows)

/-- The policies become the requested ones, if the request has any. -/
def applyPolicies (roleId : String) (policies : Option (List ConnectionPolicyItem)) (g : Grants) :
    Grants :=
  policies.elim g fun policies =>
    g.withPolicies env new roleId ((parsedPolicies env policies).getD [])

/-- The groups become the requested ones, if the request has any. -/
def applyGroups (roleId : String) (groupMappings : Option (List String)) (g : Grants) : Grants :=
  groupMappings.elim g (g.withGroups new roleId)

/-- The grants after a request that is served. -/
def apply (g : Grants) : RoleCall → Grants
  | createRole body =>
    applyGroups new new.roleId (some body.groupMappings)
      (applyPolicies env new new.roleId (some body.connectionPolicies)
        (g.withRole (body.row new.roleId)))
  | updateRole roleId body =>
    (env.parseUuid roleId).elim g fun roleId => (g.role roleId).elim g fun role =>
      applyGroups new roleId body.groupMappings
        (applyPolicies env new roleId body.connectionPolicies
          (g.withRole (body.toRoleFields.set role)))
  | deleteRole roleId => (env.parseUuid roleId).elim g g.withoutRole
  | createGroupMapping body =>
    (env.parseUuid body.roleId).elim g fun roleId =>
      g.withMapping (new.mapping roleId body.groupValue)
  | deleteGroupMapping mappingId => (env.parseUuid mappingId).elim g g.withoutMapping

end RoleCall

/-- The reply is a refusal. -/
def RoleReply.isRefused : RoleReply → Bool
  | .refused _ _ _ => true
  | _ => false

section Apply
variable (env : RoleEnv) (new : NewRows) (roleId : String) (g : Grants)

theorem RoleCall.applyPolicies_role (policies : Option (List ConnectionPolicyItem)) :
    (RoleCall.applyPolicies env new roleId policies g).role = g.role := by
  cases policies with
  | none => rfl
  | some policies => rfl

theorem RoleCall.applyPolicies_policy_of_ne (policies : Option (List ConnectionPolicyItem))
    {id : String} (h : id ≠ roleId) (connectionId : String) :
    (RoleCall.applyPolicies env new roleId policies g).policy id connectionId =
      g.policy id connectionId := by
  cases policies with
  | none => rfl
  | some policies => exact if_neg h

theorem RoleCall.applyGroups_role (groupMappings : Option (List String)) :
    (RoleCall.applyGroups new roleId groupMappings g).role = g.role := by
  cases groupMappings with
  | none => rfl
  | some groupMappings => rfl

theorem RoleCall.applyGroups_policy (groupMappings : Option (List String)) :
    (RoleCall.applyGroups new roleId groupMappings g).policy = g.policy := by
  cases groupMappings with
  | none => rfl
  | some groupMappings => rfl

end Apply

/-- A request was served, and the grants are those. -/
structure ServedAs (env : RoleEnv) (db db' : RoleTables) (g : Grants) : Prop where
  served : Served env db db'
  grants : db'.grants = g
  logged : ∃ entries, db'.audit = db.audit ++ entries ∧ Logged env entries db db'

/-! ## Logging -/

section Logging
variable {env : RoleEnv} {roleId : String} {entries : List LogRequest} {db db' : RoleTables}

/-- A role that is created or deleted has an entry for all of its fields. -/
theorem logged_of_entry {e : LogRequest} (he : e ∈ entries)
    (hlogs : ∀ field, LogsRoleField e roleId field)
    (hrole : ∀ id, id ≠ roleId → db'.grants.role id = db.grants.role id)
    (hpolicy : ∀ id c, id ≠ roleId → db'.grants.policy id c = db.grants.policy id c)
    (hcreated : ∀ m ∈ db'.mappings, m ∈ db.mappings ∨
      ∃ e ∈ entries, LogsMapping env e m.id "create")
    (hdeleted : ∀ m ∈ db.mappings, m ∈ db'.mappings ∨
      (∃ e ∈ entries, LogsMapping env e m.id "delete") ∨
        ∃ e ∈ entries, LogsRoleDeletion e m.roleId) : Logged env entries db db' := by
  have hfield : ∀ {α : Type} {f : Role → α} {field : String} (id : String),
      (db'.grants.role id).map f ≠ (db.grants.role id).map f →
        ∃ e ∈ entries, LogsRoleField e id field := by
    intro α f field id hne
    by_cases hid : id = roleId
    · exact ⟨e, he, hid ▸ hlogs field⟩
    · exact absurd (by rw [hrole id hid]) hne
  refine ⟨hfield, hfield, hfield, hfield, fun id c hne => ?_, hcreated, hdeleted⟩
  by_cases hid : id = roleId
  · exact ⟨e, he, hid ▸ hlogs _⟩
  · exact absurd (hpolicy id c hid) hne

theorem logsRoleField_roleEntry {action : AuditActionType} {actor : Option String} {context : Json}
    (h : action = .roleCreate ∨ action = .roleDelete) (field : String) :
    LogsRoleField (roleEntry action actor roleId context) roleId field :=
  ⟨rfl, rfl, h.elim .inl fun h => .inr (.inl h)⟩

theorem logsMapping_groupMappingEntry (env : RoleEnv) (actor : Option String)
    (mappingId action : String) :
    LogsMapping env (groupMappingEntry actor mappingId action) mappingId action :=
  ⟨rfl, rfl, ⟨mappingId, rfl, .inl rfl⟩, rfl⟩

end Logging

/-! ## Creating a role -/

section Create
variable {env : RoleEnv} {new : NewRows} {actor : Option String} {db db' : RoleTables}

theorem RoleCreate.fits (body : RoleCreate) (roleId : String) : (body.row roleId).Fits := by
  have hname := body.name_valid
  have hpriority := body.priority_valid
  simp only [isRoleName, isRolePriority, Bool.and_eq_true, decide_eq_true_eq] at hname hpriority
  refine ⟨hname.1.2, fun d hd => ?_, hpriority⟩
  have hdescription := body.description_valid
  rw [show body.description = some d from hd, Option.all_some, isRoleDescription,
    Bool.and_eq_true, decide_eq_true_eq] at hdescription
  exact hdescription.1

theorem grants_create {role : Role} {e : LogRequest} (hid : db.getById role.id = none) :
    (({ db with roles := db.roles ++ [role] } : RoleTables).log e).grants =
      db.grants.withRole role := by
  refine Grants.ext (funext fun id => ?_) rfl rfl
  show rowWith (fun r : Role => r.id) (_ ++ _) id = Function.update db.getById role.id _ id
  rw [rowWith_append, rowWith_singleton]
  by_cases h : role.id = id
  · subst h
    rw [Function.update_self, if_pos rfl]
    show (db.getById role.id).or _ = _
    rw [hid]
    rfl
  · rw [if_neg h, Option.or_none, Function.update_of_ne (Ne.symm h)]
    rfl

theorem createRole_ok {body : RoleCreate} {detail : RoleDetail} (h : db.Consistent)
    (hok : createRole env new actor db body = .ok (db', detail)) :
    ServedAs env db db' ((RoleCall.createRole body).apply env new db.grants) := by
  obtain ⟨db1, hservice, hok⟩ := bind_eq_ok.mp hok
  obtain ⟨⟨db2, rows, changed⟩, hpolicies, hok⟩ := bind_eq_ok.mp hok
  obtain ⟨⟨db3, mappings⟩, hmappings, hok⟩ := bind_eq_ok.mp hok
  obtain ⟨rfl, -⟩ := Prod.mk.inj (pure_eq_ok.mp hok)
  obtain ⟨hdb1, hid, h1⟩ : _ ∧ _ ∧ Served env db db1 :=
    createRole_service_ok h (body.fits _) hservice
  have hrole1 : ∃ r ∈ db1.roles, r.id = new.roleId := by
    rw [hdb1]
    exact ⟨_, List.mem_append_right _ (List.mem_singleton_self _), rfl⟩
  obtain ⟨requested, hparsed, hrequested, hsynced, -, -⟩ :=
    syncRoleConnectionPolicies_ok h1.consistent.policyId h1.consistent.policyKey hpolicies
  have h2 := served_policies h1.consistent hrole1 hrequested hsynced
  have hframe := hsynced.frame
  have hmappings2 : db2.mappings = db.mappings := by rw [hframe, hdb1]; rfl
  have hnew : ∀ m ∈ db2.mappings, m.roleId ≠ new.roleId := by
    intro m hm heq
    obtain ⟨r, hr, hrid⟩ := h.mappingRole m (hmappings2 ▸ hm)
    exact rowWith_eq_none.mp hid r hr (hrid.trans heq)
  have hgroups := createRoleGroupMappings_ok h2.consistent.mappingId h2.consistent.groupValue hnew
    hmappings
  have hrole2 : ∃ r ∈ db2.roles, r.id = new.roleId := by rw [hframe]; exact hrole1
  have h3 : Served env db2 db3 := served_groups h2.consistent hrole2 hgroups
  have hgrants : db3.grants = (RoleCall.createRole body).apply env new db.grants := by
    rw [hgroups.grants, hsynced.grants, hdb1, grants_create hid]
    show _ = ((db.grants.withRole (body.row new.roleId)).withPolicies env new new.roleId
      ((parsedPolicies env body.connectionPolicies).getD [])).withGroups new new.roleId
        body.groupMappings
    rw [hparsed]
    rfl
  refine ⟨(h1.trans h2).trans h3, hgrants, ?_⟩
  obtain ⟨entries, haudit, hcreated, hdeleted⟩ := hgroups.audit
  have haudit2 : db2.audit = db.audit ++ [roleCreateEntry actor (body.row new.roleId)] := by
    rw [hframe, hdb1]
    rfl
  refine ⟨roleCreateEntry actor (body.row new.roleId) :: entries, ?_,
    logged_of_entry List.mem_cons_self (logsRoleField_roleEntry (.inl rfl)) (fun id hne => ?_)
      (fun id c hne => ?_) (fun m hm => ?_) fun m hm => ?_⟩
  · rw [haudit, haudit2, List.append_assoc, List.singleton_append]
  · rw [hgrants]
    exact Function.update_of_ne hne _ _
  · rw [hgrants]
    exact if_neg hne
  · refine (hcreated m hm).imp (fun h => hmappings2 ▸ h) fun he => ?_
    exact ⟨_, List.mem_cons_of_mem _ he, logsMapping_groupMappingEntry ..⟩
  · refine (hdeleted m (hmappings2 ▸ hm)).imp_right fun he => .inl ?_
    exact ⟨_, List.mem_cons_of_mem _ he, logsMapping_groupMappingEntry ..⟩

end Create

/-! ## Changing a role -/

/-- A field that changes is among the changed fields. -/
theorem RoleFields.mem_keys_changed (fields : RoleFields) (role : Role) :
    ((fields.set role).name ≠ role.name → "name" ∈ (fields.changed role).keys) ∧
    ((fields.set role).description ≠ role.description →
      "description" ∈ (fields.changed role).keys) ∧
    ((fields.set role).priority ≠ role.priority → "priority" ∈ (fields.changed role).keys) ∧
    ((fields.set role).permissions ≠ role.permissions →
      "permissions" ∈ (fields.changed role).keys) := by
  have hfield : ∀ {α : Type} [DecidableEq α] {new : Option α} {old : α},
      new.getD old ≠ old → (new.filter (· ≠ old)).isSome = true := by
    intro α _ new old hne
    cases new with
    | none => exact absurd rfl hne
    | some a =>
      have ha : a ≠ old := hne
      rw [Option.filter_some, if_pos (decide_eq_true ha), Option.isSome_some]
  have hdescription : (fields.set role).description ≠ role.description →
      (fields.changed role).description.isSome = true := by
    intro hne
    show (fields.description.filter (some · ≠ role.description)).isSome = true
    have hne : (fields.description.map some).getD role.description ≠ role.description := hne
    cases hnew : fields.description with
    | none =>
      rw [hnew] at hne
      exact absurd rfl hne
    | some d =>
      rw [hnew] at hne
      have hd : some d ≠ role.description := hne
      rw [Option.filter_some, if_pos (decide_eq_true hd), Option.isSome_some]
  refine ⟨fun hne => ?_, fun hne => ?_, fun hne => ?_, fun hne => ?_⟩
  · have hsome : (fields.changed role).name.isSome = true := hfield hne
    simp [keys, hsome]
  · simp [keys, hdescription hne]
  · have hsome : (fields.changed role).priority.isSome = true := hfield hne
    simp [keys, hsome]
  · have hsome : (fields.changed role).permissions.isSome = true := hfield hne
    simp [keys, hsome]

section Update
variable {env : RoleEnv} {new : NewRows} {actor : Option String} {roleId : String}
  {db db' : RoleTables}

theorem grants_update {existing role : Role} (hexisting : db.getById roleId = some existing)
    (hid : role.id = roleId) :
    ({ db with roles := db.roles.map fun r => if r.id = roleId then role else r } :
      RoleTables).grants = db.grants.withRole role := by
  refine Grants.ext (funext fun id => ?_) rfl rfl
  show rowWith (fun r : Role => r.id) (db.roles.map _) id =
    Function.update db.getById role.id _ id
  rw [rowWith_map fun r _ => ?_]
  · by_cases h : id = role.id
    · subst h
      rw [Function.update_self, hid]
      show (db.getById roleId).map _ = _
      rw [hexisting, Option.map_some, if_pos (mem_of_rowWith hexisting).2]
    · rw [Function.update_of_ne h]
      show (db.getById id).map _ = db.getById id
      cases hrole : db.getById id with
      | none => rfl
      | some r =>
        rw [Option.map_some, if_neg]
        rw [(mem_of_rowWith hrole).2, ← hid]
        exact h
  · split
    · rename_i heq
      exact hid.trans heq.symm
    · rfl

theorem served_refl (h : db.Consistent) : Served env db db :=
  ⟨h, .of_same rfl rfl, rfl, rfl, rfl, filters_of_subset fun _ hp => hp⟩

/-- The policies, if the request has any. -/
theorem updateConnectionPolicies_ok {policies : Option (List ConnectionPolicyItem)}
    {rows : List ConnectionPolicyRow} {changed : Bool} (h : db.Consistent)
    (hrole : ∃ r ∈ db.roles, r.id = roleId)
    (hok : updateConnectionPolicies env new db roleId policies = .ok (db', rows, changed)) :
    Served env db db' ∧ db'.grants = RoleCall.applyPolicies env new roleId policies db.grants ∧
      db' = { db with policies := db'.policies } ∧ (changed = false → db' = db) := by
  cases policies with
  | none =>
    obtain ⟨rfl, hrest⟩ := Prod.mk.inj (Except.ok.inj hok)
    exact ⟨served_refl h, rfl, rfl, fun _ => rfl⟩
  | some policies =>
    obtain ⟨requested, hparsed, hrequested, hsynced, -, hunchanged⟩ :=
      syncRoleConnectionPolicies_ok h.policyId h.policyKey hok
    refine ⟨served_policies h hrole hrequested hsynced, ?_, hsynced.frame, hunchanged⟩
    rw [hsynced.grants, RoleCall.applyPolicies, Option.elim_some, hparsed, Option.getD_some]

/-- The groups, if the request has any. -/
theorem updateGroupMappings_ok {groupMappings : Option (List String)}
    {mappings : List (String × String)} (h : db.Consistent)
    (hrole : ∃ r ∈ db.roles, r.id = roleId) (hnodup : ∀ values ∈ groupMappings, values.Nodup)
    (hok : updateGroupMappings new actor db roleId groupMappings = .ok (db', mappings)) :
    Served env db db' ∧ db'.grants = RoleCall.applyGroups new roleId groupMappings db.grants ∧
      ∃ entries, db'.audit = db.audit ++ entries ∧
        (∀ m ∈ db'.mappings, m ∈ db.mappings ∨ groupMappingEntry actor m.id "create" ∈ entries) ∧
        ∀ m ∈ db.mappings, m ∈ db'.mappings ∨ groupMappingEntry actor m.id "delete" ∈ entries := by
  cases groupMappings with
  | none =>
    obtain ⟨rfl, -⟩ := Prod.mk.inj (Except.ok.inj hok)
    exact ⟨served_refl h, rfl, [], (List.append_nil _).symm, fun _ => .inl, fun _ => .inl⟩
  | some requested =>
    have hsynced := syncRoleGroupMappings_ok h.mappingId h.groupValue (hnodup requested rfl) hok
    exact ⟨served_groups h hrole hsynced, hsynced.grants, hsynced.audit⟩

theorem served_auditRoleUpdate (actor : Option String) (roleId : String) (h : db.Consistent)
    (updatedFields : List String) :
    Served env db (auditRoleUpdate actor db roleId updatedFields) := by
  rw [auditRoleUpdate]
  split
  · exact served_refl h
  · exact served_log h _

theorem RoleUpdate.fits (body : RoleUpdate) {existing : Role} (h : existing.Fits) :
    (body.toRoleFields.set existing).Fits := by
  have hname := body.name_valid
  have hdescription := body.description_valid
  have hpriority := body.priority_valid
  refine ⟨?_, fun d hd => ?_, ?_⟩
  · rw [RoleFields.set]
    cases hnew : body.name with
    | none => exact h.name
    | some name =>
      simp only [hnew, Option.all_some, isRoleName, Bool.and_eq_true, decide_eq_true_eq] at hname
      exact hname.1.2
  · rw [RoleFields.set] at hd
    cases hnew : body.description with
    | none =>
      rw [hnew] at hd
      exact h.description d hd
    | some description =>
      rw [hnew] at hd
      simp only [hnew, Option.all_some, isRoleDescription, Bool.and_eq_true, decide_eq_true_eq]
        at hdescription
      obtain rfl : description = d := Option.some.inj hd
      exact hdescription.1
  · rw [RoleFields.set]
    cases hnew : body.priority with
    | none => exact h.priority
    | some priority =>
      simp only [hnew, Option.all_some, isRolePriority, Bool.and_eq_true, decide_eq_true_eq]
        at hpriority
      exact hpriority

/-- The entry of `_audit_role_update` logs each of the updated fields. -/
theorem auditRoleUpdate_logs (actor : Option String) (db : RoleTables) (roleId : String)
    (updatedFields : List String) :
    ∃ entries, (auditRoleUpdate actor db roleId updatedFields).audit = db.audit ++ entries ∧
      (auditRoleUpdate actor db roleId updatedFields).grants = db.grants ∧
      (auditRoleUpdate actor db roleId updatedFields).roles = db.roles ∧
      (auditRoleUpdate actor db roleId updatedFields).mappings = db.mappings ∧
      ∀ field ∈ updatedFields, ∃ e ∈ entries, LogsRoleField e roleId field := by
  rw [auditRoleUpdate]
  split
  · rename_i hnil
    refine ⟨[], (List.append_nil _).symm, rfl, rfl, rfl, fun field hfield => ?_⟩
    rw [hnil] at hfield
    cases hfield
  · refine ⟨_, rfl, rfl, rfl, rfl, fun field hfield => ⟨_, List.mem_singleton_self _, rfl, rfl, ?_⟩⟩
    exact .inr (.inr ⟨rfl, _, rfl, List.mem_map_of_mem hfield⟩)

theorem updateRole_ok {body : RoleUpdate} {detail : RoleDetail} (h : db.Consistent)
    (hok : updateRole env new actor db roleId body = .ok (db', detail)) :
    ∃ existing, db.getById roleId = some existing ∧
      ServedAs env db db' (RoleCall.applyGroups new roleId body.groupMappings
        (RoleCall.applyPolicies env new roleId body.connectionPolicies
          (db.grants.withRole (body.toRoleFields.set existing)))) := by
  obtain ⟨⟨db1, role, keys⟩, hservice, hok⟩ := bind_eq_ok.mp hok
  obtain ⟨⟨db2, rows, changed⟩, hpolicies, hok⟩ := bind_eq_ok.mp hok
  obtain ⟨⟨db4, mappings⟩, hmappings, hok⟩ := bind_eq_ok.mp hok
  obtain ⟨rfl, -⟩ := Prod.mk.inj (pure_eq_ok.mp hok)
  obtain ⟨existing, hexisting, hbuiltin, hname, hpriority, hpermissions, rfl, rfl, hdb1⟩ :=
    updateRole_service_ok h hservice
  obtain ⟨hmem, rfl⟩ := mem_of_rowWith hexisting
  have h1 : Served env db db1 := by
    rw [hdb1]
    exact served_update h hexisting rfl hname hpriority hpermissions (body.fits (h.fits _ hmem))
      fun hb => RoleFields.set_sameProtected _ _ (hbuiltin hb)
  have hrole1 : ∃ r ∈ db1.roles, r.id = existing.id := by
    rw [hdb1]
    exact ⟨_, List.mem_map_of_mem hmem, by rw [if_pos rfl]; rfl⟩
  obtain ⟨h2, hgrants2, hframe2, hunchanged⟩ :=
    updateConnectionPolicies_ok h1.consistent hrole1 hpolicies
  generalize hupdated : (body.toRoleFields.changed existing).keys ++
    (if changed = true then ["connection_policies"] else []) = updatedFields at hmappings
  obtain ⟨entries, haudit3, hgrants3, hroles3, hmappings3, hlogs⟩ :=
    auditRoleUpdate_logs actor db2 existing.id updatedFields
  have h3 : Served env db2 (auditRoleUpdate actor db2 existing.id updatedFields) :=
    served_auditRoleUpdate actor existing.id h2.consistent updatedFields
  have hmappings2 : db2.mappings = db.mappings := by rw [hframe2, hdb1]
  have haudit2 : db2.audit = db.audit := by rw [hframe2, hdb1]
  obtain ⟨h4, hgrants4, entries', haudit4, hcreated, hdeleted⟩ :
      Served env _ db4 ∧ _ := updateGroupMappings_ok h3.consistent
    (by rw [hroles3, hframe2]; exact hrole1) body.groupMappings_valid hmappings
  have hgrants1 : db1.grants = db.grants.withRole (body.toRoleFields.set existing) := by
    rw [hdb1]
    exact grants_update hexisting rfl
  have hgrants : db4.grants = RoleCall.applyGroups new existing.id body.groupMappings
      (RoleCall.applyPolicies env new existing.id body.connectionPolicies
        (db.grants.withRole (body.toRoleFields.set existing))) := by
    rw [hgrants4, hgrants3, hgrants2, hgrants1]
    rfl
  refine ⟨existing, hexisting, ((h1.trans h2).trans h3).trans h4, hgrants, entries ++ entries',
    ?_, ?_⟩
  · rw [haudit4, haudit3, haudit2, List.append_assoc]
  have hlogged : ∀ {id field}, id = existing.id → field ∈ updatedFields →
      ∃ e ∈ entries ++ entries', LogsRoleField e id field := by
    rintro id field rfl hfield
    obtain ⟨e, he, hlog⟩ := hlogs field hfield
    exact ⟨e, List.mem_append_left _ he, hlog⟩
  have hrole : db4.grants.role = Function.update db.grants.role existing.id
      (some (body.toRoleFields.set existing)) := by
    rw [hgrants, RoleCall.applyGroups_role, RoleCall.applyPolicies_role]
    rfl
  have hexisting' : db.grants.role existing.id = some existing := hexisting
  have hfield : ∀ {α : Type} {f : Role → α} {field : String},
      (f (body.toRoleFields.set existing) ≠ f existing →
        field ∈ (body.toRoleFields.changed existing).keys) → ∀ id,
      (db4.grants.role id).map f ≠ (db.grants.role id).map f →
        ∃ e ∈ entries ++ entries', LogsRoleField e id field := by
    intro α f field hmemKeys id hne
    rw [hrole] at hne
    by_cases hid : id = existing.id
    · refine hlogged hid (hupdated ▸ List.mem_append_left _ (hmemKeys fun heq => hne ?_))
      rw [hid, Function.update_self, hexisting', Option.map_some, Option.map_some, heq]
    · exact absurd (by rw [Function.update_of_ne hid]) hne
  obtain ⟨hn, hd, hp, hperm⟩ := body.toRoleFields.mem_keys_changed existing
  refine ⟨hfield hn, hfield hd, hfield hp, hfield hperm, fun id c hne => ?_, fun m hm => ?_,
    fun m hm => ?_⟩
  · rw [hgrants4, RoleCall.applyGroups_policy, hgrants3] at hne
    have hpolicy1 : db1.grants.policy id c = db.grants.policy id c := by rw [hgrants1]; rfl
    cases changed with
    | false => exact absurd (by rw [hunchanged rfl, hpolicy1]) hne
    | true =>
      by_cases hid : id = existing.id
      · exact hlogged hid (hupdated ▸ List.mem_append_right _ (List.mem_singleton_self _))
      · refine absurd ?_ hne
        rw [hgrants2]
        exact (RoleCall.applyPolicies_policy_of_ne env new _ _ _ hid c).trans hpolicy1
  · refine (hcreated m hm).imp (fun hm => ?_) fun he => ?_
    · rw [hmappings3, hmappings2] at hm
      exact hm
    · exact ⟨_, List.mem_append_right _ he, logsMapping_groupMappingEntry ..⟩
  · refine (hdeleted m (by rw [hmappings3, hmappings2]; exact hm)).imp_right fun he => .inl ?_
    exact ⟨_, List.mem_append_right _ he, logsMapping_groupMappingEntry ..⟩

end Update

/-! ## Deleting a role -/

section Delete
variable {env : RoleEnv} {actor : Option String} {roleId : String} {db db' : RoleTables}

theorem grants_deleteRow (h : db.Consistent) :
    (db.deleteRow roleId).grants = db.grants.withoutRole roleId := by
  refine Grants.ext (funext fun id => ?_) (funext fun v => ?_) (funext fun r => funext fun c => ?_)
  · show rowWith (fun r : Role => r.id) (db.roles.filter _) id =
      Function.update db.getById roleId none id
    rw [rowWith_filter h.roleId]
    show (db.getById id).filter _ = _
    cases hrole : db.getById id with
    | none =>
      by_cases hid : id = roleId
      · rw [hid, Function.update_self]
        rfl
      · rw [Function.update_of_ne hid, hrole]
        rfl
    | some r =>
      obtain ⟨-, rfl⟩ := mem_of_rowWith hrole
      rw [Option.filter_some]
      by_cases hid : r.id = roleId
      · rw [hid, Function.update_self, if_neg (by simp)]
      · rw [Function.update_of_ne hid, hrole, if_pos (decide_eq_true hid)]
  · exact rowWith_filter h.groupValue _
  · show rowWith (fun p : ConnectionPolicyRow => p.key) (db.policies.filter _) (r, c) =
      if r = roleId then none else rowWith (fun p : ConnectionPolicyRow => p.key) db.policies (r, c)
    rw [rowWith_filter h.policyKey]
    cases hpolicy : rowWith (fun p : ConnectionPolicyRow => p.key) db.policies (r, c) with
    | none => exact (ite_self none).symm
    | some p =>
      have hrole : p.roleId = r := (Prod.ext_iff.mp (mem_of_rowWith hpolicy).2).1
      rw [Option.filter_some, hrole]
      by_cases hr : r = roleId
      · rw [if_pos hr, if_neg (by simp [hr])]
      · rw [if_neg hr, if_pos (decide_eq_true hr)]

theorem deleteRole_ok (h : db.Consistent)
    (hok : RoleService.deleteRole db actor roleId = .ok db') :
    ServedAs env db db' (db.grants.withoutRole roleId) := by
  rw [RoleService.deleteRole] at hok
  cases hrole : db.getById roleId with
  | none =>
    rw [hrole] at hok
    cases hok
  | some existing =>
    rw [hrole] at hok
    dsimp only at hok
    split at hok
    · cases hok
    rename_i hbuiltin
    obtain ⟨⟨deleted, found⟩, hdelete, hok⟩ := bind_eq_ok.mp hok
    rw [RoleTables.delete, hrole] at hdelete
    dsimp only at hdelete
    rw [if_neg hbuiltin] at hdelete
    obtain ⟨rfl, rfl⟩ := Prod.mk.inj (Except.ok.inj hdelete)
    obtain rfl := pure_eq_ok.mp hok
    have hserved : Served env db (db.deleteRow roleId) :=
      served_delete h hrole (Bool.not_eq_true _ ▸ hbuiltin)
    refine ⟨hserved.trans (served_log hserved.consistent _), grants_deleteRow h,
      [roleEntry .roleDelete actor roleId (.obj [])], rfl, ?_⟩
    refine logged_of_entry (List.mem_singleton_self _) (logsRoleField_roleEntry (.inr rfl))
      (fun id hne => ?_) (fun id c hne => ?_) (fun m hm => .inl (List.mem_of_mem_filter hm))
      fun m hm => ?_
    · exact (congrFun (congrArg Grants.role (grants_deleteRow h)) id).trans
        (Function.update_of_ne hne _ _)
    · exact (congrFun (congrFun (congrArg Grants.policy (grants_deleteRow h)) id) c).trans
        (if_neg hne)
    · by_cases hm' : m.roleId = roleId
      · exact .inr (.inr ⟨_, List.mem_singleton_self _, rfl, rfl, congrArg some hm'.symm⟩)
      · exact .inl (List.mem_filter.mpr ⟨hm, decide_eq_true hm'⟩)

/-- The only tables that are carried along are those with the entry. -/
theorem deleteRole_builtinProtected {pending : RoleTables}
    (h : RoleService.deleteRole db actor roleId = .error (.builtinProtected pending)) :
    pending = db.log (builtinProtectedEntry actor roleId) := by
  rw [RoleService.deleteRole] at h
  cases hrole : db.getById roleId with
  | none =>
    rw [hrole] at h
    cases h
  | some existing =>
    rw [hrole] at h
    dsimp only at h
    split at h
    · exact (RoleError.builtinProtected.inj (Except.error.inj h)).symm
    · rename_i hbuiltin
      rw [RoleTables.delete, hrole] at h
      dsimp only at h
      rw [if_neg hbuiltin] at h
      cases h

end Delete

/-! ## Single mappings -/

section Single
variable {env : RoleEnv} {new : NewRows} {actor : Option String} {db db' : RoleTables}

theorem logsMapping_mappingEntry {text mappingId : String} (actor : Option String)
    (groupValue roleId action : String)
    (h : text = mappingId ∨ env.parseUuid text = some mappingId) :
    LogsMapping env (mappingEntry actor text groupValue roleId action) mappingId action :=
  ⟨rfl, rfl, ⟨text, rfl, h⟩, rfl⟩

/-- A change of the mappings alone. -/
theorem logged_of_mappings {entries : List LogRequest} (hroles : db'.roles = db.roles)
    (hpolicies : db'.policies = db.policies)
    (hcreated : ∀ m ∈ db'.mappings, m ∈ db.mappings ∨
      ∃ e ∈ entries, LogsMapping env e m.id "create")
    (hdeleted : ∀ m ∈ db.mappings, m ∈ db'.mappings ∨
      ∃ e ∈ entries, LogsMapping env e m.id "delete") : Logged env entries db db' := by
  have hrole : db'.grants.role = db.grants.role := by
    funext id
    show rowWith _ db'.roles id = rowWith _ db.roles id
    rw [hroles]
  have hpolicy : db'.grants.policy = db.grants.policy := by
    funext r c
    show rowWith _ db'.policies (r, c) = rowWith _ db.policies (r, c)
    rw [hpolicies]
  refine ⟨?_, ?_, ?_, ?_, fun _ _ hne => absurd (by rw [hpolicy]) hne, hcreated,
    fun m hm => (hdeleted m hm).imp_right .inl⟩
  all_goals exact fun _ hne => absurd (by rw [hrole]) hne

theorem createGroupMapping_ok {groupValue roleId roleName : String} {mapping : GroupMappingRow}
    (h : db.Consistent)
    (hok : createGroupMapping new actor db groupValue roleId = .ok (db', mapping, roleName)) :
    ServedAs env db db' (db.grants.withMapping (new.mapping roleId groupValue)) := by
  rw [createGroupMapping] at hok
  split at hok
  · cases hok
  split at hok
  · cases hok
  rename_i hfree
  cases hrole : db.getById roleId with
  | none =>
    rw [hrole] at hok
    cases hok
  | some role =>
    rw [hrole] at hok
    dsimp only at hok
    split at hok
    · cases hok
    rename_i hid
    obtain ⟨rfl, -⟩ := Prod.mk.inj (Except.ok.inj hok)
    rw [Bool.not_eq_true, Option.isSome_eq_false_iff, Option.isNone_iff_eq_none] at hfree
    simp only [List.any_eq_true, decide_eq_true_eq, not_exists, not_and] at hid
    refine ⟨served_mappings h (h.mappingId.concat hid) (h.groupValue.concat
      (rowWith_eq_none.mp hfree)) fun m hm => ?_, Grants.ext rfl (funext fun v => ?_) rfl, _, rfl,
      logged_of_mappings rfl rfl (fun m hm => ?_) fun m hm => .inl (List.mem_append_left _ hm)⟩
    · rcases List.mem_append.mp hm with hm | hm
      · exact h.mappingRole m hm
      · rw [List.mem_singleton.mp hm]
        exact ⟨role, mem_of_rowWith hrole⟩
    · show rowWith (fun m : GroupMappingRow => m.groupValue) (_ ++ _) v =
        Function.update (rowWith (·.groupValue) db.mappings) groupValue _ v
      rw [rowWith_append, rowWith_singleton]
      by_cases hv : v = groupValue
      · subst hv
        have hself : (new.mapping roleId v).groupValue = v := rfl
        rw [hfree, Option.none_or, if_pos hself, Function.update_self]
      · rw [if_neg fun heq => hv heq.symm, Option.or_none]
        exact (Function.update_of_ne hv _ _).symm
    · rcases List.mem_append.mp hm with hm | hm
      · exact .inl hm
      · rw [List.mem_singleton.mp hm]
        exact .inr ⟨_, List.mem_singleton_self _, logsMapping_mappingEntry _ _ _ _ (.inl rfl)⟩

theorem deleteGroupMapping_ok {text mappingId : String} (h : db.Consistent)
    (hparse : env.parseUuid text = some mappingId)
    (hok : deleteGroupMapping actor db text mappingId = .ok db') :
    ServedAs env db db' (db.grants.withoutMapping mappingId) := by
  rw [deleteGroupMapping] at hok
  cases hmapping : rowWith (fun m : GroupMappingRow => m.id) db.mappings mappingId with
  | none =>
    rw [hmapping] at hok
    cases hok
  | some mapping =>
    rw [hmapping] at hok
    obtain rfl := Except.ok.inj hok
    refine ⟨served_mappings h (h.mappingId.filter _) (h.groupValue.filter _)
      fun m hm => h.mappingRole m (List.mem_of_mem_filter hm),
      Grants.ext rfl (funext fun v => rowWith_filter h.groupValue _) rfl, _, rfl,
      logged_of_mappings rfl rfl (fun m hm => .inl (List.mem_of_mem_filter hm)) fun m hm => ?_⟩
    by_cases hm' : m.id = mappingId
    · exact .inr ⟨_, List.mem_singleton_self _, logsMapping_mappingEntry _ _ _ _
        (.inr (hm' ▸ hparse))⟩
    · exact .inl (List.mem_filter.mpr ⟨hm, decide_eq_true hm'⟩)

end Single

/-! ## Refusals -/

section Refusals
variable {env : RoleEnv} {new : NewRows} {actor : Option String} {roleId : String}
  {db : RoleTables}

/-- The exception is no `BuiltinProtectedError`. -/
def RoleError.IsPlain : RoleError → Prop
  | .builtinProtected _ => False
  | _ => True

theorem raisesOnly_syncPolicies (policies : List ConnectionPolicyItem) :
    RaisesOnly RoleError.IsPlain (syncRoleConnectionPolicies env new roleId db policies) := by
  rw [syncRoleConnectionPolicies]
  cases parsePolicyConnectionIds env policies with
  | none => exact raisesOnly_error trivial
  | some ids =>
    have hflush : ∀ changes : PolicyChanges, RaisesOnly RoleError.IsPlain
        (changes.flush env.storable db) :=
      fun changes => raisesOnly_ite (raisesOnly_ok _) (raisesOnly_error trivial)
    refine RaisesOnly.bind (raisesOnly_ite (raisesOnly_error trivial)
      (raisesOnly_ite (raisesOnly_ok _) (raisesOnly_error trivial))) fun _ => ?_
    refine RaisesOnly.bind (raisesOnly_ite (raisesOnly_ok _) (raisesOnly_error trivial)) fun _ => ?_
    exact (hflush _).bind fun _ => raisesOnly_ok _

theorem raisesOnly_claim (db : RoleTables) (v : String) :
    RaisesOnly RoleError.IsPlain (claimWithEntry new actor roleId db v) :=
  RaisesOnly.bind (raisesOnly_ite (raisesOnly_error trivial)
    (raisesOnly_ite (raisesOnly_error trivial) (raisesOnly_ok _))) fun _ => raisesOnly_ok _

theorem raisesOnly_syncMappings (requested : List String) :
    RaisesOnly RoleError.IsPlain (syncRoleGroupMappings new actor roleId db requested) := by
  refine RaisesOnly.bind (raisesOnly_foldlM (fun persisted v => ?_) _ _) fun _ => raisesOnly_ok _
  exact raisesOnly_ite (raisesOnly_ok _) ((raisesOnly_claim _ v).bind fun _ => raisesOnly_ok _)

/-- A request that touches a built-in role is refused before it has changed anything. -/
theorem updateRole_builtinProtected {body : RoleUpdate} {pending : RoleTables}
    (h : updateRole env new actor db roleId body = .error (.builtinProtected pending)) :
    pending = db := by
  have hother : ∀ e : RoleError, e.IsPlain → ∀ pending, e = .builtinProtected pending →
      pending = db := by
    rintro e he pending rfl
    exact he.elim
  have hservice : RaisesOnly (fun e => ∀ pending, e = .builtinProtected pending → pending = db)
      (RoleService.updateRole db roleId body.toRoleFields) := by
    have hself : ∀ pending, RoleError.builtinProtected db = .builtinProtected pending →
        pending = db := fun pending h => (RoleError.builtinProtected.inj h).symm
    rw [RoleService.updateRole]
    cases hrole : db.getById roleId with
    | none => exact raisesOnly_error (hother _ trivial)
    | some existing =>
      refine raisesOnly_ite (raisesOnly_error hself) (raisesOnly_ite
        (raisesOnly_error (hother _ trivial)) (raisesOnly_ite
          (raisesOnly_error (hother _ trivial)) (raisesOnly_ite
            (raisesOnly_error (hother _ trivial)) (raisesOnly_ite (raisesOnly_ok _) ?_))))
      rw [RoleTables.update, hrole]
      refine RaisesOnly.bind (raisesOnly_ite (raisesOnly_error hself) (raisesOnly_ok _)) ?_
      rintro ⟨updated, row⟩
      cases row with
      | none => exact raisesOnly_error (hother _ trivial)
      | some role => exact raisesOnly_ok _
  have hplain : ∀ {α : Type} {x : Except RoleError α}, RaisesOnly RoleError.IsPlain x →
      RaisesOnly (fun e => ∀ pending, e = .builtinProtected pending → pending = db) x :=
    fun hx e he => hother e (hx e he)
  refine RaisesOnly.bind hservice ?_ _ h pending rfl
  rintro ⟨db1, role, keys⟩
  refine RaisesOnly.bind (hplain ?_) ?_
  · cases body.connectionPolicies with
    | none => exact raisesOnly_ok _
    | some policies => exact raisesOnly_syncPolicies policies
  rintro ⟨db2, rows, changed⟩
  refine RaisesOnly.bind (hplain ?_) fun _ => raisesOnly_ok _
  cases body.groupMappings with
  | none => exact raisesOnly_ok _
  | some requested => exact raisesOnly_syncMappings requested

end Refusals

/-! ## The outcome -/

/-- Tables that a refused request leaves: the same, or the same with an entry. -/
inductive Refused (db : RoleTables) : RoleTables → Prop where
  | unchanged : Refused db db
  | logged (e : LogRequest) (h : e.action = .accessDenied) : Refused db (db.log e)

/-- A request is refused, or it is served and the grants are those. -/
def Outcome (env : RoleEnv) (db : RoleTables) (g : Grants) (x : RoleReply × RoleTables) : Prop :=
  x.1.isRefused = true ∧ Refused db x.2 ∨ x.1.isRefused = false ∧ ServedAs env db x.2 g

section Outcome
variable {env : RoleEnv} {new : NewRows} {actor : Option String} {db : RoleTables} {g : Grants}

theorem isRefused_refusal (e : RoleError) : (refusal e).isRefused = true := by
  cases e with
  | builtinProtected _ => rfl
  | duplicateName => rfl
  | duplicatePriority => rfl
  | notFound => rfl
  | invalidPermissions => rfl
  | http _ _ _ => rfl
  | internal => rfl

theorem isRefused_createRoleRefusal (e : RoleError) : (createRoleRefusal e).isRefused = true := by
  unfold createRoleRefusal
  split
  · rfl
  · exact isRefused_refusal _

theorem isRefused_deleteRoleRefusal (e : RoleError) : (deleteRoleRefusal e).isRefused = true := by
  unfold deleteRoleRefusal
  split
  · rfl
  · rfl
  · exact isRefused_refusal _

theorem outcome_unchanged {reply : RoleReply} (h : reply.isRefused = true) :
    Outcome env db g (reply, db) :=
  .inl ⟨h, .unchanged⟩

theorem outcome_createRole (h : db.Consistent) (body : RoleCreate) :
    Outcome env db ((RoleCall.createRole body).apply env new db.grants)
      ((RoleCall.createRole body).run env new actor db) := by
  rw [RoleCall.run]
  split
  · exact outcome_unchanged rfl
  · split
    · rename_i hok
      exact .inr ⟨rfl, createRole_ok h hok⟩
    · exact outcome_unchanged (isRefused_createRoleRefusal _)

theorem outcome_updateRole (h : db.Consistent) (roleId : String) (body : RoleUpdate) :
    Outcome env db ((RoleCall.updateRole roleId body).apply env new db.grants)
      ((RoleCall.updateRole roleId body).run env new actor db) := by
  rw [RoleCall.run]
  split
  · exact outcome_unchanged rfl
  · cases hparse : env.parseUuid roleId with
    | none => exact outcome_unchanged rfl
    | some id =>
      dsimp only
      split
      · rename_i hok
        obtain ⟨existing, hexisting, hserved⟩ := updateRole_ok h hok
        refine .inr ⟨rfl, ?_⟩
        have hrole : db.grants.role id = some existing := hexisting
        rw [RoleCall.apply, hparse, Option.elim_some, hrole, Option.elim_some]
        exact hserved
      · rename_i herror
        obtain rfl := updateRole_builtinProtected herror
        exact .inl ⟨rfl, .logged _ rfl⟩
      · exact outcome_unchanged (isRefused_refusal _)

theorem outcome_deleteRole (h : db.Consistent) (roleId : String) :
    Outcome env db ((RoleCall.deleteRole roleId).apply env new db.grants)
      ((RoleCall.deleteRole roleId).run env new actor db) := by
  rw [RoleCall.run, RoleCall.apply]
  cases env.parseUuid roleId with
  | none => exact outcome_unchanged rfl
  | some id =>
    dsimp only
    split
    · rename_i hok
      exact .inr ⟨rfl, deleteRole_ok h hok⟩
    · rename_i herror
      obtain rfl := deleteRole_builtinProtected herror
      exact .inl ⟨rfl, .logged _ rfl⟩
    · exact outcome_unchanged (isRefused_deleteRoleRefusal _)

theorem outcome_createGroupMapping (h : db.Consistent) (body : GroupMappingCreate) :
    Outcome env db ((RoleCall.createGroupMapping body).apply env new db.grants)
      ((RoleCall.createGroupMapping body).run env new actor db) := by
  rw [RoleCall.run, RoleCall.apply]
  cases env.parseUuid body.roleId with
  | none => exact outcome_unchanged rfl
  | some id =>
    dsimp only
    split
    · rename_i hok
      exact .inr ⟨rfl, createGroupMapping_ok h hok⟩
    · exact outcome_unchanged (isRefused_refusal _)

theorem outcome_deleteGroupMapping (h : db.Consistent) (mappingId : String) :
    Outcome env db ((RoleCall.deleteGroupMapping mappingId).apply env new db.grants)
      ((RoleCall.deleteGroupMapping mappingId).run env new actor db) := by
  rw [RoleCall.run, RoleCall.apply]
  cases hparse : env.parseUuid mappingId with
  | none => exact outcome_unchanged rfl
  | some id =>
    dsimp only
    split
    · rename_i hok
      exact .inr ⟨rfl, deleteGroupMapping_ok h hparse hok⟩
    · exact outcome_unchanged (isRefused_refusal _)

/-- The outcome of an endpoint. -/
theorem RoleCall.run_outcome (h : db.Consistent) (call : RoleCall) :
    Outcome env db (call.apply env new db.grants) (call.run env new actor db) := by
  cases call with
  | createRole body => exact outcome_createRole h body
  | updateRole roleId body => exact outcome_updateRole h roleId body
  | deleteRole roleId => exact outcome_deleteRole h roleId
  | createGroupMapping body => exact outcome_createGroupMapping h body
  | deleteGroupMapping mappingId => exact outcome_deleteGroupMapping h mappingId

/-- The outcome of a request. -/
theorem RoleRequest.perform_outcome (h : db.Consistent) (r : RoleRequest) :
    Outcome env db (r.call.apply env r.new db.grants) (r.perform env db) := by
  rw [RoleRequest.perform, requirePermission]
  cases denial r.session (db.getCurrentRole env.parseUuid r.session) [.adminRolesManage] with
  | some refusal => exact .inl ⟨rfl, .logged _ rfl⟩
  | none => exact r.call.run_outcome h

end Outcome

/-! ## What is left after a refusal -/

namespace Refused
variable {db db' : RoleTables}

theorem consistent (h : Refused db db') (hdb : db.Consistent) : db'.Consistent := by
  cases h with
  | unchanged => exact hdb
  | logged e _ => exact { hdb with }

theorem grants (h : Refused db db') : db'.grants = db.grants := by
  cases h with
  | unchanged => rfl
  | logged e _ => rfl

end Refused

end QueryCraft
