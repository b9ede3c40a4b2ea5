import QueryCraft.RoleGrants

/-! # What a served request does

For each of the calls, what follows when it is served (`Served`): the constraints of the tables
hold again, a built-in role keeps its protected fields and its users, a policy that is new or
has new values has filters that were accepted for its connection, and the audit log has an entry
for everything that changed (`Logged`).
-/
namespace QueryCraft

/-! ## Entries for changes -/

/-- The entry says that a field of the role changed, or that the role was created or deleted. -/
def LogsRoleField (e : LogRequest) (roleId field : String) : Prop :=
  e.resourceType = some "role" ∧ e.resourceId = some roleId ∧
    (e.action = .roleCreate ∨ e.action = .roleDelete ∨
      e.action = .roleUpdate ∧ ∃ fields, e.context.get "updated_fields" = .arr fields ∧
        .str field ∈ fields)

/-- The entry says that the mapping was created, or that it was deleted. -/
def LogsMapping (env : RoleEnv) (e : LogRequest) (mappingId action : String) : Prop :=
  e.action = .roleMappingChange ∧ e.resourceType = some "sso_group_mapping" ∧
    (∃ text, e.resourceId = some text ∧ (text = mappingId ∨ env.parseUuid text = some mappingId)) ∧
    e.context.get "action" = .str action

/-- The entry says that the role was deleted. -/
def LogsRoleDeletion (e : LogRequest) (roleId : String) : Prop :=
  e.action = .roleDelete ∧ e.resourceType = some "role" ∧ e.resourceId = some roleId

/-- Whatever changed in the tables, an entry says so: a field of a role, with its name, a policy,
a mapping.  Mappings also go with their role. -/
structure Logged (env : RoleEnv) (entries : List LogRequest) (db db' : RoleTables) : Prop where
  name : ∀ id, (db'.grants.role id).map (·.name) ≠ (db.grants.role id).map (·.name) →
    ∃ e ∈ entries, LogsRoleField e id "name"
  description : ∀ id,
    (db'.grants.role id).map (·.description) ≠ (db.grants.role id).map (·.description) →
    ∃ e ∈ entries, LogsRoleField e id "description"
  priority : ∀ id, (db'.grants.role id).map (·.priority) ≠ (db.grants.role id).map (·.priority) →
    ∃ e ∈ entries, LogsRoleField e id "priority"
  permissions : ∀ id,
    (db'.grants.role id).map (·.permissions) ≠ (db.grants.role id).map (·.permissions) →
    ∃ e ∈ entries, LogsRoleField e id "permissions"
  policy : ∀ id connectionId, db'.grants.policy id connectionId ≠ db.grants.policy id connectionId →
    ∃ e ∈ entries, LogsRoleField e id "connection_policies"
  created : ∀ m ∈ db'.mappings, m ∈ db.mappings ∨ ∃ e ∈ entries, LogsMapping env e m.id "create"
  deleted : ∀ m ∈ db.mappings, m ∈ db'.mappings ∨
    (∃ e ∈ entries, LogsMapping env e m.id "delete") ∨ ∃ e ∈ entries, LogsRoleDeletion e m.roleId

section Logged
variable {env : RoleEnv} {entries entries' : List LogRequest} {db db' db'' : RoleTables}

theorem Logged.refl : Logged env entries db db where
  name _ h := absurd rfl h
  description _ h := absurd rfl h
  priority _ h := absurd rfl h
  permissions _ h := absurd rfl h
  policy _ _ h := absurd rfl h
  created _ h := .inl h
  deleted _ h := .inl h

theorem exists_mem_append_of_ne {α β : Type*} {p : α → Prop} {entries entries' : List α}
    {a b c : β} (hab : b ≠ a → ∃ e ∈ entries, p e) (hbc : c ≠ b → ∃ e ∈ entries', p e)
    (hne : c ≠ a) : ∃ e ∈ entries ++ entries', p e := by
  by_cases hb : b = a
  · obtain ⟨e, he, hp⟩ := hbc (hb ▸ hne)
    exact ⟨e, List.mem_append_right _ he, hp⟩
  · obtain ⟨e, he, hp⟩ := hab hb
    exact ⟨e, List.mem_append_left _ he, hp⟩

theorem Logged.trans (h : Logged env entries db db') (h' : Logged env entries' db' db'') :
    Logged env (entries ++ entries') db db'' where
  name id := exists_mem_append_of_ne (h.name id) (h'.name id)
  description id := exists_mem_append_of_ne (h.description id) (h'.description id)
  priority id := exists_mem_append_of_ne (h.priority id) (h'.priority id)
  permissions id := exists_mem_append_of_ne (h.permissions id) (h'.permissions id)
  policy id c := exists_mem_append_of_ne (h.policy id c) (h'.policy id c)
  created := by
    intro m hm
    rcases h'.created m hm with hm | ⟨e, he, hlogs⟩
    · rcases h.created m hm with hm | ⟨e, he, hlogs⟩
      · exact .inl hm
      · exact .inr ⟨e, List.mem_append_left _ he, hlogs⟩
    · exact .inr ⟨e, List.mem_append_right _ he, hlogs⟩
  deleted := by
    intro m hm
    rcases h.deleted m hm with hm | ⟨e, he, hlogs⟩ | ⟨e, he, hlogs⟩
    · rcases h'.deleted m hm with hm | ⟨e, he, hlogs⟩ | ⟨e, he, hlogs⟩
      · exact .inl hm
      · exact .inr (.inl ⟨e, List.mem_append_right _ he, hlogs⟩)
      · exact .inr (.inr ⟨e, List.mem_append_right _ he, hlogs⟩)
    · exact .inr (.inl ⟨e, List.mem_append_left _ he, hlogs⟩)
    · exact .inr (.inr ⟨e, List.mem_append_left _ he, hlogs⟩)

end Logged

/-! ## Built-in roles -/

/-- The protected fields are the same. -/
def Role.SameProtected (r r' : Role) : Prop :=
  r'.id = r.id ∧ r'.name = r.name ∧ r'.permissions = r.permissions ∧ r'.isBuiltin = r.isBuiltin ∧
    r'.priority = r.priority

theorem Role.SameProtected.trans {r r' r'' : Role} (h : r.SameProtected r')
    (h' : r'.SameProtected r'') : r.SameProtected r'' := by
  obtain ⟨h1, h2, h3, h4, h5⟩ := h
  obtain ⟨h1', h2', h3', h4', h5'⟩ := h'
  exact ⟨h1'.trans h1, h2'.trans h2, h3'.trans h3, h4'.trans h4, h5'.trans h5⟩

/-- Built-in roles are kept, with their users. -/
structure BuiltinKept (db db' : RoleTables) : Prop where
  role : ∀ r ∈ db.roles, r.isBuiltin = true → ∃ r' ∈ db'.roles, r.SameProtected r'
  user : ∀ u ∈ db.users, ∀ r ∈ db.roles, r.isBuiltin = true → u.roleId = some r.id →
    u ∈ db'.users

theorem BuiltinKept.of_same {db db' : RoleTables} (hroles : db'.roles = db.roles)
    (husers : db'.users = db.users) : BuiltinKept db db' where
  role r hr _ := ⟨r, hroles ▸ hr, rfl, rfl, rfl, rfl, rfl⟩
  user _ hu _ _ _ _ := husers ▸ hu

/-! ## Served requests -/

/-- What follows when a request is served, or a part of it. -/
structure Served (env : RoleEnv) (db db' : RoleTables) : Prop where
  consistent : db'.Consistent
  builtin : BuiltinKept db db'
  identities : db'.identities = db.identities
  connections : db'.connections = db.connections
  schemaEntries : db'.schemaEntries = db.schemaEntries
  filters : ∀ p ∈ db'.policies, (∃ q ∈ db.policies, q.key = p.key ∧ q.values = p.values) ∨
    policyFiltersAccepted env db p.values p.connectionId = true

section Served
variable {env : RoleEnv} {new : NewRows} {actor : Option String} {roleId : String}
  {db db' db'' : RoleTables}

theorem Served.trans (h : Served env db db') (h' : Served env db' db'') : Served env db db'' where
  consistent := h'.consistent
  builtin :=
    { role := by
        intro r hr hbuiltin
        obtain ⟨r', hr', hsame⟩ := h.builtin.role r hr hbuiltin
        obtain ⟨r'', hr'', hsame'⟩ := h'.builtin.role r' hr' (hsame.2.2.2.1.trans hbuiltin)
        exact ⟨r'', hr'', hsame.trans hsame'⟩
      user := by
        intro u hu r hr hbuiltin hrole
        obtain ⟨r', hr', hid, -, -, hbuiltin', -⟩ := h.builtin.role r hr hbuiltin
        refine h'.builtin.user u (h.builtin.user u hu r hr hbuiltin hrole) r' hr'
          (hbuiltin'.trans hbuiltin) ?_
        rw [hid, hrole] }
  identities := h'.identities.trans h.identities
  connections := h'.connections.trans h.connections
  schemaEntries := h'.schemaEntries.trans h.schemaEntries
  filters := by
    intro p hp
    rcases h'.filters p hp with ⟨q, hq, hkey, hvalues⟩ | haccepted
    · rcases h.filters q hq with ⟨q', hq', hkey', hvalues'⟩ | haccepted
      · exact .inl ⟨q', hq', hkey'.trans hkey, hvalues'.trans hvalues⟩
      · have hconnection : q.connectionId = p.connectionId := (Prod.ext_iff.mp hkey).2
        rw [hvalues, hconnection] at haccepted
        exact .inr haccepted
    · rw [policyFiltersAccepted, h.connections, RoleTables.getSchemaEntries, h.schemaEntries]
        at haccepted
      exact .inr haccepted

/-- Policies may stay or go. -/
theorem filters_of_subset (h : ∀ p ∈ db'.policies, p ∈ db.policies) :
    ∀ p ∈ db'.policies, (∃ q ∈ db.policies, q.key = p.key ∧ q.values = p.values) ∨
      policyFiltersAccepted env db p.values p.connectionId = true :=
  fun p hp => .inl ⟨p, h p hp, rfl, rfl⟩

theorem served_log (h : db.Consistent) (e : LogRequest) : Served env db (db.log e) where
  consistent := { h with }
  builtin := .of_same rfl rfl
  identities := rfl
  connections := rfl
  schemaEntries := rfl
  filters := filters_of_subset fun _ hp => hp

/-- A role is added whose id, name and priority are free. -/
theorem served_create {role : Role} (h : db.Consistent) (hid : ∀ r ∈ db.roles, r.id ≠ role.id)
    (hname : ∀ r ∈ db.roles, r.name ≠ role.name)
    (hpriority : ∀ r ∈ db.roles, r.priority ≠ role.priority)
    (hpermissions : ∀ p ∈ role.permissions, p ∈ allowedPermissions) (hfits : role.Fits) :
    Served env db { db with roles := db.roles ++ [role] } := by
  have hmem : ∀ {P : Role → Prop}, (∃ r ∈ db.roles, P r) → ∃ r ∈ db.roles ++ [role], P r :=
    fun ⟨r, hr, hP⟩ => ⟨r, List.mem_append_left _ hr, hP⟩
  have hall : ∀ {P : Role → Prop}, (∀ r ∈ db.roles, P r) → P role →
      ∀ r ∈ db.roles ++ [role], P r := by
    intro P hold hnew r hr
    rcases List.mem_append.mp hr with hr | hr
    · exact hold r hr
    · exact List.mem_singleton.mp hr ▸ hnew
  exact
    { consistent :=
        { h with
          roleId := h.roleId.concat hid
          roleName := h.roleName.concat hname
          rolePriority := h.rolePriority.concat hpriority
          mappingRole := fun m hm => hmem (h.mappingRole m hm)
          policyRole := fun p hp => hmem (h.policyRole p hp)
          userRole := fun u hu roleId hrole => hmem (h.userRole u hu roleId hrole)
          permissions := hall h.permissions hpermissions
          fits := hall h.fits hfits }
      builtin :=
        { role := fun r hr _ => ⟨r, List.mem_append_left _ hr, rfl, rfl, rfl, rfl, rfl⟩
          user := fun u hu _ _ _ _ => hu }
      identities := rfl
      connections := rfl
      schemaEntries := rfl
      filters := filters_of_subset fun _ hp => hp }

/-- A role is replaced; its id stays, and so do the protected fields if it is built-in. -/
theorem served_update {role role' : Role} (h : db.Consistent)
    (hrole : db.getById roleId = some role) (hid : role'.id = roleId)
    (hname : ∀ r ∈ db.roles, r.name = role'.name → r.id = roleId)
    (hpriority : ∀ r ∈ db.roles, r.priority = role'.priority → r.id = roleId)
    (hpermissions : ∀ p ∈ role'.permissions, p ∈ allowedPermissions) (hfits : role'.Fits)
    (hbuiltin : role.isBuiltin = true → role.SameProtected role') :
    Served env db
      { db with roles := db.roles.map fun r => if r.id = roleId then role' else r } := by
  have hids : ∀ r : Role, (if r.id = roleId then role' else r).id = r.id := by
    intro r
    split
    · rename_i heq
      exact hid.trans heq.symm
    · rfl
  have hmem : ∀ {id : String}, (∃ r ∈ db.roles, r.id = id) →
      ∃ r ∈ db.roles.map (fun r => if r.id = roleId then role' else r), r.id = id := by
    rintro id ⟨r, hr, rfl⟩
    exact ⟨_, List.mem_map_of_mem hr, hids r⟩
  have hall : ∀ {P : Role → Prop}, (∀ r ∈ db.roles, P r) → P role' →
      ∀ r ∈ db.roles.map (fun r => if r.id = roleId then role' else r), P r := by
    intro P hold hnew r hr
    obtain ⟨s, hs, rfl⟩ := List.mem_map.mp hr
    split
    · exact hnew
    · exact hold s hs
  -- two rows with the same new name are the same row
  have hkey : ∀ {K : Type} {key : Role → K}, UniqueKey key db.roles →
      (∀ r ∈ db.roles, key r = key role' → r.id = roleId) →
      UniqueKey key (db.roles.map fun r => if r.id = roleId then role' else r) := by
    intro K key hold hfree
    rw [UniqueKey, List.map_map]
    refine List.Nodup.map_on (fun r hr r' hr' heq => ?_) (List.Nodup.of_map _ h.roleId)
    rw [Function.comp_apply, Function.comp_apply] at heq
    by_cases h1 : r.id = roleId
    · by_cases h2 : r'.id = roleId
      · exact h.roleId.eq hr hr' (h1.trans h2.symm)
      · rw [if_pos h1, if_neg h2] at heq
        exact absurd (hfree r' hr' heq.symm) h2
    · by_cases h2 : r'.id = roleId
      · rw [if_neg h1, if_pos h2] at heq
        exact absurd (hfree r hr heq) h1
      · rw [if_neg h1, if_neg h2] at heq
        exact hold.eq hr hr' heq
  exact
    { consistent :=
        { h with
          roleId := h.roleId.map fun r _ => hids r
          roleName := hkey h.roleName hname
          rolePriority := hkey h.rolePriority hpriority
          mappingRole := fun m hm => hmem (h.mappingRole m hm)
          policyRole := fun p hp => hmem (h.policyRole p hp)
          userRole := fun u hu roleId hrole => hmem (h.userRole u hu roleId hrole)
          permissions := hall h.permissions hpermissions
          fits := hall h.fits hfits }
      builtin :=
        { role := by
            intro r hr hprotected
            refine ⟨_, List.mem_map_of_mem hr, ?_⟩
            split
            · rename_i heq
              obtain ⟨hmem, hroleId⟩ := mem_of_rowWith hrole
              obtain rfl := h.roleId.eq hr hmem (heq.trans hroleId.symm)
              exact hbuiltin hprotected
            · exact ⟨rfl, rfl, rfl, rfl, rfl⟩
          user := fun _ hu _ _ _ _ => hu }
      identities := rfl
      connections := rfl
      schemaEntries := rfl
      filters := filters_of_subset fun _ hp => hp }

/-- A role that is not built-in is deleted. -/
theorem served_delete {role : Role} (h : db.Consistent)
    (hrole : db.getById roleId = some role) (hbuiltin : role.isBuiltin = false) :
    Served env db (db.deleteRow roleId) := by
  have hmem : ∀ {id : String}, id ≠ roleId → (∃ r ∈ db.roles, r.id = id) →
      ∃ r ∈ db.roles.filter (·.id ≠ roleId), r.id = id := by
    rintro id hne ⟨r, hr, rfl⟩
    exact ⟨r, List.mem_filter.mpr ⟨hr, decide_eq_true hne⟩, rfl⟩
  have hkept : ∀ {R : Type} {rows : List R} {roleIdOf : R → String} {r : R},
      r ∈ rows.filter (roleIdOf · ≠ roleId) → r ∈ rows ∧ roleIdOf r ≠ roleId := by
    intro R rows roleIdOf r hr
    exact ⟨(List.mem_filter.mp hr).1, of_decide_eq_true (List.mem_filter.mp hr).2⟩
  have hids : ∀ u ∈ db.users,
      (if u.roleId = some roleId then { u with roleId := none } else u).id = u.id := by
    intro u _
    split
    · rfl
    · rfl
  exact
    { consistent :=
        { roleId := h.roleId.filter _
          roleName := h.roleName.filter _
          rolePriority := h.rolePriority.filter _
          mappingId := h.mappingId.filter _
          groupValue := h.groupValue.filter _
          policyId := h.policyId.filter _
          policyKey := h.policyKey.filter _
          mappingRole := fun m hm => hmem (hkept hm).2 (h.mappingRole m (hkept hm).1)
          policyRole := fun p hp => hmem (hkept hp).2 (h.policyRole p (hkept hp).1)
          policyConnection := fun p hp => h.policyConnection p (hkept hp).1
          userId := h.userId.map hids
          userRole := by
            intro u hu id hid
            obtain ⟨v, hv, rfl⟩ := List.mem_map.mp hu
            split at hid
            · cases hid
            · rename_i hne
              exact hmem (fun heq => hne (heq ▸ hid)) (h.userRole v hv id hid)
          permissions := fun r hr => h.permissions r (hkept hr).1
          fits := fun r hr => h.fits r (hkept hr).1 }
      builtin := by
        have hother : ∀ r ∈ db.roles, r.isBuiltin = true → r.id ≠ roleId := by
          intro r hr hprotected heq
          obtain ⟨hmem, hroleId⟩ := mem_of_rowWith hrole
          rw [h.roleId.eq hr hmem (heq.trans hroleId.symm), hbuiltin] at hprotected
          cases hprotected
        refine ⟨fun r hr hprotected => ⟨r, ?_, rfl, rfl, rfl, rfl, rfl⟩,
          fun u hu r hr hprotected huser => ?_⟩
        · exact List.mem_filter.mpr ⟨hr, decide_eq_true (hother r hr hprotected)⟩
        · refine List.mem_map.mpr ⟨u, hu, if_neg fun heq => ?_⟩
          rw [huser] at heq
          exact hother r hr hprotected (Option.some.inj heq)
      identities := rfl
      connections := rfl
      schemaEntries := rfl
      filters := filters_of_subset fun _ hp => (hkept hp).1 }

/-- The policies of a role are synced. -/
theorem served_policies {requested : List (ConnectionPolicyItem × String)} (h : db.Consistent)
    (hrole : ∃ r ∈ db.roles, r.id = roleId)
    (hrequested : ∀ item ∈ requested, (∃ c ∈ db.connections, c.id = item.2) ∧
      policyFiltersAccepted env db item.1.toPolicyValues item.2 = true)
    (hsynced : PoliciesSynced env new roleId requested db db') : Served env db db' := by
  have hpolicies := hsynced.role
  have hid := hsynced.policyId
  have hkey := hsynced.policyKey
  rw [hsynced.frame]
  exact
    { consistent :=
        { h with
          policyId := hid
          policyKey := hkey
          policyRole := by
            intro p hp
            rcases hpolicies p hp with hp | ⟨rfl, -⟩
            · exact h.policyRole p hp
            · exact hrole
          policyConnection := by
            intro p hp
            rcases hpolicies p hp with hp | ⟨-, item, hitem, hconnection, -⟩
            · exact h.policyConnection p hp
            · exact hconnection ▸ (hrequested item hitem).1 }
      builtin := .of_same rfl rfl
      identities := rfl
      connections := rfl
      schemaEntries := rfl
      filters := by
        intro p hp
        rcases hpolicies p hp with hp | ⟨-, item, hitem, hconnection, hvalues⟩
        · exact .inl ⟨p, hp, rfl, rfl⟩
        · rw [hvalues, ← hconnection]
          exact .inr (hrequested item hitem).2 }

/-- Mappings change; a new one is for a role that is there. -/
theorem served_mappings {mappings : List GroupMappingRow} {audit : List LogRequest}
    (h : db.Consistent) (hid : UniqueKey (·.id) mappings)
    (hgroup : UniqueKey (·.groupValue) mappings)
    (hrole : ∀ m ∈ mappings, ∃ r ∈ db.roles, r.id = m.roleId) :
    Served env db { db with mappings, audit } where
  consistent := { h with mappingId := hid, groupValue := hgroup, mappingRole := hrole }
  builtin := .of_same rfl rfl
  identities := rfl
  connections := rfl
  schemaEntries := rfl
  filters := filters_of_subset fun _ hp => hp

theorem served_groups {requested : List String} (h : db.Consistent)
    (hrole : ∃ r ∈ db.roles, r.id = roleId)
    (hsynced : GroupsSynced new actor roleId requested db db') : Served env db db' := by
  rw [hsynced.frame]
  refine served_mappings h hsynced.mappingId hsynced.groupValue fun m hm => ?_
  rcases hsynced.role m hm with hm | rfl
  · exact h.mappingRole m hm
  · exact hrole

end Served

/-! ## The service -/

namespace RoleFields
variable (fields : RoleFields) (role : Role)

/-- Setting the changed fields is setting all of them. -/
theorem set_changed : (fields.changed role).set role = fields.set role := by
  have hfield : ∀ {α : Type} [DecidableEq α] (new : Option α) (old : α),
      (new.filter (· ≠ old)).getD old = new.getD old := by
    intro α _ new old
    cases new with
    | none => rfl
    | some a =>
      rw [Option.filter_some]
      by_cases ha : a = old
      · simp [ha]
      · simp [ha]
  have hdescription : ((fields.description.filter (some · ≠ role.description)).map some).getD
      role.description = (fields.description.map some).getD role.description := by
    cases fields.description with
    | none => rfl
    | some d =>
      rw [Option.filter_some]
      by_cases hd : some d = role.description
      · rw [if_neg (by rw [decide_eq_true_eq]; exact fun h => h hd)]
        exact hd.symm
      · rw [if_pos (decide_eq_true hd)]
  rw [set, set, changed]
  simp only [hfield, hdescription]

/-- Without changed fields a role stays as it is. -/
theorem set_eq_self (h : (fields.changed role).keys = []) : fields.set role = role := by
  rw [← set_changed]
  simp only [keys, List.append_eq_nil_iff, ite_eq_right_iff, List.cons_ne_nil, imp_false,
    Bool.not_eq_true, Option.isSome_eq_false_iff, Option.isNone_iff_eq_none] at h
  obtain ⟨⟨⟨hname, hdescription⟩, hpriority⟩, hpermissions⟩ := h
  rw [set, hname, hdescription, hpriority, hpermissions]
  rfl

/-- Without protected fields the protected fields stay. -/
theorem set_sameProtected (h : fields.attemptsProtected = false) :
    role.SameProtected (fields.set role) := by
  simp only [attemptsProtected, Bool.or_eq_false_iff, Option.isSome_eq_false_iff,
    Option.isNone_iff_eq_none] at h
  obtain ⟨⟨hname, hpermissions⟩, hpriority⟩ := h
  refine ⟨rfl, ?_, ?_, rfl, ?_⟩
  · rw [set, hname]
    rfl
  · rw [set, hpermissions]
    rfl
  · rw [set, hpriority]
    rfl

end RoleFields

section Service
variable {env : RoleEnv} {actor : Option String} {roleId : String} {db db' : RoleTables}

theorem mem_of_permissionsAllowed {permissions : List String}
    (h : permissionsAllowed permissions = true) : ∀ p ∈ permissions, p ∈ allowedPermissions := by
  intro p hp
  simpa using List.all_eq_true.mp h p hp

/-- The role was free, and has an entry. -/
theorem createRole_service_ok {role : Role} (h : db.Consistent) (hfits : role.Fits)
    (hok : RoleService.createRole db actor role = .ok db') :
    db' = ({ db with roles := db.roles ++ [role] } : RoleTables).log
        (roleCreateEntry actor role) ∧
      db.getById role.id = none ∧ Served env db db' := by
  rw [RoleService.createRole] at hok
  split at hok
  · cases hok
  rename_i hname
  split at hok
  · cases hok
  rename_i hpriority
  split at hok
  · cases hok
  rename_i hpermissions
  obtain ⟨created, hcreate, hok⟩ := bind_eq_ok.mp hok
  obtain rfl := pure_eq_ok.mp hok
  rw [RoleTables.create] at hcreate
  split at hcreate
  · cases hcreate
  rename_i hid
  obtain rfl := Except.ok.inj hcreate
  simp only [List.any_eq_true, decide_eq_true_eq, not_exists, not_and] at hid
  rw [Bool.not_eq_true, Option.isSome_eq_false_iff, Option.isNone_iff_eq_none] at hname hpriority
  rw [Bool.not_eq_true, Bool.not_eq_false'] at hpermissions
  refine ⟨rfl, rowWith_eq_none.mpr hid, ?_⟩
  have hserved : Served env db { db with roles := db.roles ++ [role] } :=
    served_create h hid (rowWith_eq_none.mp hname) (rowWith_eq_none.mp hpriority)
      (mem_of_permissionsAllowed hpermissions) hfits
  exact hserved.trans (served_log hserved.consistent _)

/-- What `RoleService.update_role` has checked, and the row it leaves. -/
theorem updateRole_service_ok {fields : RoleFields} {role : Role} {keys : List String}
    (h : db.Consistent) (hok : RoleService.updateRole db roleId fields = .ok (db', role, keys)) :
    ∃ existing, db.getById roleId = some existing ∧
      (existing.isBuiltin = true → fields.attemptsProtected = false) ∧
      (∀ r ∈ db.roles, r.name = (fields.set existing).name → r.id = roleId) ∧
      (∀ r ∈ db.roles, r.priority = (fields.set existing).priority → r.id = roleId) ∧
      (∀ p ∈ (fields.set existing).permissions, p ∈ allowedPermissions) ∧
      role = fields.set existing ∧ keys = (fields.changed existing).keys ∧
      db' = { db with roles := db.roles.map fun r => if r.id = roleId then role else r } := by
  rw [RoleService.updateRole] at hok
  cases hrole : db.getById roleId with
  | none =>
    rw [hrole] at hok
    cases hok
  | some existing =>
    rw [hrole] at hok
    obtain ⟨hmem, hid⟩ := mem_of_rowWith hrole
    dsimp only at hok
    split at hok
    · cases hok
    rename_i hbuiltin
    split at hok
    · cases hok
    rename_i hname
    split at hok
    · cases hok
    rename_i hpriority
    split at hok
    · cases hok
    rename_i hpermissions
    rw [Bool.and_eq_true, not_and, Bool.not_eq_true] at hbuiltin
    have hfree : ∀ {K : Type} [DecidableEq K] {key : Role → K} {new : Option K},
        UniqueKey key db.roles →
        ¬ (new.any fun k => (rowWith key db.roles k).any fun r => decide (r.id ≠ roleId)) = true →
        ∀ r ∈ db.roles, key r = new.getD (key existing) → r.id = roleId := by
      intro K _ key new hkey hnone r hr heq
      cases new with
      | none => exact hkey.eq hr hmem heq ▸ hid
      | some k =>
        by_contra hne
        have hfind : rowWith key db.roles k = some r := (rowWith_eq_some hkey).mpr ⟨hr, heq⟩
        refine hnone ?_
        rw [Option.any_some, hfind, Option.any_some]
        exact decide_eq_true hne
    have hallowed : ∀ p ∈ (fields.set existing).permissions, p ∈ allowedPermissions := by
      intro p hp
      rw [RoleFields.set] at hp
      cases hnew : fields.permissions with
      | none =>
        rw [hnew] at hp
        exact h.permissions existing hmem p hp
      | some permissions =>
        rw [hnew] at hp hpermissions
        rw [Bool.not_eq_true, Bool.not_eq_false'] at hpermissions
        exact mem_of_permissionsAllowed hpermissions p hp
    have hsame : (db.roles.map fun r => if r.id = roleId then (fields.changed existing).set r
        else r) = db.roles.map fun r => if r.id = roleId then fields.set existing else r := by
      refine List.map_congr_left fun r hr => ?_
      split
      · rename_i heq
        rw [h.roleId.eq hr hmem (heq.trans hid.symm), RoleFields.set_changed]
      · rfl
    refine ⟨existing, rfl, hbuiltin, hfree h.roleName hname, hfree h.rolePriority hpriority,
      hallowed, ?_⟩
    split at hok
    · rename_i hkeys
      obtain ⟨rfl, hrest⟩ := Prod.mk.inj (Except.ok.inj hok)
      obtain ⟨rfl, rfl⟩ := Prod.mk.inj hrest
      rw [RoleFields.set_eq_self _ _ hkeys]
      refine ⟨rfl, hkeys.symm, ?_⟩
      have hmap : (db.roles.map fun r => if r.id = roleId then existing else r) = db.roles := by
        refine (List.map_congr_left fun r hr => ?_).trans (List.map_id _)
        split
        · rename_i heq
          exact h.roleId.eq hmem hr (hid.trans heq.symm)
        · rfl
      rw [hmap]
    · obtain ⟨⟨updated, row⟩, hupdate, hok⟩ := bind_eq_ok.mp hok
      rw [RoleTables.update, hrole] at hupdate
      dsimp only at hupdate
      split at hupdate
      · cases hupdate
      obtain ⟨rfl, rfl⟩ := Prod.mk.inj (Except.ok.inj hupdate)
      obtain ⟨rfl, hrest⟩ := Prod.mk.inj (pure_eq_ok.mp hok)
      obtain ⟨rfl, rfl⟩ := Prod.mk.inj hrest
      rw [hsame, RoleFields.set_changed]
      exact ⟨rfl, rfl, rfl⟩

end Service

end QueryCraft
