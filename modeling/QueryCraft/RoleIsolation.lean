import QueryCraft.RoleRuns

/-! # Refused requests

What a refused request leaves behind is an entry of the audit log at most, and no request reads
the audit log.  So refused requests can be taken out of a run: the other replies and the tables
stay the same, up to the audit log (`refused_requests_isolated`).  In particular nobody without
the permission has any influence on roles, policies and mappings, nor on what administrators are
told.
-/
namespace QueryCraft

variable {env : RoleEnv} {new : NewRows} {actor : Option String} {roleId : String}
  {db db' : RoleTables}

/-! ## Tables up to the audit log -/

/-- The tables are the same, up to the audit log. -/
def SameTables (db db' : RoleTables) : Prop := ∃ audit, db' = { db with audit }

theorem SameTables.refl (db : RoleTables) : SameTables db db := ⟨db.audit, rfl⟩

theorem SameTables.symm (h : SameTables db db') : SameTables db' db := by
  obtain ⟨audit, rfl⟩ := h
  exact ⟨db.audit, rfl⟩

theorem SameTables.trans {db'' : RoleTables} (h : SameTables db db') (h' : SameTables db' db'') :
    SameTables db db'' := by
  obtain ⟨audit, rfl⟩ := h
  obtain ⟨audit', rfl⟩ := h'
  exact ⟨audit', rfl⟩

theorem SameTables.log (h : SameTables db db') (e e' : LogRequest) :
    SameTables (db.log e) (db'.log e') := by
  obtain ⟨audit, rfl⟩ := h
  exact ⟨_, rfl⟩

theorem Refused.sameTables (h : Refused db db') : SameTables db db' := by
  cases h with
  | unchanged => exact .refl db
  | logged e _ => exact ⟨_, rfl⟩

/-- The tables and the rest of a result. -/
def SameResult {β : Type} (x y : RoleTables × β) : Prop := SameTables x.1 y.1 ∧ x.2 = y.2

/-- The same exception, with the same tables. -/
inductive SameError : RoleError → RoleError → Prop where
  | builtinProtected {pending pending' : RoleTables} (h : SameTables pending pending') :
    SameError (.builtinProtected pending) (.builtinProtected pending')
  | plain {e : RoleError} (h : e.IsPlain) : SameError e e

/-! ## The service -/

theorem inStep_createRole_service (h : SameTables db db') (role : Role) :
    InStep SameTables SameError (RoleService.createRole db actor role)
      (RoleService.createRole db' actor role) := by
  obtain ⟨audit, rfl⟩ := h
  refine inStep_ite (.error (.plain trivial)) (inStep_ite (.error (.plain trivial))
    (inStep_ite (.error (.plain trivial)) ?_))
  refine InStep.bind (R := SameTables) ?_ fun _ _ h => .ok (h.log _ _)
  exact inStep_ite (.error (.plain trivial)) (.ok ⟨audit, rfl⟩)

theorem inStep_updateRole_service (h : SameTables db db') (fields : RoleFields) :
    InStep SameResult SameError (RoleService.updateRole db roleId fields)
      (RoleService.updateRole db' roleId fields) := by
  have hsame := h
  obtain ⟨audit, rfl⟩ := h
  rw [RoleService.updateRole, RoleService.updateRole]
  have hget : ({ db with audit } : RoleTables).getById roleId = db.getById roleId := rfl
  rw [hget]
  cases hrole : db.getById roleId with
  | none => exact .error (.plain trivial)
  | some existing =>
    refine inStep_ite (.error (.builtinProtected hsame)) (inStep_ite (.error (.plain trivial))
      (inStep_ite (.error (.plain trivial)) (inStep_ite (.error (.plain trivial))
        (inStep_ite (.ok ⟨hsame, rfl⟩) ?_))))
    have hupdate : InStep SameResult SameError (db.update roleId (fields.changed existing))
        (({ db with audit } : RoleTables).update roleId (fields.changed existing)) := by
      rw [RoleTables.update, RoleTables.update, hget, hrole]
      exact inStep_ite (.error (.builtinProtected hsame)) (.ok ⟨⟨audit, rfl⟩, rfl⟩)
    refine hupdate.bind ?_
    rintro ⟨updated, row⟩ ⟨updated', row'⟩ ⟨hupdated, hrow⟩
    obtain rfl : row = row' := hrow
    cases row with
    | none => exact .error (.plain trivial)
    | some role => exact .ok ⟨hupdated, rfl⟩

theorem inStep_deleteRole_service (h : SameTables db db') :
    InStep SameTables SameError (RoleService.deleteRole db actor roleId)
      (RoleService.deleteRole db' actor roleId) := by
  have hsame := h
  obtain ⟨audit, rfl⟩ := h
  rw [RoleService.deleteRole, RoleService.deleteRole]
  have hget : ({ db with audit } : RoleTables).getById roleId = db.getById roleId := rfl
  rw [hget]
  cases hrole : db.getById roleId with
  | none => exact .error (.plain trivial)
  | some existing =>
    refine inStep_ite (.error (.builtinProtected (hsame.log _ _))) ?_
    have hdelete : InStep SameResult SameError (db.delete roleId)
        (({ db with audit } : RoleTables).delete roleId) := by
      rw [RoleTables.delete, RoleTables.delete, hget, hrole]
      exact inStep_ite (.error (.builtinProtected hsame)) (.ok ⟨⟨audit, rfl⟩, rfl⟩)
    refine hdelete.bind ?_
    rintro ⟨deleted, found⟩ ⟨deleted', found'⟩ ⟨hdeleted, hfound⟩
    obtain rfl : found = found' := hfound
    exact inStep_ite (.ok (hdeleted.log _ _)) (.error (.plain trivial))

/-! ## Mappings and policies -/

theorem inStep_claim (h : SameTables db db') (v : String) :
    InStep SameTables SameError (claimWithEntry new actor roleId db v)
      (claimWithEntry new actor roleId db' v) := by
  obtain ⟨audit, rfl⟩ := h
  refine InStep.bind (R := SameTables) ?_ fun _ _ h => .ok (h.log _ _)
  exact inStep_ite (.error (.plain trivial)) (inStep_ite (.error (.plain trivial))
    (.ok ⟨audit, rfl⟩))

theorem inStep_createMappings (h : SameTables db db') (values : List String) :
    InStep SameResult SameError (createRoleGroupMappings new actor roleId db values)
      (createRoleGroupMappings new actor roleId db' values) :=
  (inStep_foldlM (fun _ _ v h => inStep_claim h v) values h).bind fun _ _ h => .ok ⟨h, rfl⟩

theorem sameTables_foldl {R : Type} {f : RoleTables → R → RoleTables}
    (hf : ∀ db db' r, SameTables db db' → SameTables (f db r) (f db' r)) :
    ∀ (rows : List R) {db db' : RoleTables}, SameTables db db' →
      SameTables (rows.foldl f db) (rows.foldl f db')
  | [], _, _, h => h
  | r :: rows, _, _, h => sameTables_foldl hf rows (hf _ _ r h)

theorem sameTables_deleteUnrequested (requested : List String) (db db' : RoleTables)
    (m : GroupMappingRow) (h : SameTables db db') :
    SameTables (deleteUnrequested actor requested db m)
      (deleteUnrequested actor requested db' m) := by
  rw [deleteUnrequested, deleteUnrequested]
  split
  · exact h
  · obtain ⟨audit, rfl⟩ := h
    exact ⟨_, rfl⟩

theorem inStep_syncMappings (h : SameTables db db') (requested : List String) :
    InStep SameResult SameError (syncRoleGroupMappings new actor roleId db requested)
      (syncRoleGroupMappings new actor roleId db' requested) := by
  have hrows : db'.roleGroupMappingRows roleId = db.roleGroupMappingRows roleId := by
    obtain ⟨audit, rfl⟩ := h
    rfl
  rw [syncRoleGroupMappings, syncRoleGroupMappings, hrows]
  refine InStep.bind (inStep_foldlM (R := SameResult) (fun x y v hxy => ?_) requested
    ⟨sameTables_foldl (sameTables_deleteUnrequested requested) _ h, rfl⟩) ?_
  · obtain ⟨hdb, hpersisted⟩ := hxy
    rw [claimUnlessPersisted, claimUnlessPersisted, hpersisted]
    exact inStep_ite (.ok ⟨hdb, hpersisted⟩)
      ((inStep_claim hdb v).bind fun _ _ h => .ok ⟨h, rfl⟩)
  · rintro ⟨claimed, persisted⟩ ⟨claimed', persisted'⟩ ⟨hclaimed, hpersisted⟩
    obtain rfl : persisted = persisted' := hpersisted
    exact .ok ⟨hclaimed, rfl⟩

theorem inStep_syncPolicies (h : SameTables db db') (policies : List ConnectionPolicyItem) :
    InStep SameResult SameError (syncRoleConnectionPolicies env new roleId db policies)
      (syncRoleConnectionPolicies env new roleId db' policies) := by
  obtain ⟨audit, rfl⟩ := h
  rw [syncRoleConnectionPolicies, syncRoleConnectionPolicies]
  cases parsePolicyConnectionIds env policies with
  | none => exact .error (.plain trivial)
  | some ids =>
    refine InStep.bind (R := fun _ _ => True) ?_ fun _ _ _ =>
      InStep.bind (R := fun _ _ => True) ?_ fun _ _ _ => InStep.bind (R := SameTables) ?_ ?_
    · exact inStep_ite (.error (.plain trivial))
        (inStep_ite (.ok trivial) (.error (.plain trivial)))
    · exact inStep_ite (.ok trivial) (.error (.plain trivial))
    · exact inStep_ite (.ok ⟨audit, rfl⟩) (.error (.plain trivial))
    · rintro flushed flushed' ⟨audit', rfl⟩
      exact .ok ⟨⟨audit', rfl⟩, rfl⟩

theorem inStep_updatePolicies (h : SameTables db db')
    (policies : Option (List ConnectionPolicyItem)) :
    InStep SameResult SameError (updateConnectionPolicies env new db roleId policies)
      (updateConnectionPolicies env new db' roleId policies) := by
  cases policies with
  | none =>
    obtain ⟨audit, rfl⟩ := h
    exact .ok ⟨⟨audit, rfl⟩, rfl⟩
  | some policies => exact inStep_syncPolicies h policies

theorem inStep_updateMappings (h : SameTables db db') (groupMappings : Option (List String)) :
    InStep SameResult SameError (updateGroupMappings new actor db roleId groupMappings)
      (updateGroupMappings new actor db' roleId groupMappings) := by
  cases groupMappings with
  | none =>
    obtain ⟨audit, rfl⟩ := h
    exact .ok ⟨⟨audit, rfl⟩, rfl⟩
  | some requested => exact inStep_syncMappings h requested

theorem sameTables_auditRoleUpdate (h : SameTables db db') (updatedFields : List String) :
    SameTables (auditRoleUpdate actor db roleId updatedFields)
      (auditRoleUpdate actor db' roleId updatedFields) := by
  rw [auditRoleUpdate, auditRoleUpdate]
  split
  · exact h
  · exact h.log _ _

/-! ## Requests -/

theorem inStep_createRole (h : SameTables db db') (body : RoleCreate) :
    InStep SameResult SameError (createRole env new actor db body)
      (createRole env new actor db' body) := by
  refine (inStep_createRole_service h _).bind fun db1 db1' h1 => ?_
  refine (inStep_syncPolicies h1 _).bind ?_
  rintro ⟨db2, rows, changed⟩ ⟨db2', rest⟩ ⟨h2, heq⟩
  obtain rfl : (rows, changed) = rest := heq
  refine (inStep_createMappings h2 _).bind ?_
  rintro ⟨db3, mappings⟩ ⟨db3', mappings'⟩ ⟨h3, heq⟩
  obtain rfl : mappings = mappings' := heq
  exact .ok ⟨h3, rfl⟩

theorem inStep_updateRole (h : SameTables db db') (body : RoleUpdate) :
    InStep SameResult SameError (updateRole env new actor db roleId body)
      (updateRole env new actor db' roleId body) := by
  refine (inStep_updateRole_service h _).bind ?_
  rintro ⟨db1, role, keys⟩ ⟨db1', rest⟩ ⟨h1, heq⟩
  obtain rfl : (role, keys) = rest := heq
  refine (inStep_updatePolicies h1 _).bind ?_
  rintro ⟨db2, rows, changed⟩ ⟨db2', rest⟩ ⟨h2, heq⟩
  obtain rfl : (rows, changed) = rest := heq
  refine (inStep_updateMappings (sameTables_auditRoleUpdate h2 _) _).bind ?_
  rintro ⟨db3, mappings⟩ ⟨db3', mappings'⟩ ⟨h3, heq⟩
  obtain rfl : mappings = mappings' := heq
  exact .ok ⟨h3, rfl⟩

theorem inStep_createGroupMapping (h : SameTables db db') (groupValue : String) :
    InStep SameResult SameError (createGroupMapping new actor db groupValue roleId)
      (createGroupMapping new actor db' groupValue roleId) := by
  obtain ⟨audit, rfl⟩ := h
  refine inStep_ite (.error (.plain trivial)) (inStep_ite (.error (.plain trivial)) ?_)
  have hget : ({ db with audit } : RoleTables).getById roleId = db.getById roleId := rfl
  rw [hget]
  cases db.getById roleId with
  | none => exact .error (.plain trivial)
  | some role => exact inStep_ite (.error (.plain trivial)) (.ok ⟨⟨_, rfl⟩, rfl⟩)

theorem inStep_deleteGroupMapping (h : SameTables db db') (text mappingId : String) :
    InStep SameTables SameError (deleteGroupMapping actor db text mappingId)
      (deleteGroupMapping actor db' text mappingId) := by
  obtain ⟨audit, rfl⟩ := h
  rw [deleteGroupMapping, deleteGroupMapping]
  cases rowWith (fun m : GroupMappingRow => m.id) db.mappings mappingId with
  | none => exact .error (.plain trivial)
  | some mapping => exact .ok ⟨_, rfl⟩

/-- The same reply, and the same tables. -/
def SameReply {R : Type} (x y : R × RoleTables) : Prop := x.1 = y.1 ∧ SameTables x.2 y.2

theorem refusal_congr {e e' : RoleError} (h : SameError e e') : refusal e = refusal e' := by
  cases h with
  | builtinProtected _ => rfl
  | plain _ => rfl

theorem createRoleRefusal_congr {e e' : RoleError} (h : SameError e e') :
    createRoleRefusal e = createRoleRefusal e' := by
  cases h with
  | builtinProtected _ => rfl
  | plain _ => rfl

theorem sameReply_createRole (h : SameTables db db') (body : RoleCreate) :
    SameReply ((RoleCall.createRole body).run env new actor db)
      ((RoleCall.createRole body).run env new actor db') := by
  have hstep : InStep SameResult SameError (createRole env new actor db body)
      (createRole env new actor db' body) := inStep_createRole h body
  rw [RoleCall.run, RoleCall.run]
  split
  · exact ⟨rfl, h⟩
  · generalize createRole env new actor db body = x at hstep ⊢
    generalize createRole env new actor db' body = y at hstep ⊢
    cases hstep with
    | @ok x y hxy =>
      obtain ⟨created, detail⟩ := x
      obtain ⟨created', detail'⟩ := y
      obtain ⟨hcreated, rfl⟩ : SameTables created created' ∧ detail = detail' := hxy
      exact ⟨rfl, hcreated⟩
    | error he => exact ⟨createRoleRefusal_congr he, h⟩

theorem sameReply_updateRole (h : SameTables db db') (text : String) (body : RoleUpdate) :
    SameReply ((RoleCall.updateRole text body).run env new actor db)
      ((RoleCall.updateRole text body).run env new actor db') := by
  rw [RoleCall.run, RoleCall.run]
  split
  · exact ⟨rfl, h⟩
  · cases env.parseUuid text with
    | none => exact ⟨rfl, h⟩
    | some id =>
      have hstep : InStep SameResult SameError (updateRole env new actor db id body)
          (updateRole env new actor db' id body) := inStep_updateRole h body
      dsimp only
      generalize updateRole env new actor db id body = x at hstep ⊢
      generalize updateRole env new actor db' id body = y at hstep ⊢
      cases hstep with
      | @ok x y hxy =>
        obtain ⟨updated, detail⟩ := x
        obtain ⟨updated', detail'⟩ := y
        obtain ⟨hupdated, rfl⟩ : SameTables updated updated' ∧ detail = detail' := hxy
        exact ⟨rfl, hupdated⟩
      | @error e e' he =>
        cases he with
        | builtinProtected hpending => exact ⟨rfl, hpending.log _ _⟩
        | plain hplain =>
          cases e with
          | builtinProtected _ => exact False.elim hplain
          | _ => exact ⟨rfl, h⟩

theorem sameReply_deleteRole (h : SameTables db db') (text : String) :
    SameReply ((RoleCall.deleteRole text).run env new actor db)
      ((RoleCall.deleteRole text).run env new actor db') := by
  rw [RoleCall.run, RoleCall.run]
  cases env.parseUuid text with
  | none => exact ⟨rfl, h⟩
  | some id =>
    have hstep : InStep SameTables SameError (RoleService.deleteRole db actor id)
        (RoleService.deleteRole db' actor id) := inStep_deleteRole_service h
    dsimp only
    generalize RoleService.deleteRole db actor id = x at hstep ⊢
    generalize RoleService.deleteRole db' actor id = y at hstep ⊢
    cases hstep with
    | ok hdeleted => exact ⟨rfl, hdeleted⟩
    | @error e e' he =>
      cases he with
      | builtinProtected hpending => exact ⟨rfl, hpending⟩
      | plain hplain =>
        cases e with
        | builtinProtected _ => exact False.elim hplain
        | _ => exact ⟨rfl, h⟩

theorem sameReply_createGroupMapping (h : SameTables db db') (body : GroupMappingCreate) :
    SameReply ((RoleCall.createGroupMapping body).run env new actor db)
      ((RoleCall.createGroupMapping body).run env new actor db') := by
  rw [RoleCall.run, RoleCall.run]
  cases env.parseUuid body.roleId with
  | none => exact ⟨rfl, h⟩
  | some id =>
    have hstep : InStep SameResult SameError (createGroupMapping new actor db body.groupValue id)
        (createGroupMapping new actor db' body.groupValue id) := inStep_createGroupMapping h _
    dsimp only
    generalize createGroupMapping new actor db body.groupValue id = x at hstep ⊢
    generalize createGroupMapping new actor db' body.groupValue id = y at hstep ⊢
    cases hstep with
    | @ok x y hxy =>
      obtain ⟨created, mapping, roleName⟩ := x
      obtain ⟨created', rest⟩ := y
      obtain ⟨hcreated, rfl⟩ : SameTables created created' ∧ (mapping, roleName) = rest := hxy
      exact ⟨rfl, hcreated⟩
    | error he => exact ⟨refusal_congr he, h⟩

theorem sameReply_deleteGroupMapping (h : SameTables db db') (text : String) :
    SameReply ((RoleCall.deleteGroupMapping text).run env new actor db)
      ((RoleCall.deleteGroupMapping text).run env new actor db') := by
  rw [RoleCall.run, RoleCall.run]
  cases env.parseUuid text with
  | none => exact ⟨rfl, h⟩
  | some id =>
    have hstep : InStep SameTables SameError (deleteGroupMapping actor db text id)
        (deleteGroupMapping actor db' text id) := inStep_deleteGroupMapping h text id
    dsimp only
    generalize deleteGroupMapping actor db text id = x at hstep ⊢
    generalize deleteGroupMapping actor db' text id = y at hstep ⊢
    cases hstep with
    | ok hdeleted => exact ⟨rfl, hdeleted⟩
    | error he => exact ⟨refusal_congr he, h⟩

theorem sameReply_run (h : SameTables db db') (call : RoleCall) :
    SameReply (call.run env new actor db) (call.run env new actor db') := by
  cases call with
  | createRole body => exact sameReply_createRole h body
  | updateRole roleId body => exact sameReply_updateRole h roleId body
  | deleteRole roleId => exact sameReply_deleteRole h roleId
  | createGroupMapping body => exact sameReply_createGroupMapping h body
  | deleteGroupMapping mappingId => exact sameReply_deleteGroupMapping h mappingId

theorem sameReply_request (h : SameTables db db') (r : RoleRequest) :
    SameReply (r.perform env db) (r.perform env db') := by
  have hcurrent : db'.getCurrentRole env.parseUuid r.session =
      db.getCurrentRole env.parseUuid r.session := by
    obtain ⟨audit, rfl⟩ := h
    rfl
  rw [RoleRequest.perform, RoleRequest.perform, requirePermission, requirePermission, hcurrent]
  cases denial r.session (db.getCurrentRole env.parseUuid r.session) [.adminRolesManage] with
  | some refusal => exact ⟨rfl, h.log _ _⟩
  | none => exact sameReply_run h r.call

/-- No step reads the audit log. -/
theorem sameReply_perform (h : SameTables db db') (step : RoleStep) :
    SameReply (db.perform env step) (db'.perform env step) := by
  cases step with
  | request r =>
    obtain ⟨hreply, htables⟩ : SameReply (r.perform env db) (r.perform env db') :=
      sameReply_request h r
    exact ⟨congrArg some hreply, htables⟩
  | login login newId =>
    obtain ⟨audit, rfl⟩ := h
    refine ⟨rfl, ?_⟩
    have hhistory : ({ db with audit } : RoleTables).loginHistory = db.loginHistory := rfl
    show SameTables (db.login login newId) (({ db with audit } : RoleTables).login login newId)
    rw [RoleTables.login, RoleTables.login, hhistory]
    cases db.loginHistory.resolveRoleAndCreateSession login newId with
    | none => exact ⟨audit, rfl⟩
    | some s => exact ⟨audit, rfl⟩
  | connections connections schemaEntries =>
    obtain ⟨audit, rfl⟩ := h
    exact ⟨rfl, audit, rfl⟩

/-! ## Runs -/

/-- The steps that are no refused requests, with their replies. -/
def RoleTables.served (env : RoleEnv) (db : RoleTables) (steps : List RoleStep) :
    List (RoleStep × Option RoleReply) :=
  (db.history env steps).filter fun s => !s.2.any (·.isRefused)

theorem refused_perform (h : db.Consistent) {step : RoleStep}
    (hreply : (db.perform env step).1.any (·.isRefused) = true) :
    Refused db (db.perform env step).2 := by
  cases step with
  | request r =>
    have hreply : (r.perform env db).1.isRefused = true := hreply
    rcases r.perform_outcome h with ⟨-, hrefused⟩ | ⟨hserved, -⟩
    · exact hrefused
    · rw [hserved] at hreply
      cases hreply
  | login login newId => cases hreply
  | connections connections schemaEntries => cases hreply

/-- The run without the refused requests keeps up with the run, up to the audit log. -/
theorem sameTables_served (h : db.Consistent) (hsame : SameTables db db') (steps : List RoleStep) :
    (db'.after env ((db.served env steps).map (·.1))).1 = (db.served env steps).map (·.2) ∧
      SameTables (db.after env steps).2
        (db'.after env ((db.served env steps).map (·.1))).2 := by
  induction steps generalizing db db' with
  | nil => exact ⟨rfl, hsame⟩
  | cons step steps ih =>
    have hconsistent : (db.perform env step).2.Consistent := consistent_perform h step
    have hserved : db.served env (step :: steps) =
        if (db.perform env step).1.any (·.isRefused) = true then
          (db.perform env step).2.served env steps
        else (step, (db.perform env step).1) :: (db.perform env step).2.served env steps := by
      show List.filter _ ((step, (db.perform env step).1) ::
        (db.perform env step).2.history env steps) = _
      rw [List.filter_cons]
      cases (db.perform env step).1.any (·.isRefused) with
      | true => rfl
      | false => rfl
    rw [hserved]
    split
    · rename_i hreply
      exact ih hconsistent ((refused_perform h hreply).sameTables.symm.trans hsame)
    · obtain ⟨hreply, htables⟩ : SameReply (db.perform env step) (db'.perform env step) :=
        sameReply_perform hsame step
      obtain ⟨hreplies, hafter⟩ := ih hconsistent htables
      refine ⟨?_, hafter⟩
      show (db'.perform env step).1 :: _ = (db.perform env step).1 :: _
      rw [← hreply]
      exact congrArg _ hreplies

/-- **Refused requests leave no trace but in the audit log.** Taken out of a run, the other steps
get the replies that they got, and lead to the same tables. -/
theorem refused_requests_isolated (h : db.Consistent) (steps : List RoleStep) :
    (db.after env ((db.served env steps).map (·.1))).1 = (db.served env steps).map (·.2) ∧
      SameTables (db.after env steps).2
        (db.after env ((db.served env steps).map (·.1))).2 :=
  sameTables_served h (.refl db) steps

theorem refused_requests_isolated_firstDay :
    (firstTables.after firstEnv ((firstTables.served firstEnv firstDay).map (·.1))).1 =
        (firstTables.served firstEnv firstDay).map (·.2) ∧
      SameTables (firstTables.after firstEnv firstDay).2
        (firstTables.after firstEnv ((firstTables.served firstEnv firstDay).map (·.1))).2 :=
  refused_requests_isolated consistent_firstTables firstDay

end QueryCraft
