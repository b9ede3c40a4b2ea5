import QueryCraft.RoleAccess
import QueryCraft.Slices

/-! # What requests do to the grants

Seen as maps, the tables change in a simple way: the policies of a role become the requested
ones, where a policy that is there already keeps its row, and its values too unless they differ;
its groups become the requested ones, where a group that is mapped already keeps its mapping; a
role that is deleted takes its policies and groups along.
-/
namespace QueryCraft

namespace Grants
variable (g : Grants)

/-- A role is created or changed. -/
def withRole (role : Role) : Grants :=
  { g with role := Function.update g.role role.id (some role) }

/-- A mapping is created. -/
def withMapping (m : GroupMappingRow) : Grants :=
  { g with group := Function.update g.group m.groupValue (some m) }

/-- A mapping is deleted. -/
def withoutMapping (mappingId : String) : Grants :=
  { g with group := fun groupValue => (g.group groupValue).filter (·.id ≠ mappingId) }

/-- The groups of a role become the requested ones. -/
def withGroups (new : NewRows) (roleId : String) (requested : List String) : Grants :=
  { g with
    group := fun groupValue =>
      if groupValue ∈ requested then
        some ((g.group groupValue).getD (new.mapping roleId groupValue))
      else (g.group groupValue).filter (·.roleId ≠ roleId) }

/-- A role is deleted. -/
def withoutRole (roleId : String) : Grants where
  role := Function.update g.role roleId none
  group groupValue := (g.group groupValue).filter (·.roleId ≠ roleId)
  policy r connectionId := if r = roleId then none else g.policy r connectionId

/-- Policies are left for some connections only. -/
def onConnections (connections : List SourceConnection) : Grants :=
  { g with
    policy := fun roleId connectionId =>
      if connections.any (·.id = connectionId) then g.policy roleId connectionId else none }

end Grants

/-! ## Policies -/

/-- What is requested for a connection. -/
def requestedFor (requested : List (ConnectionPolicyItem × String)) (connectionId : String) :
    Option PolicyValues :=
  (rowWith (·.2) requested connectionId).map (·.1.toPolicyValues)

section Policies
variable (env : RoleEnv) (new : NewRows) (roleId : String)

/-- The policy for a connection after it was requested with some values. -/
def policyAfter (connectionId : String) (values : PolicyValues) (row : Option ConnectionPolicyRow) :
    ConnectionPolicyRow :=
  match row with
  | none => new.policy roleId connectionId values
  | some row => if valuesChanged env row.values values then { row with values } else row

/-- The policies of a role become the requested ones. -/
def Grants.withPolicies (g : Grants) (requested : List (ConnectionPolicyItem × String)) : Grants :=
  { g with
    policy := fun r connectionId =>
      if r = roleId then
        (requestedFor requested connectionId).map fun values =>
          policyAfter env new roleId connectionId values (g.policy r connectionId)
      else g.policy r connectionId }

variable {env new roleId} {db : RoleTables} {requested : List (ConnectionPolicyItem × String)}
  {q : ConnectionPolicyRow}

/-- The current policy for a connection is found by its key. -/
theorem rowWith_current (h : UniqueKey (·.key) db.policies) (connectionId : String) :
    rowWith (·.connectionId) (db.roleConnectionPolicyRows roleId) connectionId =
      rowWith (·.key) db.policies (roleId, connectionId) := by
  have hunique : UniqueKey (·.connectionId) (db.roleConnectionPolicyRows roleId) := by
    refine List.Nodup.of_map (fun c => (roleId, c)) ?_
    have hperm : (db.roleConnectionPolicyRows roleId).Perm
        (db.policies.filter (·.roleId = roleId)) := List.perm_insertionSort _ _
    have hkey : ((db.roleConnectionPolicyRows roleId).map (·.connectionId)).map
        (fun c => (roleId, c)) = (db.roleConnectionPolicyRows roleId).map (·.key) := by
      rw [List.map_map]
      refine List.map_congr_left fun p hp => ?_
      have hrole : p.roleId = roleId := by
        simpa using (List.mem_filter.mp (hperm.mem_iff.mp hp)).2
      exact congrArg₂ Prod.mk hrole.symm rfl
    rw [hkey]
    exact ((hperm.map _).nodup_iff).mpr (h.filter _)
  ext p
  rw [rowWith_eq_some hunique, rowWith_eq_some h, RoleTables.roleConnectionPolicyRows,
    mem_orderedByCreation, List.mem_filter, decide_eq_true_eq, ConnectionPolicyRow.key,
    Prod.mk.injEq, and_assoc]

/-- A policy is changed if other values are requested for its connection. -/
theorem rowAfter_requested (hid : UniqueKey (·.id) db.policies)
    (hkey : UniqueKey (·.key) db.policies) (hunique : UniqueKey (·.2) requested)
    (hq : q ∈ db.policies) :
    (requestedChanges env new roleId (db.roleConnectionPolicyRows roleId) requested).rowAfter q =
      if q.roleId = roleId then
        (requestedFor requested q.connectionId).elim q fun values =>
          policyAfter env new roleId q.connectionId values (some q)
      else q := by
  -- a changed row with the id of `q` is `q` with the values requested for its connection
  have hchanged : ∀ row, row ∈ (requestedChanges env new roleId
      (db.roleConnectionPolicyRows roleId) requested).changed → row.id = q.id →
      q.roleId = roleId ∧ ∃ item ∈ requested, item.2 = q.connectionId ∧
        valuesChanged env q.values item.1.toPolicyValues = true ∧
        row = { q with values := item.1.toPolicyValues } := by
    intro row hrow heq
    obtain ⟨item, hitem, hrow⟩ := List.mem_filterMap.mp hrow
    obtain ⟨p, hp, hrow⟩ := Option.bind_eq_some_iff.mp hrow
    rw [rowWith_current hkey] at hp
    obtain ⟨hmem, hpkey⟩ := mem_of_rowWith hp
    split at hrow
    · rename_i hvalues
      obtain rfl := Option.some.inj hrow
      obtain rfl := hid.eq hmem hq heq
      exact ⟨congrArg Prod.fst hpkey, item, hitem, (congrArg Prod.snd hpkey).symm, hvalues, rfl⟩
    · cases hrow
  rw [PolicyChanges.rowAfter]
  cases hfind : rowWith (·.id) (requestedChanges env new roleId
      (db.roleConnectionPolicyRows roleId) requested).changed q.id with
  | some row =>
    obtain ⟨hmem, heq⟩ := mem_of_rowWith hfind
    obtain ⟨hrole, item, hitem, hconnection, hvalues, rfl⟩ := hchanged row hmem heq
    have hitem' : rowWith (·.2) requested q.connectionId = some item :=
      (rowWith_eq_some hunique).mpr ⟨hitem, hconnection⟩
    rw [if_pos hrole, requestedFor, hitem', Option.map_some, Option.elim_some, policyAfter,
      if_pos hvalues]
    rfl
  | none =>
    split
    · rename_i hrole
      cases hrequested : rowWith (·.2) requested q.connectionId with
      | none =>
        rw [requestedFor, hrequested]
        rfl
      | some item =>
        rw [requestedFor, hrequested, Option.map_some, Option.elim_some, policyAfter, if_neg]
        · rfl
        intro hvalues
        obtain ⟨hitem, hconnection⟩ := mem_of_rowWith hrequested
        have hcurrent : rowWith (·.connectionId) (db.roleConnectionPolicyRows roleId) item.2 =
            some q := by
          rw [rowWith_current hkey, rowWith_eq_some hkey, hconnection, ← hrole]
          exact ⟨hq, rfl⟩
        refine rowWith_eq_none.mp hfind { q with values := item.1.toPolicyValues } ?_ rfl
        refine List.mem_filterMap.mpr ⟨item, hitem, ?_⟩
        rw [hcurrent]
        exact if_pos hvalues
    · rfl

/-- A policy of the role is deleted if nothing is requested for its connection. -/
theorem removed_requested (hid : UniqueKey (·.id) db.policies) (hq : q ∈ db.policies) :
    (requestedChanges env new roleId (db.roleConnectionPolicyRows roleId) requested).removed.all
        (·.id ≠ q.id) = true ↔
      ¬ (q.roleId = roleId ∧ requestedFor requested q.connectionId = none) := by
  have hremoved : q ∈ (requestedChanges env new roleId (db.roleConnectionPolicyRows roleId)
      requested).removed ↔ q.roleId = roleId ∧ requestedFor requested q.connectionId = none := by
    simp only [requestedChanges, obsoletePolicies, List.mem_filter, requestedFor,
      Option.map_eq_none_iff, rowWith_eq_none, RoleTables.roleConnectionPolicyRows,
      mem_orderedByCreation, decide_eq_true_eq, hq, true_and, Bool.not_eq_true',
      List.contains_eq_mem, decide_eq_false_iff_not, List.mem_map, not_exists, not_and]
  rw [← hremoved, List.all_eq_true]
  constructor
  · intro hall hmem
    simpa using hall q hmem
  · intro hmem p hp
    have hpolicy : p ∈ db.policies := by
      simp only [requestedChanges, obsoletePolicies, List.mem_filter,
        RoleTables.roleConnectionPolicyRows, mem_orderedByCreation] at hp
      exact hp.1.1
    rw [decide_eq_true_eq]
    intro heq
    exact hmem (hid.eq hpolicy hq heq ▸ hp)

/-- A policy is added for a connection without one. -/
theorem added_requested (hkey : UniqueKey (·.key) db.policies)
    (hunique : UniqueKey (·.2) requested) (r connectionId : String) :
    rowWith (·.key) (requestedChanges env new roleId (db.roleConnectionPolicyRows roleId)
        requested).added (r, connectionId) =
      if r = roleId ∧ rowWith (·.key) db.policies (roleId, connectionId) = none then
        (requestedFor requested connectionId).map (new.policy roleId connectionId)
      else none := by
  have hadded : ∀ p, p ∈ (requestedChanges env new roleId (db.roleConnectionPolicyRows roleId)
      requested).added ↔ ∃ item ∈ requested,
        rowWith (·.key) db.policies (roleId, item.2) = none ∧
          new.policy roleId item.2 item.1.toPolicyValues = p := by
    intro p
    simp only [requestedChanges, List.mem_map, List.mem_filter, rowWith_current hkey,
      Option.isNone_iff_eq_none, and_assoc]
  split
  · rename_i h
    obtain ⟨rfl, hnone⟩ := h
    cases hrequested : rowWith (·.2) requested connectionId with
    | none =>
      rw [requestedFor, hrequested, Option.map_none, Option.map_none, rowWith_eq_none]
      intro p hp heq
      obtain ⟨item, hitem, -, rfl⟩ := (hadded p).mp hp
      exact rowWith_eq_none.mp hrequested item hitem (congrArg Prod.snd heq)
    | some item =>
      obtain ⟨hitem, rfl⟩ := mem_of_rowWith hrequested
      rw [requestedFor, hrequested, Option.map_some, Option.map_some]
      cases hfind : rowWith (·.key) (requestedChanges env new r (db.roleConnectionPolicyRows r)
          requested).added (r, item.2) with
      | none =>
        exact absurd rfl (rowWith_eq_none.mp hfind _ ((hadded _).mpr ⟨item, hitem, hnone, rfl⟩))
      | some p =>
        obtain ⟨hp, heq⟩ := mem_of_rowWith hfind
        obtain ⟨item', hitem', -, rfl⟩ := (hadded p).mp hp
        have hconnection : item'.2 = item.2 := (Prod.ext_iff.mp heq).2
        rw [hunique.eq hitem' hitem hconnection]
  · rename_i h
    rw [rowWith_eq_none]
    intro p hp heq
    obtain ⟨item, -, hnone, rfl⟩ := (hadded p).mp hp
    have hrole : roleId = r := congrArg Prod.fst heq
    have hconnection : item.2 = connectionId := congrArg Prod.snd heq
    exact h ⟨hrole.symm, hconnection ▸ hnone⟩

/-- What the flush leaves. -/
structure PoliciesSynced (env : RoleEnv) (new : NewRows) (roleId : String)
    (requested : List (ConnectionPolicyItem × String)) (db db' : RoleTables) : Prop where
  frame : db' = { db with policies := db'.policies }
  policyId : UniqueKey (·.id) db'.policies
  policyKey : UniqueKey (·.key) db'.policies
  grants : db'.grants = db.grants.withPolicies env new roleId requested
  role : ∀ p ∈ db'.policies, p ∈ db.policies ∨ p.roleId = roleId ∧
    ∃ item ∈ requested, item.2 = p.connectionId ∧ p.values = item.1.toPolicyValues

theorem policyAfter_some (env : RoleEnv) (new : NewRows) (roleId connectionId : String)
    (values : PolicyValues) (q : ConnectionPolicyRow) :
    (policyAfter env new roleId connectionId values (some q)).id = q.id ∧
      (policyAfter env new roleId connectionId values (some q)).key = q.key := by
  rw [policyAfter]
  split
  · exact ⟨rfl, rfl⟩
  · exact ⟨rfl, rfl⟩

theorem mem_added {current : List ConnectionPolicyRow}
    (h : q ∈ (requestedChanges env new roleId current requested).added) :
    ∃ item ∈ requested, q = new.policy roleId item.2 item.1.toPolicyValues := by
  obtain ⟨item, hitem, rfl⟩ := List.mem_map.mp h
  exact ⟨item, List.mem_of_mem_filter hitem, rfl⟩

theorem policiesSynced_of_flush (hid : UniqueKey (·.id) db.policies)
    (hkey : UniqueKey (·.key) db.policies) (hunique : UniqueKey (·.2) requested)
    {db' : RoleTables} (h : (requestedChanges env new roleId (db.roleConnectionPolicyRows roleId)
      requested).flush env.storable db = .ok db') :
    PoliciesSynced env new roleId requested db db' := by
  rw [PolicyChanges.flush, if_ok_eq_ok] at h
  obtain ⟨⟨haddedIds, hfresh, -⟩, rfl⟩ := h
  generalize hchanges : requestedChanges env new roleId (db.roleConnectionPolicyRows roleId)
    requested = changes at haddedIds hfresh
  have hafter : ∀ p ∈ db.policies, changes.rowAfter p = if p.roleId = roleId then
      (requestedFor requested p.connectionId).elim p fun values =>
        policyAfter env new roleId p.connectionId values (some p) else p := by
    intro p hp
    rw [← hchanges]
    exact rowAfter_requested hid hkey hunique hp
  have hsame : ∀ p ∈ db.policies, (changes.rowAfter p).id = p.id ∧
      (changes.rowAfter p).key = p.key := by
    intro p hp
    rw [hafter p hp]
    split
    · cases requestedFor requested p.connectionId with
      | none => exact ⟨rfl, rfl⟩
      | some values => exact policyAfter_some env new roleId p.connectionId values p
    · exact ⟨rfl, rfl⟩
  have hkept : ∀ p ∈ db.policies, changes.removed.all (·.id ≠ (changes.rowAfter p).id) = true ↔
      ¬ (p.roleId = roleId ∧ requestedFor requested p.connectionId = none) := by
    intro p hp
    rw [(hsame p hp).1, ← hchanges]
    exact removed_requested hid hp
  have hadded : ∀ r c, rowWith (·.key) changes.added (r, c) =
      if r = roleId ∧ rowWith (·.key) db.policies (roleId, c) = none then
        (requestedFor requested c).map (new.policy roleId c) else none := by
    intro r c
    rw [← hchanges]
    exact added_requested hkey hunique r c
  have hmem : ∀ p ∈ changes.added, ∃ item ∈ requested,
      p = new.policy roleId item.2 item.1.toPolicyValues := by
    intro p hp
    rw [← hchanges] at hp
    exact mem_added hp
  have haddedKey : UniqueKey (·.key) changes.added := by
    refine List.Nodup.of_map (fun key => new.policyId key.2) ?_
    have hids : (changes.added.map (·.key)).map (fun key => new.policyId key.2) =
        changes.added.map (·.id) := by
      rw [List.map_map]
      refine List.map_congr_left fun p hp => ?_
      obtain ⟨item, -, rfl⟩ := hmem p hp
      rfl
    rw [hids]
    exact haddedIds
  have hmapKey : UniqueKey (·.key) (db.policies.map changes.rowAfter) :=
    hkey.map fun p hp => (hsame p hp).2
  refine ⟨rfl, ?_, ?_, ?_, ?_⟩
  · refine uniqueKey_append.mpr ⟨(hid.map fun p hp => (hsame p hp).1).filter _, haddedIds, ?_⟩
    intro r hr r' hr'
    obtain ⟨p, hp, rfl⟩ := List.mem_map.mp (List.mem_of_mem_filter hr)
    rw [(hsame p hp).1]
    exact (hfresh r' hr' p hp).symm
  · refine uniqueKey_append.mpr ⟨hmapKey.filter _, haddedKey, ?_⟩
    intro r hr r' hr' heq
    obtain ⟨p, hp, rfl⟩ := List.mem_map.mp (List.mem_of_mem_filter hr)
    rw [(hsame p hp).2] at heq
    have hlookup := hadded r'.roleId r'.connectionId
    split at hlookup
    · rename_i hnone
      exact rowWith_eq_none.mp hnone.2 p hp (heq.trans (congrArg₂ Prod.mk hnone.1 rfl))
    · exact rowWith_eq_none.mp hlookup r' hr' rfl
  · refine Grants.ext rfl rfl (funext fun r => funext fun c => ?_)
    show rowWith (fun p : ConnectionPolicyRow => p.key) (_ ++ _) (r, c) = _
    rw [rowWith_append, rowWith_filter hmapKey, rowWith_map fun p hp => (hsame p hp).2, hadded]
    show _ = if r = roleId then (requestedFor requested c).map fun values =>
      policyAfter env new roleId c values (rowWith (·.key) db.policies (r, c))
      else rowWith (·.key) db.policies (r, c)
    cases hold : rowWith (·.key) db.policies (r, c) with
    | none =>
      by_cases hr : r = roleId
      · subst hr
        rw [if_pos rfl, if_pos ⟨rfl, hold⟩]
        rfl
      · rw [if_neg hr, if_neg fun h => hr h.1]
        rfl
    | some q =>
      obtain ⟨hq, hqkey⟩ := mem_of_rowWith hold
      have hrole : q.roleId = r := (Prod.ext_iff.mp hqkey).1
      have hconnection : q.connectionId = c := (Prod.ext_iff.mp hqkey).2
      have hnot : ¬ (r = roleId ∧ rowWith (·.key) db.policies (roleId, c) = none) := by
        rintro ⟨rfl, hnone⟩
        rw [hold] at hnone
        cases hnone
      rw [if_neg hnot, Option.or_none, Option.map_some]
      have hkeep := hkept q hq
      rw [hrole, hconnection] at hkeep
      have hvalue := hafter q hq
      rw [hrole, hconnection] at hvalue
      rw [Option.filter_some]
      by_cases hr : r = roleId
      · rw [if_pos hr] at hvalue ⊢
        cases hrequested : requestedFor requested c with
        | none =>
          rw [if_neg fun h => hkeep.mp h ⟨hr, hrequested⟩]
          rfl
        | some values =>
          rw [hrequested] at hkeep hvalue
          have hsome : ¬ (r = roleId ∧ some values = none) := by
            rintro ⟨-, hnone⟩
            cases hnone
          rw [if_pos (hkeep.mpr hsome), hvalue]
          rfl
      · rw [if_neg hr] at hvalue ⊢
        rw [if_pos (hkeep.mpr fun h => hr h.1), hvalue]
  · intro p hp
    rcases List.mem_append.mp hp with hp | hp
    · obtain ⟨q, hq, rfl⟩ := List.mem_map.mp (List.mem_of_mem_filter hp)
      rw [hafter q hq]
      split
      · rename_i hrole
        cases hrequested : rowWith (·.2) requested q.connectionId with
        | none => exact .inl (by rwa [requestedFor, hrequested])
        | some item =>
          obtain ⟨hitem, hconnection⟩ := mem_of_rowWith hrequested
          rw [requestedFor, hrequested, Option.map_some, Option.elim_some, policyAfter]
          split
          · exact .inr ⟨hrole, item, hitem, hconnection, rfl⟩
          · exact .inl hq
      · exact .inl hq
    · obtain ⟨item, hitem, rfl⟩ := hmem p hp
      exact .inr ⟨rfl, item, hitem, rfl, rfl⟩

/-- Without changes the flush leaves the tables as they are. -/
theorem flush_of_unchanged {changes : PolicyChanges} {storable : PolicyValues → Bool}
    {db' : RoleTables} (hchanged : changes.isChanged = false)
    (h : changes.flush storable db = .ok db') : db' = db := by
  simp only [PolicyChanges.isChanged, Bool.or_eq_false_iff, Bool.not_eq_false',
    List.isEmpty_iff] at hchanged
  obtain ⟨⟨hremoved, hrows⟩, hadded⟩ := hchanged
  rw [PolicyChanges.flush, if_ok_eq_ok] at h
  rw [← h.2, hremoved, hadded]
  have hafter : db.policies.map changes.rowAfter = db.policies := by
    refine (List.map_congr_left fun p _ => ?_).trans (List.map_id _)
    rw [PolicyChanges.rowAfter, hrows]
    rfl
  simp [hafter]

variable (env) in
/-- The requested policies with their parsed connection ids. -/
def parsedPolicies (policies : List ConnectionPolicyItem) :
    Option (List (ConnectionPolicyItem × String)) :=
  (parsePolicyConnectionIds env policies).map (policies.zip ·)

/-- What `_sync_role_connection_policies` has checked, and what it leaves. -/
theorem syncRoleConnectionPolicies_ok (hid : UniqueKey (·.id) db.policies)
    (hkey : UniqueKey (·.key) db.policies) {policies : List ConnectionPolicyItem}
    {db' : RoleTables} {rows : List ConnectionPolicyRow} {changed : Bool}
    (h : syncRoleConnectionPolicies env new roleId db policies = .ok (db', rows, changed)) :
    ∃ requested, parsedPolicies env policies = some requested ∧
      (∀ item ∈ requested, (∃ c ∈ db.connections, c.id = item.2) ∧
        policyFiltersAccepted env db item.1.toPolicyValues item.2 = true) ∧
      PoliciesSynced env new roleId requested db db' ∧
      rows = db'.roleConnectionPolicyRows roleId ∧ (changed = false → db' = db) := by
  rw [syncRoleConnectionPolicies] at h
  cases hparsed : parsePolicyConnectionIds env policies with
  | none =>
    rw [hparsed] at h
    cases h
  | some ids =>
    rw [hparsed] at h
    obtain ⟨_, hinput, h⟩ := bind_eq_ok.mp h
    obtain ⟨_, hfilters, h⟩ := bind_eq_ok.mp h
    obtain ⟨flushed, hflush, h⟩ := bind_eq_ok.mp h
    obtain ⟨rfl, hrest⟩ := Prod.mk.inj (pure_eq_ok.mp h)
    obtain ⟨rfl, rfl⟩ := Prod.mk.inj hrest
    rw [validatePolicyInput] at hinput
    split at hinput
    · cases hinput
    rename_i hnodup
    rw [if_ok_eq_ok] at hinput
    rw [validatePolicyRowFilters, if_ok_eq_ok, List.all_eq_true] at hfilters
    have hlength : policies.length = ids.length := (forall₂_of_mapM hparsed).length_eq
    have hunique : UniqueKey (·.2) (policies.zip ids) := by
      rw [UniqueKey, List.map_snd_zip hlength.ge]
      exact not_not.mp hnodup
    refine ⟨policies.zip ids, by rw [parsedPolicies, hparsed]; rfl, fun item hitem => ?_,
      policiesSynced_of_flush hid hkey hunique hflush, rfl, fun h => flush_of_unchanged h hflush⟩
    exact ⟨hinput.1 item.2 (List.of_mem_zip hitem).2, hfilters.1 item hitem⟩

end Policies

/-! ## Group mappings -/

section Mappings
variable {new : NewRows} {actor : Option String} {roleId : String} {db db' : RoleTables}

/-- Groups are claimed. -/
def RoleTables.withClaims (db : RoleTables) (new : NewRows) (actor : Option String)
    (roleId : String) (groupValues : List String) : RoleTables :=
  { db with
    mappings := db.mappings ++ groupValues.map (new.mapping roleId)
    audit := db.audit ++
      groupValues.map fun v => groupMappingEntry actor (new.mappingId v) "create" }

/-- Each group was free, and so was each id. -/
theorem foldlM_claimWithEntry {groupValues : List String} (hid : UniqueKey (·.id) db.mappings)
    (hgroup : UniqueKey (·.groupValue) db.mappings)
    (h : groupValues.foldlM (claimWithEntry new actor roleId) db = .ok db') :
    db' = db.withClaims new actor roleId groupValues ∧ UniqueKey (·.id) db'.mappings ∧
      UniqueKey (·.groupValue) db'.mappings := by
  induction groupValues generalizing db with
  | nil =>
    obtain rfl := pure_eq_ok.mp h
    exact ⟨by simp [RoleTables.withClaims], hid, hgroup⟩
  | cons v groupValues ih =>
    rw [List.foldlM_cons] at h
    obtain ⟨claimed, hclaim, h⟩ := bind_eq_ok.mp h
    obtain ⟨mapped, hmapped, hclaim⟩ := bind_eq_ok.mp hclaim
    obtain rfl := pure_eq_ok.mp hclaim
    rw [claimGroupMapping] at hmapped
    split at hmapped
    · cases hmapped
    rename_i hfree
    split at hmapped
    · cases hmapped
    rename_i hnewId
    obtain rfl := Except.ok.inj hmapped
    simp only [List.any_eq_true, decide_eq_true_eq, not_exists, not_and] at hfree hnewId
    obtain ⟨rfl, hids, hgroups⟩ := ih (hid.concat hnewId) (hgroup.concat hfree) h
    refine ⟨?_, hids, hgroups⟩
    simp [RoleTables.withClaims, RoleTables.log]

/-- The mappings of a role that are not requested are deleted. -/
def RoleTables.withoutUnrequested (db : RoleTables) (actor : Option String) (roleId : String)
    (requested : List String) : RoleTables :=
  { db with
    mappings := db.mappings.filter fun m => m.roleId ≠ roleId || requested.contains m.groupValue
    audit := db.audit ++ ((db.roleGroupMappingRows roleId).filter
      (!requested.contains ·.groupValue)).map fun m => groupMappingEntry actor m.id "delete" }

theorem foldl_deleteUnrequested (requested : List String) (rows : List GroupMappingRow) :
    rows.foldl (deleteUnrequested actor requested) db =
      { db with
        mappings := db.mappings.filter fun m =>
          rows.all fun row => requested.contains row.groupValue || row.id ≠ m.id
        audit := db.audit ++ (rows.filter (!requested.contains ·.groupValue)).map
          fun m => groupMappingEntry actor m.id "delete" } := by
  induction rows generalizing db with
  | nil => simp
  | cons row rows ih =>
    rw [List.foldl_cons, ih, deleteUnrequested]
    by_cases hrow : requested.contains row.groupValue = true
    · rw [if_pos hrow]
      simp only [List.all_cons, hrow, Bool.true_or, Bool.true_and, List.filter_cons, Bool.not_true,
        Bool.false_eq_true, if_false]
    · rw [if_neg hrow, Bool.not_eq_true] at *
      simp only [RoleTables.log, List.filter_filter, List.all_cons, hrow, Bool.false_or,
        List.filter_cons, Bool.not_false, if_true, List.map_cons, List.append_assoc,
        List.singleton_append]
      congr 2
      refine funext fun m => ?_
      rw [Bool.and_comm, decide_eq_decide.mpr ⟨Ne.symm, Ne.symm⟩]

theorem deleteUnrequested_rows (hid : UniqueKey (·.id) db.mappings) (requested : List String) :
    (db.roleGroupMappingRows roleId).foldl (deleteUnrequested actor requested) db =
      db.withoutUnrequested actor roleId requested := by
  rw [foldl_deleteUnrequested, RoleTables.withoutUnrequested]
  congr 1
  refine List.filter_congr fun m hm => ?_
  rw [Bool.eq_iff_iff]
  simp only [List.all_eq_true, RoleTables.roleGroupMappingRows, mem_orderedByCreation,
    List.mem_filter, decide_eq_true_eq, Bool.or_eq_true, ne_eq]
  constructor
  · intro hall
    by_cases hrole : m.roleId = roleId
    · exact .inr ((hall m ⟨hm, hrole⟩).resolve_right fun h => h rfl)
    · exact .inl hrole
  · rintro h row ⟨hrow, hrole⟩
    by_cases heq : row.id = m.id
    · obtain rfl := hid.eq hrow hm heq
      exact .inl (h.resolve_left fun h => h hrole)
    · exact .inr heq

/-- The loop claims the groups that are not persisted. -/
theorem foldlM_claimUnlessPersisted {requested : List String} (hnodup : requested.Nodup)
    (persisted : List (String × String)) :
    requested.foldlM (claimUnlessPersisted new actor roleId) (db, persisted) = (do
      let db ← (requested.filter fun v => (persisted.lookup v).isNone).foldlM
        (claimWithEntry new actor roleId) db
      return (db, persisted ++ (requested.filter fun v => (persisted.lookup v).isNone).map
        fun v => (v, new.mappingId v))) := by
  induction requested generalizing db persisted with
  | nil => simp
  | cons v requested ih =>
    obtain ⟨hv, hnodup⟩ := List.nodup_cons.mp hnodup
    rw [List.foldlM_cons, claimUnlessPersisted]
    cases hlookup : persisted.lookup v with
    | some id =>
      rw [Option.isSome_some, if_pos rfl, List.filter_cons_of_neg (by simp [hlookup])]
      exact ih hnodup persisted
    | none =>
      have hrest : (requested.filter fun w =>
            ((persisted ++ [(v, new.mappingId v)]).lookup w).isNone) =
          requested.filter fun w => (persisted.lookup w).isNone := by
        refine List.filter_congr fun w hw => ?_
        have hne : (w == v) = false := beq_false_of_ne fun h => hv (h ▸ hw)
        simp [List.lookup_append, List.lookup_cons, hne]
      rw [Option.isSome_none, if_neg Bool.false_ne_true,
        List.filter_cons_of_pos (by simp [hlookup]), List.foldlM_cons]
      simp only [bind_assoc, pure_bind]
      refine congrArg _ (funext fun claimed => ?_)
      rw [ih hnodup, hrest]
      simp

/-- What the loops over group mappings leave. -/
structure GroupsSynced (new : NewRows) (actor : Option String) (roleId : String)
    (requested : List String) (db db' : RoleTables) : Prop where
  frame : db' = { db with mappings := db'.mappings, audit := db'.audit }
  mappingId : UniqueKey (·.id) db'.mappings
  groupValue : UniqueKey (·.groupValue) db'.mappings
  grants : db'.grants = db.grants.withGroups new roleId requested
  role : ∀ m ∈ db'.mappings, m ∈ db.mappings ∨ m.roleId = roleId
  audit : ∃ entries, db'.audit = db.audit ++ entries ∧
    (∀ m ∈ db'.mappings, m ∈ db.mappings ∨ groupMappingEntry actor m.id "create" ∈ entries) ∧
    ∀ m ∈ db.mappings, m ∈ db'.mappings ∨ groupMappingEntry actor m.id "delete" ∈ entries

/-- The groups of a new role. -/
theorem createRoleGroupMappings_ok (hid : UniqueKey (·.id) db.mappings)
    (hgroup : UniqueKey (·.groupValue) db.mappings) (hnew : ∀ m ∈ db.mappings, m.roleId ≠ roleId)
    {requested : List String} {mappings : List (String × String)}
    (h : createRoleGroupMappings new actor roleId db requested = .ok (db', mappings)) :
    GroupsSynced new actor roleId requested db db' := by
  obtain ⟨claimed, hclaim, h⟩ := bind_eq_ok.mp h
  obtain ⟨rfl, rfl⟩ := Prod.mk.inj (pure_eq_ok.mp h)
  obtain ⟨rfl, hids, hgroups⟩ := foldlM_claimWithEntry hid hgroup hclaim
  refine ⟨rfl, hids, hgroups, Grants.ext rfl (funext fun v => ?_) rfl, fun m hm => ?_,
    requested.map fun v => groupMappingEntry actor (new.mappingId v) "create", rfl, fun m hm => ?_,
    fun m hm => .inl (List.mem_append_left _ hm)⟩
  · show rowWith (fun m : GroupMappingRow => m.groupValue) (_ ++ _) v =
      if v ∈ requested then
        some ((rowWith (fun m : GroupMappingRow => m.groupValue) db.mappings v).getD _)
      else (rowWith (fun m : GroupMappingRow => m.groupValue) db.mappings v).filter _
    rw [rowWith_append, rowWith_map_keys (fun _ => rfl)]
    cases hold : rowWith (fun m : GroupMappingRow => m.groupValue) db.mappings v with
    | none =>
      rw [Option.none_or]
      split
      · rfl
      · rfl
    | some m =>
      have hm : m.roleId ≠ roleId := hnew m (mem_of_rowWith hold).1
      rw [Option.some_or, Option.filter_some, if_pos (decide_eq_true hm)]
      split
      · rfl
      · rfl
  · rcases List.mem_append.mp hm with hm | hm
    · exact .inl hm
    · obtain ⟨v, -, rfl⟩ := List.mem_map.mp hm
      exact .inr rfl
  · rcases List.mem_append.mp hm with hm | hm
    · exact .inl hm
    · obtain ⟨v, hv, rfl⟩ := List.mem_map.mp hm
      exact .inr (List.mem_map_of_mem hv)

/-- `persisted_ids` has the ids of the role's mappings. -/
theorem lookup_persisted (hgroup : UniqueKey (·.groupValue) db.mappings) (v : String) :
    ((db.roleGroupMappingRows roleId).map fun m => (m.groupValue, m.id)).lookup v =
      ((rowWith (·.groupValue) db.mappings v).filter (·.roleId = roleId)).map (·.id) := by
  have hrows : rowWith (·.groupValue) (db.roleGroupMappingRows roleId) v =
      (rowWith (·.groupValue) db.mappings v).filter (·.roleId = roleId) := by
    have hperm : (db.roleGroupMappingRows roleId).Perm
        (db.mappings.filter (·.roleId = roleId)) := List.perm_insertionSort _ _
    have hunique : UniqueKey (·.groupValue) (db.roleGroupMappingRows roleId) :=
      ((hperm.map _).nodup_iff).mpr (hgroup.filter _)
    rw [← rowWith_filter hgroup]
    ext m
    rw [rowWith_eq_some hunique, rowWith_eq_some (hgroup.filter _), hperm.mem_iff]
  rw [← hrows]
  exact lookup_map_rows _

/-- The groups of a role that is changed. -/
theorem syncRoleGroupMappings_ok (hid : UniqueKey (·.id) db.mappings)
    (hgroup : UniqueKey (·.groupValue) db.mappings) {requested : List String}
    (hnodup : requested.Nodup) {mappings : List (String × String)}
    (h : syncRoleGroupMappings new actor roleId db requested = .ok (db', mappings)) :
    GroupsSynced new actor roleId requested db db' := by
  rw [syncRoleGroupMappings] at h
  simp only [deleteUnrequested_rows hid, foldlM_claimUnlessPersisted hnodup, bind_assoc,
    pure_bind] at h
  obtain ⟨claimed, hclaim, h⟩ := bind_eq_ok.mp h
  obtain ⟨rfl, rfl⟩ := Prod.mk.inj (pure_eq_ok.mp h)
  obtain ⟨rfl, hids, hgroups⟩ := foldlM_claimWithEntry (hid.filter _) (hgroup.filter _) hclaim
  refine ⟨rfl, hids, hgroups, Grants.ext rfl (funext fun v => ?_) rfl, fun m hm => ?_,
    _, List.append_assoc _ _ _, fun m hm => ?_, fun m hm => ?_⟩
  · show rowWith (fun m : GroupMappingRow => m.groupValue) (db.mappings.filter _ ++ _) v =
      if v ∈ requested then
        some ((rowWith (fun m : GroupMappingRow => m.groupValue) db.mappings v).getD _)
      else (rowWith (fun m : GroupMappingRow => m.groupValue) db.mappings v).filter _
    have hclaimed : v ∈ requested.filter (fun v => (((db.roleGroupMappingRows roleId).map
        fun m => (m.groupValue, m.id)).lookup v).isNone) ↔ v ∈ requested ∧
          (rowWith (fun m : GroupMappingRow => m.groupValue) db.mappings v).filter
            (·.roleId = roleId) = none := by
      rw [List.mem_filter, lookup_persisted hgroup, Option.isNone_iff_eq_none,
        Option.map_eq_none_iff]
    rw [rowWith_append, rowWith_map_keys (fun _ => rfl), rowWith_filter hgroup]
    cases hold : rowWith (fun m : GroupMappingRow => m.groupValue) db.mappings v with
    | none =>
      rw [hold] at hclaimed
      by_cases hv : v ∈ requested
      · rw [if_pos (hclaimed.mpr ⟨hv, rfl⟩), if_pos hv]
        rfl
      · rw [if_neg fun h => hv (hclaimed.mp h).1, if_neg hv]
        rfl
    | some m =>
      obtain ⟨-, rfl⟩ := mem_of_rowWith hold
      by_cases hv : m.groupValue ∈ requested
      · rw [if_pos hv, Option.filter_some, if_pos (by simp [hv])]
        rfl
      · rw [if_neg hv, if_neg fun h => hv (hclaimed.mp h).1, Option.or_none]
        simp [Option.filter_some, hv]
  · rcases List.mem_append.mp hm with hm | hm
    · exact .inl (List.mem_of_mem_filter hm)
    · obtain ⟨v, -, rfl⟩ := List.mem_map.mp hm
      exact .inr rfl
  · rcases List.mem_append.mp hm with hm | hm
    · exact .inl (List.mem_of_mem_filter hm)
    · obtain ⟨v, hv, rfl⟩ := List.mem_map.mp hm
      exact .inr (List.mem_append_right _ (List.mem_map_of_mem hv))
  · by_cases hkept : m.roleId ≠ roleId ∨ requested.contains m.groupValue = true
    · exact .inl (List.mem_append_left _ (List.mem_filter.mpr ⟨hm, by simpa using hkept⟩))
    · rw [not_or, not_not, Bool.not_eq_true] at hkept
      refine .inr (List.mem_append_left _ (List.mem_map_of_mem (List.mem_filter.mpr ⟨?_, ?_⟩)))
      · exact mem_orderedByCreation.mpr (List.mem_filter.mpr ⟨hm, decide_eq_true hkept.1⟩)
      · rw [hkept.2]
        rfl

end Mappings

end QueryCraft
