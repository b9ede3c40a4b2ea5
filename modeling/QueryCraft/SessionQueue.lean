import QueryCraft.SessionStore

/-! # Sessions as queues

What the four scripts are for: every user has a queue of sessions in the order of their
creation.  A session that is created goes to the end of the queue, and the first ones leave it
if there are more than the user may have; a session that is refreshed keeps its place; a
session whose deadline has passed is no longer there.

The queues know nothing of indexes, owners and scores, and of no sessions but those they hold.
-/
namespace QueryCraft

/-- A session of some user. -/
structure QueuedSession (Text : Type) where
  id : String
  text : Text
  deadline : Nat

namespace SessionQueue
variable {Text : Type} (q : List (QueuedSession Text)) (now : Nat) (id : String)

/-- The ids, from the oldest session on. -/
def ids : List String := q.map (·.id)

/-- The sessions whose deadlines have not passed. -/
def alive : List (QueuedSession Text) := q.filter (now ≤ ·.deadline)

/-- The session with an id. -/
def find? : Option (QueuedSession Text) := List.find? (·.id = id) q

/-- All sessions but one. -/
def remove : List (QueuedSession Text) := q.filter (·.id ≠ id)

variable (e : QueuedSession Text) (maxSessions : Nat)

/-- A session in the place of the one with the same id. -/
def renew : List (QueuedSession Text) := q.map fun x => if x.id = e.id then e else x

/-- A new session comes last; one that is there keeps its place. -/
def push : List (QueuedSession Text) := if e.id ∈ ids q then renew q e else q ++ [e]

/-- The first sessions leave while there are too many; a limit of 0 is none. -/
def trim : List (QueuedSession Text) :=
  if maxSessions = 0 then q else q.drop (q.length - maxSessions)

/-! ## Their sessions -/

variable {q id e now}

@[simp] theorem ids_renew : ids (renew q e) = ids q := by
  rw [ids, renew, List.map_map]
  refine List.map_congr_left fun x _ => ?_
  by_cases h : x.id = e.id
  · simp [h]
  · simp [h]

theorem ids_push : ids (push q e) = if e.id ∈ ids q then ids q else ids q ++ [e.id] := by
  rw [push]
  split
  · exact ids_renew
  · simp [ids]

theorem nodup_push (h : (ids q).Nodup) : (ids (push q e)).Nodup := by
  rw [ids_push]
  split
  · exact h
  · rename_i hnot
    rw [List.nodup_append]
    refine ⟨h, List.nodup_singleton _, fun a ha b hb => ?_⟩
    rw [List.mem_singleton] at hb
    rintro rfl
    exact hnot (hb ▸ ha)

theorem ids_remove : ids (remove q id) = (ids q).filter (· ≠ id) := by
  rw [ids, ids, remove, List.filter_map]
  rfl

theorem find?_eq_none : find? q id = none ↔ id ∉ ids q := by
  simp [find?, ids]

theorem find?_isSome : (find? q id).isSome = true ↔ id ∈ ids q := by
  rw [← not_iff_not, ← find?_eq_none]
  simp

theorem mem_of_find? {x : QueuedSession Text} (h : find? q id = some x) : x ∈ q ∧ x.id = id := by
  refine ⟨List.mem_of_find?_eq_some h, ?_⟩
  simpa using List.find?_some h

theorem find?_cons (x : QueuedSession Text) (q : List (QueuedSession Text)) (id : String) :
    find? (x :: q) id = if x.id = id then some x else find? q id := by
  by_cases h : x.id = id
  · simp [find?, h]
  · simp [find?, h]

theorem find?_renew_of_ne (h : id ≠ e.id) : find? (renew q e) id = find? q id := by
  induction q with
  | nil => rfl
  | cons y q ih =>
    rw [renew, List.map_cons, find?_cons, find?_cons, ← renew, ih]
    by_cases hy : y.id = e.id
    · rw [if_pos hy, if_neg (Ne.symm h), if_neg fun hid => h (hid.symm.trans hy)]
    · rw [if_neg hy]

theorem find?_renew_self (h : e.id ∈ ids q) : find? (renew q e) e.id = some e := by
  induction q with
  | nil => cases h
  | cons y q ih =>
    rw [renew, List.map_cons, find?_cons, ← renew]
    by_cases hy : y.id = e.id
    · rw [if_pos hy, if_pos rfl]
    · rw [if_neg hy, if_neg hy]
      exact ih ((List.mem_cons.mp h).resolve_left fun h => hy h.symm)

/-- The session with an id after one was put in. -/
theorem find?_push (id : String) :
    find? (push q e) id = if id = e.id then some e else find? q id := by
  rw [push]
  split
  · rename_i hmem
    split
    · rename_i hid
      rw [hid]
      exact find?_renew_self hmem
    · rename_i hid
      exact find?_renew_of_ne hid
  · rename_i hmem
    rw [find?, List.find?_append, ← find?]
    split
    · rename_i hid
      rw [hid, find?_eq_none.mpr hmem]
      simp
    · rename_i hid
      simp [Ne.symm hid]

theorem push_of_notMem (h : e.id ∉ ids q) : push q e = q ++ [e] := if_neg h

theorem mem_push {x : QueuedSession Text} (h : x ∈ push q e) : x = e ∨ x ∈ q := by
  rw [push] at h
  split at h
  · obtain ⟨y, hy, rfl⟩ := List.mem_map.mp h
    split
    · exact .inl rfl
    · exact .inr hy
  · simpa [or_comm] using h

theorem find?_remove (id' : String) :
    find? (remove q id) id' = if id' = id then none else find? q id' := by
  by_cases h : id' = id
  · rw [if_pos h, find?_eq_none, ids_remove, h]
    simp
  · rw [if_neg h, find?, remove, List.find?_filter, find?]
    congr 1
    funext x
    by_cases hx : x.id = id'
    · simp [hx, h]
    · simp [hx]

theorem remove_of_notMem (h : id ∉ ids q) : remove q id = q :=
  List.filter_eq_self.mpr fun _ hx => decide_eq_true fun heq => h (heq ▸ List.mem_map_of_mem hx)

theorem notMem_remove (q : List (QueuedSession Text)) (id : String) : id ∉ ids (remove q id) := by
  simp [ids_remove]

/-- The first session leaves. -/
theorem remove_head (hnodup : (ids (e :: q)).Nodup) : remove (e :: q) e.id = q := by
  rw [remove, List.filter_cons_of_neg (by simp)]
  exact remove_of_notMem (List.nodup_cons.mp hnodup).1

/-- After the first sessions have left. -/
theorem find?_drop (hnodup : (ids q).Nodup) (n : Nat) (id : String) :
    find? (q.drop n) id = if id ∈ (ids q).take n then none else find? q id := by
  have hsplit : find? q id = (find? (q.take n) id).or (find? (q.drop n) id) := by
    rw [find?, find?, find?, ← List.find?_append, List.take_append_drop]
  have htake : (ids q).take n = ids (q.take n) := (List.map_take ..).symm
  rw [htake]
  by_cases hmem : id ∈ ids (q.take n)
  · rw [if_pos hmem, find?_eq_none]
    intro hdrop
    rw [ids, ← List.take_append_drop n q, List.map_append, List.nodup_append] at hnodup
    exact hnodup.2.2 id hmem id hdrop rfl
  · rw [if_neg hmem, hsplit, find?_eq_none.mpr hmem, Option.none_or]

theorem alive_alive {later : Nat} (hle : now ≤ later) :
    alive (alive q now) later = alive q later := by
  rw [alive, alive, alive, List.filter_filter]
  refine List.filter_congr fun x _ => ?_
  by_cases h : later ≤ x.deadline
  · simp [h, hle.trans h]
  · simp [h]

/-- The session with an id, if its deadline has not passed. -/
theorem find?_alive (hnodup : (ids q).Nodup) (now : Nat) (id : String) :
    find? (alive q now) id = (find? q id).filter (now ≤ ·.deadline) := by
  induction q with
  | nil => rfl
  | cons y q ih =>
    obtain ⟨hy, hrest⟩ := List.nodup_cons.mp hnodup
    rw [find?_cons]
    by_cases hid : y.id = id
    · rw [if_pos hid]
      by_cases hlive : now ≤ y.deadline
      · rw [alive, List.filter_cons_of_pos (by simpa using hlive), find?_cons, if_pos hid]
        simp [Option.filter, hlive]
      · have hnone : find? q id = none := find?_eq_none.mpr (hid ▸ hy)
        rw [alive, List.filter_cons_of_neg (by simpa using hlive), ← alive, ih hrest, hnone]
        simp [Option.filter, hlive]
    · rw [if_neg hid, ← ih hrest]
      by_cases hlive : now ≤ y.deadline
      · rw [alive, List.filter_cons_of_pos (by simpa using hlive), find?_cons, if_neg hid]
        rfl
      · rw [alive, List.filter_cons_of_neg (by simpa using hlive)]
        rfl

theorem alive_eq_self (h : ∀ x ∈ q, now ≤ x.deadline) : alive q now = q :=
  List.filter_eq_self.mpr fun x hx => decide_eq_true (h x hx)

theorem le_of_mem_alive {x : QueuedSession Text} (h : x ∈ alive q now) : now ≤ x.deadline := by
  simpa using (List.mem_filter.mp h).2

/-! ## Calls

Each call is made at a time when all sessions of the queue are alive; it replies, and leaves a
queue.
-/

section
variable (lua : Lua Text) (now : Nat) (user : String) (q : List (QueuedSession Text))

/-- The new session goes to the end of the queue.  The reply: how many sessions the user has
now, and how many had to leave. -/
def create (r : IndexedSessionCreateRequest Text) :
    Except ScriptError (Nat × Nat) × List (QueuedSession Text) :=
  match SessionStore.requestChecks lua r with
  | .error e => (.error e, q)
  | .ok () =>
    let pushed := push q ⟨r.sessionId, r.sessionJson, now + r.ttlSeconds * 1000⟩
    let left := trim pushed r.maxSessions
    (.ok (left.length, pushed.length - left.length), left)

/-- A session gets a new record and a new deadline, or turns out to have been idle for too
long. -/
def refresh [DecidableEq Text] (r : IndexedSessionRefreshRequest Text) :
    Except ScriptError (IndexedSessionRefreshResult Text) × List (QueuedSession Text) :=
  if r.ttlSeconds = 0 then (.error (.reply "invalid-session-ttl"), q)
  else
    match find? q r.sessionId with
    | none => (.ok ⟨none, false⟩, q)
    | some e =>
      if r.expectedSessionJson.any (· ≠ e.text) then (.ok ⟨some e.text, true⟩, q)
      else
        match SessionStore.refreshDecision lua e.text (some user) r with
        | .error error => (.error error, q)
        | .expired _ => (.ok ⟨none, false⟩, remove q r.sessionId)
        | .refreshed _ (.error error) => (.error error, q)
        | .refreshed _ (.ok text) =>
          (.ok ⟨some text, false⟩, push q ⟨r.sessionId, text, now + r.ttlSeconds * 1000⟩)

/-- A session is deleted. -/
def delete (id : String) : IndexedSessionDeleteResult × List (QueuedSession Text) :=
  match find? q id with
  | none => (⟨none, none, false, false⟩, q)
  | some e =>
    let payload := SessionStore.payload lua (some e.text)
    (⟨LuaValue.nonEmpty? (payload.get? "username"), some user, true, (remove q id).isEmpty⟩,
      remove q id)

/-- A session is deleted unless its record has changed. -/
def deleteCorrupt [DecidableEq Text] (id : String) (expected : Text) :
    Bool × List (QueuedSession Text) :=
  if (find? q id).map (·.text) = some expected then (true, remove q id) else (false, q)

/-- The record and the owner of a session. -/
def read (id : String) : IndexedSessionReadResult Text :=
  ⟨(find? q id).map (·.text), (find? q id).map fun _ => user⟩

variable {lua now user q}

/-- A refresh puts no session into the queue. -/
theorem sublist_refresh [DecidableEq Text] (r : IndexedSessionRefreshRequest Text) :
    (ids (refresh lua now user q r).2).Sublist (ids q) := by
  rw [refresh]
  split
  · exact .refl _
  · split
    · exact .refl _
    · rename_i e he
      have hmem : r.sessionId ∈ ids q := find?_isSome.mp (by rw [he]; rfl)
      split
      · exact .refl _
      · split
        · exact .refl _
        · exact List.filter_sublist.map _
        · exact .refl _
        · dsimp only
          rw [ids_push, if_pos hmem]

theorem sublist_delete (id : String) : (ids (delete lua user q id).2).Sublist (ids q) := by
  rw [delete]
  split
  · exact .refl _
  · exact List.filter_sublist.map _

theorem find?_delete (id id' : String) :
    find? (delete lua user q id).2 id' = if id' = id then none else find? q id' := by
  rw [delete]
  rcases he : find? q id with _ | e
  · by_cases heq : id' = id
    · rw [if_pos heq, heq]
      exact he
    · rw [if_neg heq]
  · exact find?_remove id'

theorem sublist_deleteCorrupt [DecidableEq Text] (id : String) (expected : Text) :
    (ids (deleteCorrupt q id expected).2).Sublist (ids q) := by
  rw [deleteCorrupt]
  split
  · exact List.filter_sublist.map _
  · exact .refl _

/-- A creation puts one session into the queue. -/
theorem sublist_create (r : IndexedSessionCreateRequest Text) :
    (ids (create lua now q r).2).Sublist (ids q ++ [r.sessionId]) := by
  rw [create]
  split
  · exact List.sublist_append_left _ _
  · have hpush : (ids (push q ⟨r.sessionId, r.sessionJson, now + r.ttlSeconds * 1000⟩)).Sublist
        (ids q ++ [r.sessionId]) := by
      rw [ids_push]
      split
      · exact List.sublist_append_left _ _
      · exact .refl _
    refine List.Sublist.trans ?_ hpush
    dsimp only
    rw [trim]
    split
    · exact .refl _
    · exact (List.drop_sublist _ _).map _

/-- A creation under a new id: as many sessions leave as there are too many, and none without
a limit. -/
theorem create_of_notMem {r : IndexedSessionCreateRequest Text}
    (haccepted : SessionStore.requestChecks lua r = .ok ()) (hid : r.sessionId ∉ ids q) :
    create lua now q r =
      let evicted := if r.maxSessions = 0 then 0 else q.length + 1 - r.maxSessions
      (.ok (q.length + 1 - evicted, evicted),
        q.drop evicted ++ [⟨r.sessionId, r.sessionJson, now + r.ttlSeconds * 1000⟩]) := by
  simp only [create, haccepted, push, if_neg hid, trim, List.length_append, List.length_singleton]
  by_cases hmax : r.maxSessions = 0
  · simp [hmax]
  · rw [if_neg hmax, if_neg hmax, List.drop_append_of_le_length (by omega)]
    refine Prod.ext (congrArg Except.ok (Prod.ext ?_ ?_)) rfl
    · simp only [List.length_append, List.length_drop, List.length_singleton]
      omega
    · simp only [List.length_append, List.length_drop, List.length_singleton]
      omega

/-- It leaves no more sessions than allowed. -/
theorem length_create_le (r : IndexedSessionCreateRequest Text) (h : 1 ≤ r.maxSessions) :
    (create lua now q r).2.length ≤ max q.length r.maxSessions := by
  rw [create]
  split
  · exact le_max_left _ _
  · dsimp only
    rw [trim, if_neg (by omega), List.length_drop]
    omega

end

end SessionQueue
end QueryCraft
