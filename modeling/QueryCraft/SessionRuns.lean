import QueryCraft.SessionScripts
import QueryCraft.Transitions

/-! # Runs of the session store

Clients sign in and out, make requests, and time passes.  Session ids are random and are never
given to another user, and all callers use the same idle time; nothing else is assumed, not
even that the clocks of the clients agree with the one of Redis.

Every run gives the replies that the queues give (`sessions_are_queues`).  It follows that no
user ever has more sessions than allowed, all of them listed in the user's index
(`sessions_indexed`), that a sign-in evicts the oldest sessions and no others (`create_keeps`),
and that a session that is gone never comes back (`signed_out_stays`).
-/
namespace QueryCraft
open SessionStore SessionQueue

variable {Text : Type}

/-- A call of the session repository; `pass` lets some milliseconds pass. -/
inductive SessionCall (Text : Type) where
  | create (r : IndexedSessionCreateRequest Text)
  | refresh (r : IndexedSessionRefreshRequest Text)
  | delete (id : String)
  | deleteCorrupt (id : String) (expected : Text)
  | read (id : String)
  | pass (milliseconds : Nat)

/-- What a call returns.  Of a creation these are the numbers of sessions that the user has and
that were evicted; its third number, the position in the index, is known to Redis only. -/
inductive SessionReply (Text : Type) where
  | created (result : Except ScriptError (Nat × Nat))
  | refreshed (result : Except ScriptError (IndexedSessionRefreshResult Text))
  | deleted (result : IndexedSessionDeleteResult)
  | deletedCorrupt (done : Bool)
  | read (result : IndexedSessionReadResult Text)
  | passed

/-- The ids are not shared among users, and the idle time is the same for all. -/
def SessionCall.Fits (userOf : String → String) (ttlSeconds : Nat) : SessionCall Text → Prop
  | create r => userOf r.sessionId = r.userId ∧ r.userId ≠ "" ∧ r.ttlSeconds = ttlSeconds
  | refresh r => r.ttlSeconds = ttlSeconds
  | _ => True

/-- Redis, with its clock. -/
structure SessionState (Text : Type) where
  now : Nat
  store : SessionStore Text

/-- The queues of all users. -/
structure SessionQueues (Text : Type) where
  now : Nat
  queue : String → List (QueuedSession Text)

section
variable [DecidableEq Text] (lua : Lua Text)

/-- A call executed by the scripts. -/
def SessionState.perform (σ : SessionState Text) : SessionCall Text →
    SessionReply Text × SessionState Text
  | .create r =>
    let (result, s) := σ.store.createIndexedSession lua σ.now r
    (.created (result.map fun x => (x.liveIndexedSessions, x.evictedSessions)),
      { σ with store := s })
  | .refresh r =>
    let (result, s) := σ.store.refreshIndexedSessionState lua σ.now r
    (.refreshed result, { σ with store := s })
  | .delete id =>
    let (result, s) := σ.store.deleteIndexedSession lua σ.now id
    (.deleted result, { σ with store := s })
  | .deleteCorrupt id expected =>
    let (done, s) := σ.store.deleteCorruptIndexedSession lua σ.now id expected
    (.deletedCorrupt done, { σ with store := s })
  | .read id => (.read (σ.store.readIndexedSession σ.now id), σ)
  | .pass milliseconds => (.passed, { σ with now := σ.now + milliseconds })

namespace SessionQueues

/-- The sessions of a user that are alive. -/
def sessions (τ : SessionQueues Text) (user : String) : List (QueuedSession Text) :=
  alive (τ.queue user) τ.now

/-- A user gets another queue. -/
def set (τ : SessionQueues Text) (user : String) (q : List (QueuedSession Text)) :
    SessionQueues Text :=
  { τ with queue := Function.update τ.queue user q }

/-- A call executed on the queues. -/
def perform (userOf : String → String) (τ : SessionQueues Text) : SessionCall Text →
    SessionReply Text × SessionQueues Text
  | .create r =>
    let (result, q) := create lua τ.now (τ.sessions r.userId) r
    (.created result, τ.set r.userId q)
  | .refresh r =>
    let user := userOf r.sessionId
    let (result, q) := refresh lua τ.now user (τ.sessions user) r
    (.refreshed result, τ.set user q)
  | .delete id =>
    let user := userOf id
    let (result, q) := delete lua user (τ.sessions user) id
    (.deleted result, τ.set user q)
  | .deleteCorrupt id expected =>
    let user := userOf id
    let (done, q) := deleteCorrupt (τ.sessions user) id expected
    (.deletedCorrupt done, τ.set user q)
  | .read id => (.read (SessionQueue.read (userOf id) (τ.sessions (userOf id)) id), τ)
  | .pass milliseconds => (.passed, { τ with now := τ.now + milliseconds })

end SessionQueues
end

/-! ## The scripts implement the queues -/

/-- The keys in Redis hold the queues of all users. -/
structure Implements (lua : Lua Text) (userOf : String → String) (ttlSeconds : Nat)
    (σ : SessionState Text) (τ : SessionQueues Text) : Prop where
  now : τ.now = σ.now
  represents : ∀ user, Represents lua userOf ttlSeconds σ.store σ.now user (τ.sessions user)

variable {lua : Lua Text} {userOf : String → String} {ttlSeconds : Nat} {σ : SessionState Text}
  {τ : SessionQueues Text}

theorem sessions_set_self (τ : SessionQueues Text) {user : String} {q : List (QueuedSession Text)}
    (h : ∀ e ∈ q, τ.now ≤ e.deadline) : (τ.set user q).sessions user = q := by
  show alive (Function.update τ.queue user q user) τ.now = q
  rw [Function.update_self]
  exact alive_eq_self h

theorem sessions_set_of_ne (τ : SessionQueues Text) {user u : String} (h : u ≠ user)
    (q : List (QueuedSession Text)) : (τ.set user q).sessions u = τ.sessions u := by
  show alive (Function.update τ.queue user q u) τ.now = _
  rw [Function.update_of_ne h]
  rfl

namespace Implements

/-- The queue of one user changes. -/
theorem set (h : Implements lua userOf ttlSeconds σ τ) {user : String} {s : SessionStore Text}
    {q : List (QueuedSession Text)} (hq : Represents lua userOf ttlSeconds s σ.now user q)
    (hframe : Elsewhere userOf σ.now user σ.store s) :
    Implements lua userOf ttlSeconds { σ with store := s } (τ.set user q) where
  now := h.now
  represents u := by
    by_cases hu : u = user
    · subst hu
      rw [sessions_set_self τ fun e he => h.now ▸ (hq.entry e he).2.2.2.1]
      exact hq
    · rw [sessions_set_of_ne τ hu]
      exact (h.represents u).elsewhere hframe hu

theorem pass (h : Implements lua userOf ttlSeconds σ τ) (milliseconds : Nat) :
    Implements lua userOf ttlSeconds { σ with now := σ.now + milliseconds }
      { τ with now := τ.now + milliseconds } where
  now := congrArg (· + milliseconds) h.now
  represents user := by
    have hsame : ({ τ with now := τ.now + milliseconds } : SessionQueues Text).sessions user =
        alive (τ.sessions user) (σ.now + milliseconds) := by
      rw [SessionQueues.sessions, SessionQueues.sessions, h.now,
        alive_alive (Nat.le_add_right _ _)]
    rw [hsame]
    exact (h.represents user).later (Nat.le_add_right _ _)

/-- One call: the same reply, and the queues are held again. -/
theorem perform [DecidableEq Text] (h : Implements lua userOf ttlSeconds σ τ)
    {call : SessionCall Text} (hfits : call.Fits userOf ttlSeconds) :
    (σ.perform lua call).1 = (τ.perform lua userOf call).1 ∧
      Implements lua userOf ttlSeconds (σ.perform lua call).2 (τ.perform lua userOf call).2 := by
  have hnow := h.now
  cases call with
  | create r =>
    obtain ⟨hid, huser, httl⟩ := hfits
    obtain ⟨hreply, hq, hframe⟩ :=
      createIndexedSession_spec (h.represents r.userId) hid rfl huser httl
    simp only [SessionState.perform, SessionQueues.perform, hnow]
    exact ⟨congrArg SessionReply.created hreply, h.set hq hframe⟩
  | refresh r =>
    obtain ⟨hreply, hq, hframe⟩ := refreshIndexedSessionState_spec
      (h.represents (userOf r.sessionId)) (r := r) rfl hfits
    simp only [SessionState.perform, SessionQueues.perform, hnow]
    exact ⟨congrArg SessionReply.refreshed hreply, h.set hq hframe⟩
  | delete id =>
    obtain ⟨hreply, hq, hframe⟩ := deleteIndexedSession_spec (h.represents (userOf id)) rfl
    exact ⟨congrArg SessionReply.deleted hreply, h.set hq hframe⟩
  | deleteCorrupt id expected =>
    obtain ⟨hreply, hq, hframe⟩ :=
      deleteCorruptIndexedSession_spec (h.represents (userOf id)) rfl expected
    exact ⟨congrArg SessionReply.deletedCorrupt hreply, h.set hq hframe⟩
  | read id => exact ⟨congrArg SessionReply.read (readIndexedSession_spec (h.represents _) rfl), h⟩
  | pass milliseconds => exact ⟨rfl, h.pass milliseconds⟩

end Implements

/-- No sessions, at some time. -/
def SessionState.start (now : Nat) : SessionState Text := ⟨now, SessionStore.empty⟩

/-- Empty queues, at some time. -/
def SessionQueues.start (now : Nat) : SessionQueues Text := ⟨now, fun _ => []⟩

theorem implements_start (now : Nat) :
    Implements lua userOf ttlSeconds (SessionState.start now) (SessionQueues.start now) :=
  ⟨rfl, fun user => .empty lua userOf ttlSeconds now user⟩

section
variable [DecidableEq Text] (lua : Lua Text) (userOf : String → String) (ttlSeconds now : Nat)
  {calls : List (SessionCall Text)}

/-- The state after some calls. -/
def SessionState.after (calls : List (SessionCall Text)) : SessionState Text :=
  (transcript (SessionState.perform lua) (.start now) calls).2

/-- The queues after some calls. -/
def SessionQueues.after (calls : List (SessionCall Text)) : SessionQueues Text :=
  (transcript (SessionQueues.perform lua userOf) (.start now) calls).2

variable {lua userOf ttlSeconds now}

theorem implements_after (hfits : ∀ call ∈ calls, call.Fits userOf ttlSeconds) :
    Implements lua userOf ttlSeconds (SessionState.after lua now calls)
      (SessionQueues.after lua userOf now calls) :=
  (transcript_simulation (fun _ _ _ h hcall => h.perform hcall) calls (implements_start now)
    hfits).2

variable (lua userOf ttlSeconds now)

/-- Whatever calls are made, in whatever order and at whatever times: the replies are those of
the queues. -/
theorem sessions_are_queues (calls : List (SessionCall Text))
    (hfits : ∀ call ∈ calls, call.Fits userOf ttlSeconds) :
    (transcript (SessionState.perform lua) (.start now) calls).1 =
      (transcript (SessionQueues.perform lua userOf) (.start now) calls).1 :=
  (transcript_simulation (fun _ _ _ h hcall => h.perform hcall) calls (implements_start now)
    hfits).1

end

/-! ### An instance

Records that are flat: their fields are strings and numbers.
-/

/-- A field of a flat record. -/
inductive FlatValue where
  | text (s : String)
  | number (d : Decimal)
deriving DecidableEq, Repr

def FlatValue.value : FlatValue → LuaValue
  | text s => .str s
  | number d => .number d

/-- The field that a value is written as. -/
def flat? (field : String × LuaValue) : Option (String × FlatValue) :=
  match field.2 with
  | .str s => some (field.1, .text s)
  | .number d => some (field.1, .number d)
  | _ => none

theorem flat?_key {field : String × LuaValue} {f : String × FlatValue} (h : flat? field = some f) :
    f.1 = field.1 := by
  rw [flat?] at h
  split at h
  · exact (congrArg Prod.fst (Option.some.inj h)).symm
  · exact (congrArg Prod.fst (Option.some.inj h)).symm
  · cases h

theorem lookup_flat {key text : String} : ∀ fields : List (String × LuaValue),
    fields.lookup key = some (.str text) →
    ((fields.filterMap flat?).map fun f => (f.1, f.2.value)).lookup key = some (.str text)
  | [], h => by cases h
  | (k, v) :: fields, h => by
    rw [List.lookup_cons] at h
    by_cases hk : key = k
    · rw [beq_iff_eq.mpr hk] at h
      obtain rfl := Option.some.inj h
      simp [flat?, FlatValue.value, hk]
    · rw [beq_eq_false_iff_ne.mpr hk] at h
      rw [List.filterMap_cons]
      rcases hflat : flat? (k, v) with _ | f
      · exact lookup_flat fields h
      · rw [List.map_cons, List.lookup_cons, flat?_key hflat, beq_eq_false_iff_ne.mpr hk]
        exact lookup_flat fields h

/-- Lua with flat records. -/
def flatLua : Lua (List (String × FlatValue)) where
  decode text := some (.table (text.map fun f => (f.1, f.2.value)))
  encode v :=
    match v with
    | .table fields => fields.filterMap flat?
    | _ => []
  toNumber v :=
    match v with
    | .number d => some d
    | _ => none
  scaled d := d.mantissa * 1000000 / (10 ^ d.scale : Nat)
  decode_encode fields := ⟨_, rfl, fun _ _ => lookup_flat fields⟩

/-- A sign-in of one user, who may have one session; sessions are idle after an hour. -/
def flatLogin (id : String) (time : Int) :
    IndexedSessionCreateRequest (List (String × FlatValue)) where
  userId := "ann"
  sessionId := id
  sessionJson := [("user_id", .text "ann"), ("last_activity", .number ⟨time, 0⟩)]
  createdAt := ⟨time, 0⟩
  maxSessions := 1
  ttlSeconds := 3600

/-- A request within a session. -/
def flatRequest (id : String) (time : Int) :
    IndexedSessionRefreshRequest (List (String × FlatValue)) where
  sessionId := id
  time := ⟨time, 0⟩
  ttlSeconds := 3600
  expectedSessionJson := none
  replacementSessionJson := none

def flatCalls : List (SessionCall (List (String × FlatValue))) :=
  [.create (flatLogin "a" 5), .pass 1000, .refresh (flatRequest "a" 6), .create (flatLogin "b" 7)]

theorem flatCalls_fit : ∀ call ∈ flatCalls, call.Fits (fun _ => "ann") 3600 := by
  simp [flatCalls, SessionCall.Fits, flatLogin, flatRequest]

theorem sessions_are_queues_flat :
    (transcript (SessionState.perform flatLua) (.start 0) flatCalls).1 =
      (transcript (SessionQueues.perform flatLua fun _ => "ann") (.start 0) flatCalls).1 :=
  sessions_are_queues flatLua (fun _ => "ann") 3600 0 flatCalls flatCalls_fit

/-! ## What a call does to the queues -/

theorem Implements.find? (h : Implements lua userOf ttlSeconds σ τ) {id : String} {text : Text}
    (hid : σ.store.session? σ.now id = some text) :
    ∃ e ∈ τ.sessions (userOf id), e.id = id ∧ e.text = text := by
  rw [(h.represents (userOf id)).session? rfl] at hid
  obtain ⟨e, he, rfl⟩ := Option.map_eq_some_iff.mp hid
  obtain ⟨hmem, heid⟩ := mem_of_find? he
  exact ⟨e, hmem, heid, rfl⟩

section
variable [DecidableEq Text]

/-- The ids that a call may bring along. -/
def SessionCall.created (user : String) : SessionCall Text → List String
  | create r => if user = r.userId then [r.sessionId] else []
  | _ => []

/-- Only a creation brings a session, and it brings the one with its id. -/
theorem sublist_perform (τ : SessionQueues Text) (call : SessionCall Text) (user : String) :
    (ids ((τ.perform lua userOf call).2.sessions user)).Sublist
      (ids (τ.sessions user) ++ call.created user) := by
  have hset : ∀ (u : String) (q : List (QueuedSession Text)) (l : List String),
      (u = user → (ids q).Sublist (ids (τ.sessions user) ++ l)) →
      (ids ((τ.set u q).sessions user)).Sublist (ids (τ.sessions user) ++ l) := by
    intro u q l hq
    by_cases hu : user = u
    · subst hu
      refine List.Sublist.trans ?_ (hq rfl)
      show (ids (alive (Function.update τ.queue user q user) τ.now)).Sublist (ids q)
      rw [Function.update_self]
      exact List.filter_sublist.map _
    · rw [sessions_set_of_ne τ hu]
      exact List.sublist_append_left _ _
  cases call with
  | create r =>
    refine hset _ _ _ fun hu => ?_
    rw [SessionCall.created, if_pos hu.symm, ← hu]
    exact sublist_create r
  | refresh r =>
    refine hset _ _ _ fun hu => ?_
    subst hu
    exact (sublist_refresh r).trans (List.sublist_append_left _ _)
  | delete id =>
    refine hset _ _ _ fun hu => ?_
    subst hu
    exact (sublist_delete id).trans (List.sublist_append_left _ _)
  | deleteCorrupt id expected =>
    refine hset _ _ _ fun hu => ?_
    subst hu
    exact (sublist_deleteCorrupt id expected).trans (List.sublist_append_left _ _)
  | read id => exact List.sublist_append_left _ _
  | pass milliseconds =>
    refine List.Sublist.trans ?_ (List.sublist_append_left _ _)
    show (ids (alive (τ.queue user) (τ.now + milliseconds))).Sublist _
    rw [← alive_alive (Nat.le_add_right τ.now milliseconds)]
    exact List.filter_sublist.map _

/-- No user gets more sessions than allowed. -/
theorem length_perform {N : Nat} (hτ : ∀ user, (τ.sessions user).length ≤ N)
    (call : SessionCall Text)
    (hmax : ∀ r, call = .create r → 1 ≤ r.maxSessions ∧ r.maxSessions ≤ N) (user : String) :
    ((τ.perform lua userOf call).2.sessions user).length ≤ N := by
  by_cases hcreated : call.created user = []
  · have hsub : (ids ((τ.perform lua userOf call).2.sessions user)).length ≤ _ :=
      (sublist_perform τ call user).length_le
    rw [hcreated, List.append_nil, ids, ids, List.length_map, List.length_map] at hsub
    exact hsub.trans (hτ user)
  · cases call with
    | create r =>
      by_cases hu : user = r.userId
      · subst hu
        have hle : (create lua τ.now (τ.sessions r.userId) r).2.length ≤ _ :=
          length_create_le r (hmax r rfl).1
        have hbound := max_le (hτ r.userId) (hmax r rfl).2
        refine le_trans ?_ (hle.trans hbound)
        show (alive (Function.update τ.queue r.userId _ r.userId) τ.now).length ≤ _
        rw [Function.update_self]
        exact List.length_filter_le _ _
      · rw [SessionCall.created, if_neg hu] at hcreated
        exact absurd rfl hcreated
    | _ => exact absurd rfl hcreated

end

/-- After any calls: a session that can be read names its user, the owner stored with it is
this user, and the index of the user lists it; and if all sign-ins have a limit, no user has
more sessions than allowed. -/
theorem sessions_indexed [DecidableEq Text] (lua : Lua Text) (userOf : String → String)
    (ttlSeconds now : Nat) (calls : List (SessionCall Text))
    (hfits : ∀ call ∈ calls, call.Fits userOf ttlSeconds) :
    let σ := SessionState.after lua now calls
    (∀ id text, σ.store.session? σ.now id = some text →
      lua.Names text (userOf id) ∧ σ.store.owner? σ.now id = some (userOf id) ∧
        id ∈ σ.store.indexMembers σ.now (userOf id)) ∧
      ∀ N, (∀ r, .create r ∈ calls → 1 ≤ r.maxSessions ∧ r.maxSessions ≤ N) →
        ∀ user (ids : List String), ids.Nodup →
          (∀ id ∈ ids, ∃ text, σ.store.session? σ.now id = some text ∧ lua.Names text user) →
          ids.length ≤ N := by
  intro σ
  have himplements : Implements lua userOf ttlSeconds σ
      (SessionQueues.after lua userOf now calls) := implements_after hfits
  have hlength : ∀ N, (∀ r, .create r ∈ calls → 1 ≤ r.maxSessions ∧ r.maxSessions ≤ N) →
      ∀ user, ((SessionQueues.after lua userOf now calls).sessions user).length ≤ N :=
    fun N hmax => transcript_invariant
      (I := fun τ : SessionQueues Text => ∀ user, (τ.sessions user).length ≤ N)
      (fun τ call hτ hcall => length_perform hτ call hcall) calls (fun _ => Nat.zero_le _)
      fun call hcall r hr => hmax r (hr ▸ hcall)
  generalize SessionQueues.after lua userOf now calls = τ at himplements hlength
  have hnames : ∀ id text, σ.store.session? σ.now id = some text →
      lua.Names text (userOf id) := by
    intro id text hid
    obtain ⟨e, he, -, rfl⟩ := himplements.find? hid
    exact ((himplements.represents (userOf id)).entry e he).2.2.1
  refine ⟨fun id text hid => ⟨hnames id text hid, ?_, ?_⟩,
    fun N hmax user ids' hnodup hids => ?_⟩
  · rw [(himplements.represents (userOf id)).session? rfl] at hid
    obtain ⟨e, he, -⟩ := Option.map_eq_some_iff.mp hid
    rw [(himplements.represents (userOf id)).owner? rfl, he]
    rfl
  · obtain ⟨e, he, rfl, -⟩ := himplements.find? hid
    obtain ⟨l, t, hindex, -, hl, -⟩ := (himplements.represents (userOf e.id)).index
    rw [hindex.indexMembers]
    exact hl.subset (List.mem_map_of_mem he)
  · have hsub : ids' ⊆ ids (τ.sessions user) := by
      intro id hid
      obtain ⟨text, htext, fields, hdecode, hfields⟩ := hids id hid
      obtain ⟨fields', hdecode', hfields'⟩ := hnames id text htext
      rw [hdecode] at hdecode'
      obtain rfl := LuaValue.table.inj (Option.some.inj hdecode')
      rw [hfields] at hfields'
      obtain rfl := LuaValue.str.inj (Option.some.inj hfields')
      obtain ⟨e, he, rfl, -⟩ := himplements.find? htext
      exact List.mem_map_of_mem he
    calc ids'.length ≤ (ids (τ.sessions user)).length :=
          (List.subperm_of_subset hnodup hsub).length_le
      _ = (τ.sessions user).length := List.length_map _
      _ ≤ N := hlength N hmax user

/-- The sessions after `flatCalls`. -/
def flatState : SessionState (List (String × FlatValue)) :=
  SessionState.after flatLua 0 flatCalls

theorem sessions_indexed_flat :
    (∀ id text, flatState.store.session? flatState.now id = some text →
      flatLua.Names text "ann" ∧ flatState.store.owner? flatState.now id = some "ann" ∧
        id ∈ flatState.store.indexMembers flatState.now "ann") ∧
      ∀ user (ids : List String), ids.Nodup →
        (∀ id ∈ ids, ∃ text, flatState.store.session? flatState.now id = some text ∧
          flatLua.Names text user) → ids.length ≤ 1 :=
  have h := sessions_indexed flatLua (fun _ => "ann") 3600 0 flatCalls flatCalls_fit
  ⟨h.1, h.2 1 (by simp [flatCalls, flatLogin])⟩

/-! ## Signing out -/

/-- Without a creation under its id, a session that is not in the queue does not get there. -/
theorem notMem_sessions_of_calls [DecidableEq Text] {id user : String}
    {calls : List (SessionCall Text)}
    (hcreate : ∀ r, .create r ∈ calls → r.sessionId ≠ id) (h : id ∉ ids (τ.sessions user)) :
    id ∉ ids ((transcript (SessionQueues.perform lua userOf) τ calls).2.sessions user) := by
  refine transcript_invariant (I := fun τ : SessionQueues Text => id ∉ ids (τ.sessions user))
    (P := fun call => ∀ r, call = .create r → r.sessionId ≠ id) (fun τ call hτ hcall hmem => ?_)
    calls h fun call hcall r hr => hcreate r (hr ▸ hcall)
  rcases List.mem_append.mp ((sublist_perform τ call user).subset hmem) with hmem | hmem
  · exact hτ hmem
  · cases call with
    | create r =>
      rw [SessionCall.created] at hmem
      split at hmem
      · exact hcall r rfl (List.mem_singleton.mp hmem).symm
      · cases hmem
    | _ => cases hmem

/-- What a reader finds. -/
def SessionState.read (σ : SessionState Text) (id : String) : IndexedSessionReadResult Text :=
  σ.store.readIndexedSession σ.now id

theorem Implements.read (h : Implements lua userOf ttlSeconds σ τ) (id : String) :
    σ.read id = SessionQueue.read (userOf id) (τ.sessions (userOf id)) id :=
  readIndexedSession_spec (h.represents (userOf id)) rfl

theorem Implements.read_eq_none (h : Implements lua userOf ttlSeconds σ τ) {id : String} :
    σ.read id = ⟨none, none⟩ ↔ id ∉ ids (τ.sessions (userOf id)) := by
  rw [h.read, SessionQueue.read, ← find?_eq_none]
  rcases SessionQueue.find? (τ.sessions (userOf id)) id with _ | e
  · simp
  · simp

/-- Signing out makes a session unreadable and leaves all other sessions as they are; and a
session that cannot be read, for whatever reason, stays unreadable whatever else happens, unless
one is created under its id. -/
theorem signed_out_stays [DecidableEq Text] (lua : Lua Text) (userOf : String → String)
    (ttlSeconds now : Nat) (id : String) (calls later : List (SessionCall Text))
    (hfits : ∀ call ∈ calls ++ later, call.Fits userOf ttlSeconds)
    (hcreate : ∀ r, .create r ∈ later → r.sessionId ≠ id) :
    let σ := SessionState.after lua now calls
    let out := (σ.perform lua (.delete id)).2
    out.read id = ⟨none, none⟩ ∧ (∀ id', id' ≠ id → out.read id' = σ.read id') ∧
      (σ.read id = ⟨none, none⟩ →
        (transcript (SessionState.perform lua) σ later).2.read id = ⟨none, none⟩) := by
  intro σ out
  have h : Implements lua userOf ttlSeconds σ (SessionQueues.after lua userOf now calls) :=
    implements_after fun call hcall => hfits call (List.mem_append_left _ hcall)
  generalize SessionQueues.after lua userOf now calls = τ at h
  have hq := h.represents (userOf id)
  obtain ⟨-, hout, hframe⟩ := deleteIndexedSession_spec hq (rfl : userOf id = userOf id)
  refine ⟨?_, fun id' hne => ?_, fun hnone => ?_⟩
  · refine (readIndexedSession_spec hout rfl).trans ?_
    rw [SessionQueue.read, find?_delete, if_pos rfl]
    rfl
  · by_cases huser : userOf id' = userOf id
    · refine (readIndexedSession_spec hout huser).trans ?_
      rw [h.read, SessionQueue.read, find?_delete, if_neg hne, huser]
      rfl
    · exact hframe.read huser
  · have hlater : Implements lua userOf ttlSeconds
        (transcript (SessionState.perform lua) σ later).2
        (transcript (SessionQueues.perform lua userOf) τ later).2 :=
      (transcript_simulation (fun _ _ _ h hcall => h.perform hcall) later h
        fun call hcall => hfits call (List.mem_append_right _ hcall)).2
    exact hlater.read_eq_none.mpr (notMem_sessions_of_calls hcreate (h.read_eq_none.mp hnone))

/-- Ann's first session was evicted by her second sign-in. -/
theorem signed_out_stays_flat :
    flatState.read "a" = ⟨none, none⟩ ∧
      (transcript (SessionState.perform flatLua) flatState
        [.pass 10, .refresh (flatRequest "a" 8), .delete "b"]).2.read "a" = ⟨none, none⟩ :=
  have h := signed_out_stays flatLua (fun _ => "ann") 3600 0 "a" flatCalls
    [.pass 10, .refresh (flatRequest "a" 8), .delete "b"]
    (List.forall_mem_append.mpr ⟨flatCalls_fit, by simp [SessionCall.Fits, flatRequest]⟩) (by simp)
  ⟨rfl, h.2.2 rfl⟩

/-! ## Signing in -/

/-- The ids of a user's sessions, the oldest first. -/
def SessionState.sessionIds (σ : SessionState Text) (user : String) : List String :=
  (σ.store.indexMembers σ.now user).filter fun id => (σ.store.session? σ.now id).isSome

theorem SessionState.sessionIds_eq {user : String} {q : List (QueuedSession Text)}
    (hq : Represents lua userOf ttlSeconds σ.store σ.now user q) : σ.sessionIds user = ids q := by
  obtain ⟨l, t, hindex, hl, hids, -⟩ := hq.index
  rw [SessionState.sessionIds, hindex.indexMembers, ← filter_mem_of_sublist hids hindex.nodup]
  refine List.filter_congr fun id hid => ?_
  rw [SessionStore.session?, Option.isSome_map, Bool.eq_iff_iff, hq.session_isSome (hl id hid)]
  simp

/-- A sign-in with a new session id makes the session readable; of the user's sessions the
oldest leave, exactly as many as there are too many, or none if there is no limit, and all
others, of this user and of other users, stay as they are. -/
theorem create_keeps [DecidableEq Text] (lua : Lua Text) (userOf : String → String)
    (ttlSeconds now : Nat) (calls : List (SessionCall Text))
    (r : IndexedSessionCreateRequest Text)
    (hfits : ∀ call ∈ calls ++ [.create r], call.Fits userOf ttlSeconds)
    (haccepted : requestChecks lua r = .ok ())
    (hnew : (SessionState.after lua now calls).read r.sessionId = ⟨none, none⟩) :
    let σ := SessionState.after lua now calls
    let out := (σ.perform lua (.create r)).2
    let mine := σ.sessionIds r.userId
    let evicted := if r.maxSessions = 0 then 0 else mine.length + 1 - r.maxSessions
    (σ.perform lua (.create r)).1 = .created (.ok (mine.length + 1 - evicted, evicted)) ∧
      out.read r.sessionId = ⟨some r.sessionJson, some r.userId⟩ ∧
      out.sessionIds r.userId = mine.drop evicted ++ [r.sessionId] ∧
      ∀ id, id ≠ r.sessionId →
        out.read id = if id ∈ mine.take evicted then ⟨none, none⟩ else σ.read id := by
  intro σ out mine evicted
  have hcall := hfits (.create r) (List.mem_append_right _ List.mem_cons_self)
  obtain ⟨hid, huser, httl⟩ := hcall
  have h : Implements lua userOf ttlSeconds σ (SessionQueues.after lua userOf now calls) :=
    implements_after fun call hcall => hfits call (List.mem_append_left _ hcall)
  generalize SessionQueues.after lua userOf now calls = τ at h
  have hq := h.represents r.userId
  have hfresh : r.sessionId ∉ ids (τ.sessions r.userId) := hid ▸ h.read_eq_none.mp hnew
  have hmine : mine = ids (τ.sessions r.userId) := SessionState.sessionIds_eq hq
  have hlength : mine.length = (τ.sessions r.userId).length := by
    rw [hmine, ids, List.length_map]
  obtain ⟨hreply, hout, hframe⟩ := createIndexedSession_spec hq hid rfl huser httl
  have hcreate : create lua σ.now (τ.sessions r.userId) r =
      (.ok (mine.length + 1 - evicted, evicted), (τ.sessions r.userId).drop evicted ++
        [⟨r.sessionId, r.sessionJson, σ.now + r.ttlSeconds * 1000⟩]) := by
    rw [create_of_notMem haccepted hfresh, ← hlength]
  rw [hcreate] at hreply hout
  have hnot : r.sessionId ∉ ids ((τ.sessions r.userId).drop evicted) := fun hmem =>
    hfresh (((List.drop_sublist _ _).map _).subset hmem)
  have hpush : ∀ e : QueuedSession Text, e.id = r.sessionId →
      (τ.sessions r.userId).drop evicted ++ [e] = push ((τ.sessions r.userId).drop evicted) e :=
    fun e he => (push_of_notMem (he ▸ hnot)).symm
  refine ⟨congrArg SessionReply.created hreply, ?_, ?_, fun id hne => ?_⟩
  · refine (readIndexedSession_spec hout hid).trans ?_
    rw [SessionQueue.read, hpush _ rfl, find?_push, if_pos rfl]
    rfl
  · refine (SessionState.sessionIds_eq hout).trans ?_
    rw [ids, List.map_append, List.map_drop, ← ids, ← hmine]
    rfl
  · by_cases hother : userOf id = r.userId
    · refine (readIndexedSession_spec hout hother).trans ?_
      rw [SessionQueue.read, hpush _ rfl, find?_push, if_neg hne, find?_drop hq.nodup, ← hmine,
        h.read, hother]
      split
      · rfl
      · rfl
    · have hkept : id ∉ mine.take evicted := by
        intro hmem
        rw [hmine] at hmem
        obtain ⟨e, he, rfl⟩ := List.mem_map.mp (List.mem_of_mem_take hmem)
        exact hother (hq.entry e he).1
      rw [if_neg hkept]
      exact hframe.read hother

/-- A sign-in of one user, who may have two sessions. -/
def flatSignIn (id : String) (time : Int) :
    IndexedSessionCreateRequest (List (String × FlatValue)) :=
  { flatLogin id time with maxSessions := 2 }

/-- Two sessions. -/
def flatPair : SessionState (List (String × FlatValue)) :=
  SessionState.after flatLua 0 [.create (flatSignIn "a" 5), .create (flatSignIn "b" 6)]

/-- The third sign-in evicts the first session and keeps the second one. -/
theorem create_keeps_flat :
    let out := flatPair.perform flatLua (.create (flatSignIn "c" 7))
    flatPair.sessionIds "ann" = ["a", "b"] ∧ out.1 = .created (.ok (2, 1)) ∧
      out.2.read "c" = ⟨some (flatSignIn "c" 7).sessionJson, some "ann"⟩ ∧
      out.2.sessionIds "ann" = ["b", "c"] ∧ out.2.read "a" = ⟨none, none⟩ ∧
      out.2.read "b" = ⟨some (flatSignIn "b" 6).sessionJson, some "ann"⟩ :=
  have h := create_keeps flatLua (fun _ => "ann") 3600 0
    [.create (flatSignIn "a" 5), .create (flatSignIn "b" 6)] (flatSignIn "c" 7)
    (by simp [SessionCall.Fits, flatSignIn, flatLogin]) rfl rfl
  ⟨rfl, h.1, h.2.1, h.2.2.1, h.2.2.2 "a" (by decide), h.2.2.2 "b" (by decide)⟩

end QueryCraft
