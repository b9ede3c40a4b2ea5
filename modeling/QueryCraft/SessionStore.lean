import Mathlib.Data.String.Basic
import QueryCraft.Expiring
import QueryCraft.SessionRefresh
import QueryCraft.SortedSet

/-! # The sessions in Redis

`session_repository.py` keeps the signed-in sessions in Redis.  A session has two keys, its
record and its owner, which expire together; a user has a sorted set with the ids of the
sessions, in the order of their creation, and a counter from which the scores get their last
digits.  Four Lua scripts create, refresh and delete sessions.  A script is executed as a
whole, and no time passes while it runs.

Keys of the four kinds have different prefixes, so that they are stored apart here, each kind
with the type of its values; the scripts' checks of the key types have no counterpart.  Times
of expiry are in milliseconds.  Scores are integers, which Lua and Redis hold exactly up to
2^53; in microseconds this is the year 2255.
-/
namespace QueryCraft

/-- What the scripts use of Lua and `cjson`, for JSON texts of type `Text`. -/
structure Lua (Text : Type) where
  /-- `cjson.decode`, which may raise an error. -/
  decode : Text → Option LuaValue
  /-- `cjson.encode`. -/
  encode : LuaValue → Text
  /-- `tonumber`. -/
  toNumber : LuaValue → Option Decimal
  /-- `math.floor(seconds * 1000000)`. -/
  scaled : Decimal → Int
  /-- An encoded table is decoded to a table with the same strings. -/
  decode_encode : ∀ fields, ∃ fields', decode (encode (.table fields)) = some (.table fields') ∧
    ∀ key text, fields.lookup key = some (.str text) → fields'.lookup key = some (.str text)

/-- Why a script stops: it replies with an error, or Lua or `cjson` raise one. -/
inductive ScriptError where
  | reply (message : String)
  | raised
deriving DecidableEq, Repr

/-- The keys `session:`, `session_owner:`, `user_sessions:` and `user_sessions_seq:`. -/
structure SessionStore (Text : Type) where
  sessions : KeySpace String Text
  owners : KeySpace String String
  indexes : KeySpace String (SortedSet String)
  sequences : KeySpace String Nat

/-- A limit of 0 stands for none, and a negative one is the same as 0. -/
structure IndexedSessionCreateRequest (Text : Type) where
  userId : String
  sessionId : String
  sessionJson : Text
  createdAt : Decimal
  maxSessions : Nat
  ttlSeconds : Nat

structure IndexedSessionCreateResult where
  sequence : Nat
  liveIndexedSessions : Nat
  evictedSessions : Nat
deriving DecidableEq, Repr

structure IndexedSessionDeleteResult where
  actorIdentity : Option String
  userId : Option String
  sessionDeleted : Bool
  indexEmpty : Bool
deriving DecidableEq, Repr

/-- `time` is the field `now`. -/
structure IndexedSessionRefreshRequest (Text : Type) where
  sessionId : String
  time : Decimal
  ttlSeconds : Nat
  expectedSessionJson : Option Text
  replacementSessionJson : Option Text

structure IndexedSessionReadResult (Text : Type) where
  sessionJson : Option Text
  indexedUserId : Option String

structure IndexedSessionRefreshResult (Text : Type) where
  sessionJson : Option Text
  concurrentReplacement : Bool

/-- `_SESSION_SCORE_SCALE`. -/
def sessionScoreScale : Nat := 1000000

variable {Text : Type}

namespace SessionStore

/-! ## Commands -/

/-- No keys. -/
def empty : SessionStore Text :=
  ⟨fun _ => none, fun _ => none, fun _ => none, fun _ => none⟩

variable (s : SessionStore Text) (now : Nat) (user id : String)

/-- `GET session:<id>`. -/
def session? : Option Text := (s.sessions.lookup now id).map (·.value)

/-- `GET session_owner:<id>`. -/
def owner? : Option String := (s.owners.lookup now id).map (·.value)

/-- The index of a user; none if the type of its key is `none`. -/
def index? : Option (SortedSet String) := (s.indexes.lookup now user).map (·.value)

/-- `GET user_sessions_seq:<user>`. -/
def sequence? : Option Nat := (s.sequences.lookup now user).map (·.value)

/-- `ZRANGE 0 -1`. -/
def indexMembers : List String := (s.index? now user).elim [] (·.members)

/-- `ZCARD`. -/
def indexCard : Nat := (s.index? now user).elim 0 (·.card)

/-- `ZREM`; an index without members is deleted. -/
def removeFromIndex : SessionStore Text :=
  { s with indexes := s.indexes.alter now user fun z => (z.map (·.erase id)).filter (·.card ≠ 0) }

/-- `DEL` of both keys of a session. -/
def delSession : SessionStore Text :=
  { s with sessions := s.sessions.del id, owners := s.owners.del id }

/-- `DEL` of the index and its counter. -/
def delIndex : SessionStore Text :=
  { s with indexes := s.indexes.del user, sequences := s.sequences.del user }

/-- `EXPIRE` of the index and its counter. -/
def expireIndex (expireAt : Nat) : SessionStore Text :=
  { s with
    indexes := s.indexes.expire now user expireAt
    sequences := s.sequences.expire now user expireAt }

/-- `SET … EX` of both keys of a session. -/
def setSession (text : Text) (expireAt : Nat) : SessionStore Text :=
  { s with
    sessions := s.sessions.put id text (some expireAt)
    owners := s.owners.put id user (some expireAt) }

/-! ## Parts that the scripts share -/

/-- A member of the index whose session is gone is taken out of it, apart from one that the
script handles itself. -/
def sweepMember (apart : Option String) (s : SessionStore Text) (member : String) :
    SessionStore Text :=
  if apart ≠ some member ∧ s.sessions.lookup now member = none then
    let t := s.removeFromIndex now user member
    { t with owners := t.owners.del member }
  else s

/-- The loop over the members of the index. -/
def sweep (apart : Option String) : SessionStore Text :=
  (s.indexMembers now user).foldl (sweepMember now user apart) s

/-- `sequence_from_score`. -/
def sequenceFromScore : Option Int → Nat
  | none => 0
  | some scaled => if scaled < sessionScoreScale then 0 else (scaled % sessionScoreScale).toNat

/-- The counter is set up again if it is missing although there is an index. -/
def recoverSequence : SessionStore Text :=
  match s.sequence? now user, s.index? now user with
  | none, some z =>
    { s with sequences := s.sequences.put user (max (sequenceFromScore z.highest?) z.card) none }
  | _, _ => s

/-- `INCR`, and `ZADD` with a score above all others. -/
def addToIndex (lua : Lua Text) (time : Decimal) : SessionStore Text :=
  let sequence := (s.sequence? now user).getD 0 + 1
  { s with
    sequences := s.sequences.alter now user fun _ => some sequence
    indexes := s.indexes.alter now user fun z =>
      some ((z.getD .empty).add id ((z.getD .empty).scoreAbove (lua.scaled time + sequence))) }

/-- The loop that evicts sessions, as long as there are too many; each round evicts one, so
that as many rounds as there are members are enough. -/
def evict (maxSessions : Nat) : Nat → SessionStore Text → SessionStore Text × Nat
  | 0, s => (s, 0)
  | rounds + 1, s =>
    if maxSessions < s.indexCard now user then
      match (s.indexMembers now user).head? with
      | none => (s, 0)
      | some victim =>
        let t := evict maxSessions rounds ((s.delSession victim).removeFromIndex now user victim)
        (t.1, t.2 + 1)
    else (s, 0)

/-- Deletes a session, and the members of the index whose sessions are gone; with the last
member the index goes as well.  This is how two of the scripts end. -/
def removeSession : Option String → SessionStore Text
  | none => s.delSession id
  | some user =>
    match s.index? now user with
    | none =>
      let t := s.delSession id
      { t with sequences := t.sequences.del user }
    | some _ =>
      let t := ((s.delSession id).sweep now user (some id)).removeFromIndex now user id
      if t.indexCard now user = 0 then t.delIndex user else t

end SessionStore

namespace LuaValue

/-- `value[key]`; only tables and strings can be indexed. -/
def index (key : String) : LuaValue → Except ScriptError (Option LuaValue)
  | .table fields => .ok (fields.lookup key)
  | .list _ | .str _ => .ok none
  | _ => .error .raised

/-- `type(value) == 'string' and value ~= ''`, with the string. -/
def nonEmpty? (v : Option LuaValue) : Option String := (v.bind (·.string?)).filter (· ≠ "")

end LuaValue

namespace Lua
variable (lua : Lua Text)

/-- `cjson.decode`. -/
def decode! (text : Text) : Except ScriptError LuaValue :=
  (lua.decode text).elim (.error .raised) .ok

/-- `tonumber(value or '0')`. -/
def numberOrZero : Option LuaValue → Option Decimal
  | none | some (.bool false) => some ⟨0, 0⟩
  | some v => lua.toNumber v

end Lua

namespace SessionStore
variable (lua : Lua Text) (now : Nat)

/-! ## `_CREATE_INDEXED_SESSION_LUA` -/

/-- The checks of the arguments. -/
def requestChecks (r : IndexedSessionCreateRequest Text) : Except ScriptError Unit := do
  if r.ttlSeconds = 0 then throw (.reply "invalid-session-ttl")
  let requested ← lua.decode! r.sessionJson
  if (← requested.index "user_id").bind (·.string?) ≠ some r.userId then
    throw (.reply "invalid-session-user")

/-- The checks of what is stored under the id, which come before the first write as well. -/
def existingChecks (s : SessionStore Text) (r : IndexedSessionCreateRequest Text) :
    Except ScriptError Unit := do
  if (s.owner? now r.sessionId).any (· ≠ r.userId) then throw (.reply "session-user-mismatch")
  match s.session? now r.sessionId with
  | none => return
  | some raw =>
    let existing ← lua.decode! raw
    if ((← existing.index "user_id").bind (·.string?)).any (· ≠ r.userId) then
      throw (.reply "session-user-mismatch")

/-- What follows the checks. -/
def createWrites (s : SessionStore Text) (r : IndexedSessionCreateRequest Text) :
    IndexedSessionCreateResult × SessionStore Text :=
  let recovered := s.recoverSequence now r.userId
  let swept := recovered.sweep now r.userId none
  let isMember := r.sessionId ∈ swept.indexMembers now r.userId
  let indexed :=
    if isMember then swept else swept.addToIndex now r.userId r.sessionId lua r.createdAt
  let sequence :=
    if isMember then (recovered.sequence? now r.userId).getD 0
    else (indexed.sequence? now r.userId).getD 0
  let expireAt := now + r.ttlSeconds * 1000
  let stored := (indexed.setSession r.userId r.sessionId r.sessionJson expireAt).expireIndex now
    r.userId expireAt
  let (trimmed, evicted) :=
    if r.maxSessions = 0 then (stored, 0)
    else evict now r.userId r.maxSessions (stored.indexCard now r.userId) stored
  let liveCount := trimmed.indexCard now r.userId
  (⟨sequence, liveCount, evicted⟩, if liveCount = 0 then trimmed.delIndex r.userId else trimmed)

/-- `create_indexed_session`. -/
def createIndexedSession (s : SessionStore Text) (r : IndexedSessionCreateRequest Text) :
    Except ScriptError IndexedSessionCreateResult × SessionStore Text :=
  match (do requestChecks lua r; s.existingChecks lua now r) with
  | .error e => (.error e, s)
  | .ok () => (.ok (s.createWrites lua now r).1, (s.createWrites lua now r).2)

/-! ## `_DELETE_INDEXED_SESSION_LUA` -/

/-- The table that the text of a session decodes to; errors are caught. -/
def payload (raw : Option Text) : LuaValue := (raw.bind lua.decode).getD .null

/-- `delete_indexed_session`. -/
def deleteIndexedSession (s : SessionStore Text) (id : String) :
    IndexedSessionDeleteResult × SessionStore Text :=
  let raw := s.session? now id
  let payload := payload lua raw
  let actorIdentity := LuaValue.nonEmpty? (payload.get? "username")
  if raw = none ∧ s.owner? now id = none then (⟨none, none, false, false⟩, s)
  else
    match (s.owner? now id).or (LuaValue.nonEmpty? (payload.get? "user_id")) with
    | none => (⟨actorIdentity, none, raw.isSome, false⟩, s.delSession id)
    | some user =>
      let result := fun indexEmpty =>
        ⟨actorIdentity, if user = "" then none else some user, raw.isSome, indexEmpty⟩
      match s.index? now user with
      | none =>
        let t := s.delSession id
        (result true, { t with sequences := t.sequences.del user })
      | some _ =>
        let t := ((s.sweep now user (some id)).delSession id).removeFromIndex now user id
        if t.indexCard now user = 0 then (result true, t.delIndex user) else (result false, t)

/-! ## `_DELETE_CORRUPT_INDEXED_SESSION_LUA` -/

/-- `delete_corrupt_indexed_session`. -/
def deleteCorruptIndexedSession [DecidableEq Text] (s : SessionStore Text) (id : String)
    (expected : Text) : Bool × SessionStore Text :=
  if s.session? now id ≠ some expected then (false, s)
  else
    let payload := payload lua (some expected)
    let user := (s.owner? now id).or ((payload.get? "user_id").bind (·.string?))
    (true, s.removeSession now id (user.filter (· ≠ "")))

/-! ## `_REFRESH_INDEXED_SESSION_LUA` -/

/-- The record after a replacement, before the refresh itself; a text that is no object stops
the script, and none is ever stored. -/
def replacedFields (raw : Text) (r : IndexedSessionRefreshRequest Text) :
    Except ScriptError (List (String × LuaValue)) := do
  let .table decoded ← lua.decode! raw | throw .raised
  match r.replacementSessionJson with
  | none => return decoded
  | some json =>
    let replacement ← lua.decode! json
    let user := (decoded.lookup "user_id").bind (·.string?)
    if user.isSome ∧ (← replacement.index "user_id").bind (·.string?) ≠ user then
      throw (.reply "session-user-mismatch")
    let .table fields := replacement | throw .raised
    -- an expected record, where one is given, has been found
    if r.expectedSessionJson.isSome then return fields
    return assignKey (assignKey (assignKey decoded "role_id" (fields.lookup "role_id"))
      "role_name" (fields.lookup "role_name")) "permissions" (fields.lookup "permissions")

/-- What becomes of a session that is refreshed; the user is the one whose index is looked
after. -/
inductive RefreshDecision (Text : Type) where
  | error (e : ScriptError)
  | expired (user : Option String)
  /-- The index is looked after before the new record turns out to be an error. -/
  | refreshed (user : Option String) (record : Except ScriptError Text)

/-- What the script finds out from the record and its owner. -/
def refreshDecision (raw : Text) (owner : Option String) (r : IndexedSessionRefreshRequest Text) :
    RefreshDecision Text :=
  match replacedFields lua raw r with
  | .error e => .error e
  | .ok fields =>
    if owner.isSome ∧ (fields.lookup "user_id").bind (·.string?) ≠ owner then
      .error (.reply "session-user-mismatch")
    else
      let user := LuaValue.nonEmpty? (fields.lookup "user_id")
      match lua.numberOrZero (fields.lookup "last_activity") with
      | none => .error .raised
      | some lastActivity =>
        if r.time.olderThan lastActivity r.ttlSeconds then .expired user
        else .refreshed user <|
          match lua.numberOrZero (fields.lookup "generation") with
          | none => .error .raised
          | some generation => .ok <| lua.encode <| .table <|
            assignKey (assignKey fields "last_activity" (some (.number r.time)))
              "generation" (some (.number generation.succ))

/-- The member is put into the index if it is missing. -/
def ensureIndexed (s : SessionStore Text) (user id : String) (time : Decimal) :
    SessionStore Text :=
  let s := s.recoverSequence now user
  match s.index? now user with
  | none =>
    { s with
      sequences := s.sequences.put user 1 none
      indexes := s.indexes.put user (SortedSet.empty.add id (lua.scaled time + 1)) none }
  | some z => if id ∈ z.members then s else s.addToIndex now user id lua time

/-- The last writes of the script. -/
def storeRefreshed (s : SessionStore Text) (user : Option String) (id : String) (text : Text)
    (expireAt : Nat) : SessionStore Text :=
  match user with
  | none => { s with sessions := s.sessions.put id text (some expireAt) }
  | some user => (s.setSession user id text expireAt).expireIndex now user expireAt

/-- `refresh_indexed_session_state`. -/
def refreshIndexedSessionState [DecidableEq Text] (s : SessionStore Text)
    (r : IndexedSessionRefreshRequest Text) :
    Except ScriptError (IndexedSessionRefreshResult Text) × SessionStore Text :=
  if r.ttlSeconds = 0 then (.error (.reply "invalid-session-ttl"), s)
  else
    match s.session? now r.sessionId with
    | none => (.ok ⟨none, false⟩, s)
    | some raw =>
      if r.expectedSessionJson.any (· ≠ raw) then (.ok ⟨some raw, true⟩, s)
      else
        match refreshDecision lua raw (s.owner? now r.sessionId) r with
        | .error e => (.error e, s)
        | .expired user => (.ok ⟨none, false⟩, s.removeSession now r.sessionId user)
        | .refreshed user record =>
          let indexed := user.elim s fun user => s.ensureIndexed lua now user r.sessionId r.time
          match record with
          | .error e => (.error e, indexed)
          | .ok text =>
            (.ok ⟨some text, false⟩,
              indexed.storeRefreshed now user r.sessionId text (now + r.ttlSeconds * 1000))

/-- `read_indexed_session`. -/
def readIndexedSession (s : SessionStore Text) (id : String) : IndexedSessionReadResult Text :=
  ⟨s.session? now id, s.owner? now id⟩

end SessionStore
end QueryCraft
