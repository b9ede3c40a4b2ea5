import QueryCraft.Raising
import QueryCraft.SessionIndex

/-! # The scripts work on the queue

Each of the four scripts replies what the corresponding call on the queue of the session's
user replies, leaves keys that hold the resulting queue, and changes nothing that belongs to
other users.
-/
namespace QueryCraft

/-- In a list without duplicates a sublist is what is left of the list. -/
theorem filter_mem_of_sublist {α : Type*} [DecidableEq α] {a b : List α} (h : a.Sublist b)
    (hb : b.Nodup) : b.filter (· ∈ a) = a := by
  induction h with
  | slnil => rfl
  | cons x hsub ih =>
    obtain ⟨hx, hb⟩ := List.nodup_cons.mp hb
    rw [List.filter_cons_of_neg (by simpa using fun hmem => hx (hsub.subset hmem)), ih hb]
  | cons_cons x hsub ih =>
    obtain ⟨hx, hb⟩ := List.nodup_cons.mp hb
    rw [List.filter_cons_of_pos (by simp)]
    refine congrArg (x :: ·) ((List.filter_congr fun y hy => ?_).trans (ih hb))
    have hne : y ≠ x := fun heq => hx (heq ▸ hy)
    simp [hne]

namespace SessionStore
open SessionQueue

variable {Text : Type} {lua : Lua Text} {userOf : String → String} {ttlSeconds : Nat}
  {s : SessionStore Text} {now : Nat} {user id : String} {q : List (QueuedSession Text)}

/-- The index lists the sessions of the queue and no others. -/
def Tidy (s : SessionStore Text) (now : Nat) (user : String) (q : List (QueuedSession Text)) :
    Prop :=
  ∃ t, IndexIs s now user (ids q) t

theorem Tidy.indexCard (h : s.Tidy now user q) : s.indexCard now user = q.length := by
  obtain ⟨t, h⟩ := h
  rw [h.indexCard, ids, List.length_map]

theorem Represents.tidy_sweep (h : Represents lua userOf ttlSeconds s now user q) :
    (s.sweep now user none).Tidy now user q := by
  obtain ⟨l, t, hindex, hl, hids, -⟩ := h.index
  refine ⟨t, ?_⟩
  convert indexIs_sweep hindex none using 1
  rw [← filter_mem_of_sublist hids hindex.nodup]
  refine List.filter_congr fun x hx => decide_eq_decide.mpr ?_
  simp [Kept, h.session_isSome (hl x hx)]

/-- Without the session that a script handles, the index is tidy after the sweep. -/
theorem Represents.tidy_sweep_apart (h : Represents lua userOf ttlSeconds s now user q)
    (id : String) : ((s.sweep now user (some id)).removeFromIndex now user id).Tidy now
      user (remove q id) := by
  obtain ⟨l, t, hindex, hl, hids, -⟩ := h.index
  refine ⟨t, ?_⟩
  convert (indexIs_sweep hindex (some id)).removeFromIndex id using 1
  rw [ids_remove, ← filter_mem_of_sublist hids hindex.nodup, List.filter_filter,
    List.filter_filter]
  refine List.filter_congr fun x hx => ?_
  by_cases hx' : x = id
  · simp [hx']
  · simp [hx', Kept, h.session_isSome (hl x hx), Ne.symm hx']

/-! ## Eviction -/

/-- The oldest sessions leave until there are few enough. -/
theorem evict_spec (maxSessions : Nat) : ∀ (rounds : Nat) {s : SessionStore Text}
    {q : List (QueuedSession Text)}, Represents lua userOf ttlSeconds s now user q →
    s.Tidy now user q → q.length ≤ rounds →
    let r := evict now user maxSessions rounds s
    let left := q.drop (q.length - maxSessions)
    Represents lua userOf ttlSeconds r.1 now user left ∧ r.1.Tidy now user left ∧
      r.2 = q.length - maxSessions ∧ Elsewhere userOf now user s r.1
  | 0, s, q, h, htidy, hrounds => by
    obtain rfl := List.eq_nil_of_length_eq_zero (Nat.le_zero.mp hrounds)
    simp only [evict, List.drop_nil]
    exact ⟨h, htidy, by simp, .refl⟩
  | rounds + 1, s, q, h, htidy, hrounds => by
    simp only [evict]
    by_cases hmax : maxSessions < q.length
    · rcases q with _ | ⟨e, q⟩
      · exact absurd hmax (Nat.not_lt_zero _)
      · obtain ⟨t, hindex⟩ := htidy
        have hhead : (s.indexMembers now user).head? = some e.id := by
          rw [hindex.indexMembers]
          rfl
        obtain ⟨he, hq⟩ := List.nodup_cons.mp h.nodup
        have hid : userOf e.id = user := (h.entry e List.mem_cons_self).1
        have hleft : remove (e :: q) e.id = q := remove_head h.nodup
        have hstep : Represents lua userOf ttlSeconds
            ((s.delSession e.id).removeFromIndex now user e.id) now user q :=
          (hleft ▸ h.delSession e.id).removeFromIndex he
        have htidy' : ((s.delSession e.id).removeFromIndex now user e.id).Tidy now user q := by
          have hdel : IndexIs (s.delSession e.id) now user (ids (e :: q)) t := hindex.congr rfl
          refine ⟨t, ?_⟩
          convert hdel.removeFromIndex e.id using 1
          rw [← ids_remove, hleft]
        have hcount : (e :: q).length - maxSessions = (q.length - maxSessions) + 1 := by
          rw [List.length_cons] at hmax ⊢
          omega
        have hrest := evict_spec maxSessions rounds hstep htidy' (Nat.le_of_succ_le_succ hrounds)
        rw [if_pos (by rw [Tidy.indexCard ⟨t, hindex⟩]; exact hmax), hhead, hcount,
          List.drop_succ_cons]
        refine ⟨hrest.1, hrest.2.1, congrArg (· + 1) hrest.2.2.1, ?_⟩
        exact ((Elsewhere.delSession hid).trans (.removeFromIndex e.id)).trans hrest.2.2.2
    · have hzero : q.length - maxSessions = 0 := by omega
      rw [if_neg (by rwa [htidy.indexCard]), hzero, List.drop_zero]
      exact ⟨h, htidy, rfl, .refl⟩

/-! ## Deletion -/

/-- The index is deleted with its last member. -/
theorem Represents.delIndex_ite (h : Represents lua userOf ttlSeconds s now user q) :
    Represents lua userOf ttlSeconds
      (if s.indexCard now user = 0 then s.delIndex user else s) now user q := by
  split
  · rename_i hcard
    exact h.delIndex hcard
  · exact h

theorem elsewhere_delIndex_ite (p : Prop) [Decidable p] :
    Elsewhere userOf now user s (if p then s.delIndex user else s) := by
  split
  · exact .delIndex
  · exact .refl

theorem removeSession_spec (h : Represents lua userOf ttlSeconds s now user q)
    (hid : userOf id = user) :
    Represents lua userOf ttlSeconds (s.removeSession now id (some user)) now user (remove q id) ∧
      Elsewhere userOf now user s (s.removeSession now id (some user)) := by
  have hdel := h.delSession id
  have hframe : Elsewhere userOf now user s (s.delSession id) := .delSession hid
  rw [removeSession]
  split
  · exact ⟨hdel.sequences _, hframe.trans (.sequences _)⟩
  · have hsweep := hdel.sweep (some id)
    have hremoved := hsweep.removeFromIndex (notMem_remove q id)
    exact ⟨hremoved.delIndex_ite, ((hframe.trans (hdel.elsewhere_sweep _)).trans
      (.removeFromIndex id)).trans (elsewhere_delIndex_ite _)⟩

theorem deleteCorruptIndexedSession_spec [DecidableEq Text]
    (h : Represents lua userOf ttlSeconds s now user q) (hid : userOf id = user)
    (expected : Text) :
    (s.deleteCorruptIndexedSession lua now id expected).1 = (deleteCorrupt q id expected).1 ∧
      Represents lua userOf ttlSeconds (s.deleteCorruptIndexedSession lua now id expected).2 now
        user (deleteCorrupt q id expected).2 ∧
      Elsewhere userOf now user s (s.deleteCorruptIndexedSession lua now id expected).2 := by
  rw [deleteCorruptIndexedSession, deleteCorrupt, h.session? hid]
  by_cases hfound : (find? q id).map (·.text) = some expected
  · rw [if_neg (not_not.mpr hfound), if_pos hfound]
    obtain ⟨e, he, -⟩ := Option.map_eq_some_iff.mp hfound
    obtain ⟨hmem, heid⟩ := mem_of_find? he
    have huser : user ≠ "" := (h.entry e hmem).2.1
    have howner : s.owner? now id = some user := by
      rw [h.owner? hid, he]
      rfl
    have hsome : (some user).filter (fun u => decide (u ≠ "")) = some user := by
      simp [Option.filter, huser]
    simp only [howner, Option.some_or, hsome]
    exact ⟨trivial, removeSession_spec h hid⟩
  · rw [if_pos hfound, if_neg hfound]
    exact ⟨rfl, h, .refl⟩

theorem deleteIndexedSession_spec (h : Represents lua userOf ttlSeconds s now user q)
    (hid : userOf id = user) :
    (s.deleteIndexedSession lua now id).1 = (delete lua user q id).1 ∧
      Represents lua userOf ttlSeconds (s.deleteIndexedSession lua now id).2 now user
        (delete lua user q id).2 ∧
      Elsewhere userOf now user s (s.deleteIndexedSession lua now id).2 := by
  rw [deleteIndexedSession, delete, h.session? hid, h.owner? hid]
  rcases he : find? q id with _ | e
  · simp only [Option.map_none, and_self, if_true]
    exact ⟨trivial, h, .refl⟩
  · obtain ⟨hmem, heid⟩ := mem_of_find? he
    obtain ⟨-, huser, -, -, -⟩ := h.entry e hmem
    obtain ⟨l, t, hindex, hl, hids, -⟩ := h.index
    have hne : l ≠ [] := List.ne_nil_of_mem (hids.subset (List.mem_map_of_mem hmem))
    have hsome : s.index? now user ≠ none := fun hnone => hne (hindex.index?_eq_none.mp hnone)
    obtain ⟨z, hz⟩ := Option.ne_none_iff_exists'.mp hsome
    have hsweep := h.sweep (some id)
    have hremoved := (hsweep.delSession id).removeFromIndex (notMem_remove q id)
    have htidy : (((s.sweep now user (some id)).delSession id).removeFromIndex now user id).Tidy
        now user (remove q id) := by
      obtain ⟨t', ht'⟩ := h.tidy_sweep_apart id
      exact ⟨t', ht'.congr rfl⟩
    have hframe : Elsewhere userOf now user s
        (((s.sweep now user (some id)).delSession id).removeFromIndex now user id) :=
      ((h.elsewhere_sweep _).trans (.delSession hid)).trans (.removeFromIndex id)
    simp only [Option.map_some, reduceCtorEq, false_and, if_false, Option.some_or, hz, huser]
    rw [htidy.indexCard]
    by_cases hempty : (remove q id).length = 0
    · rw [if_pos hempty]
      have hnil := List.eq_nil_of_length_eq_zero hempty
      refine ⟨by simp [hnil], hremoved.delIndex (htidy.indexCard.trans hempty),
        hframe.trans .delIndex⟩
    · rw [if_neg hempty]
      refine ⟨?_, hremoved, hframe⟩
      have hne' : (remove q id).isEmpty = false := by
        rw [List.isEmpty_eq_false_iff]
        exact fun hnil => hempty (by rw [hnil]; rfl)
      simp [hne']

/-! ## Creation -/

theorem existingChecks_ok (h : Represents lua userOf ttlSeconds s now user q)
    {r : IndexedSessionCreateRequest Text} (hid : userOf r.sessionId = r.userId)
    (huser : r.userId = user) : s.existingChecks lua now r = .ok () := by
  rw [existingChecks, h.owner? (hid.trans huser), h.session? (hid.trans huser)]
  rcases he : find? q r.sessionId with _ | e
  · rfl
  · obtain ⟨hmem, -⟩ := mem_of_find? he
    obtain ⟨-, -, ⟨fields, hdecode, hfields⟩, -, -⟩ := h.entry e hmem
    simp [Lua.decode!, hdecode, LuaValue.index, hfields, LuaValue.string?, huser, bind,
      Except.bind, pure, Except.pure]

/-- The place of a new session in the index. -/
theorem indexIs_push (h : Represents lua userOf ttlSeconds s now user q)
    (htidy : s.Tidy now user q) (hid : userOf id = user) (text : Text) (deadline : Nat)
    (time : Decimal) :
    let indexed := if id ∈ s.indexMembers now user then s else s.addToIndex now user id lua time
    Represents lua userOf ttlSeconds indexed now user q ∧
      Elsewhere userOf now user s indexed ∧
      ∃ t, IndexIs indexed now user (ids (push q ⟨id, text, deadline⟩)) t := by
  obtain ⟨t, hindex⟩ := htidy
  by_cases hmem : id ∈ s.indexMembers now user
  · simp only [hmem, if_true]
    rw [hindex.indexMembers] at hmem
    refine ⟨h, .refl, t, ?_⟩
    rw [ids_push, if_pos hmem]
    exact hindex
  · simp only [hmem, if_false]
    have hnot := hindex.indexMembers ▸ hmem
    obtain ⟨t', hindex', -⟩ := hindex.addToIndex hnot lua time
    refine ⟨h.addToIndex hid hmem time, .addToIndex id lua time, t', ?_⟩
    rw [ids_push, if_neg hnot]
    exact hindex'

theorem belongs_push (h : Represents lua userOf ttlSeconds s now user q) (hid : userOf id = user)
    (text : Text) (deadline : Nat) : ∀ x ∈ ids (push q ⟨id, text, deadline⟩), userOf x = user := by
  intro x hx
  obtain ⟨e, he, rfl⟩ := List.mem_map.mp hx
  rcases mem_push he with rfl | he
  · exact hid
  · exact (h.entry e he).1

/-- What the script writes once its checks have passed. -/
theorem createWrites_spec (h : Represents lua userOf ttlSeconds s now user q)
    {r : IndexedSessionCreateRequest Text} (hid : userOf r.sessionId = user)
    (huserId : r.userId = user) (huser : user ≠ "") (hnames : lua.Names r.sessionJson user)
    (httl : r.ttlSeconds = ttlSeconds) :
    let pushed := push q ⟨r.sessionId, r.sessionJson, now + ttlSeconds * 1000⟩
    let left := trim pushed r.maxSessions
    (s.createWrites lua now r).1.liveIndexedSessions = left.length ∧
      (s.createWrites lua now r).1.evictedSessions = pushed.length - left.length ∧
      Represents lua userOf ttlSeconds (s.createWrites lua now r).2 now user left ∧
      Elsewhere userOf now user s (s.createWrites lua now r).2 := by
  subst huserId httl
  have hrecovered := h.recoverSequence
  have hswept := hrecovered.sweep none
  have hframe : Elsewhere userOf now r.userId s
      ((s.recoverSequence now r.userId).sweep now r.userId none) :=
    Elsewhere.recoverSequence.trans (hrecovered.elsewhere_sweep none)
  obtain ⟨hindexed, hframe', t, hindex⟩ := indexIs_push hswept hrecovered.tidy_sweep hid
    r.sessionJson (now + r.ttlSeconds * 1000) r.createdAt
  have hstored := hindexed.store hid huser hnames hindex
    (belongs_push hindexed hid _ _) (.refl _)
  have hstoredFrame := (hframe.trans hframe').trans ((Elsewhere.setSession hid r.sessionJson
    (now + r.ttlSeconds * 1000)).trans (.expireIndex (now + r.ttlSeconds * 1000)))
  have hset : IndexIs (SessionStore.setSession _ r.userId r.sessionId r.sessionJson
      (now + r.ttlSeconds * 1000)) now r.userId _ t := hindex.congr rfl
  replace hset := hset.expireIndex (Nat.le_add_right now (r.ttlSeconds * 1000))
  simp only [createWrites]
  generalize (SessionStore.setSession _ r.userId r.sessionId r.sessionJson _).expireIndex now
    r.userId (now + r.ttlSeconds * 1000) = stored at hstored hstoredFrame hset ⊢
  generalize push q ⟨r.sessionId, r.sessionJson, now + r.ttlSeconds * 1000⟩ = pushed
    at hstored hset ⊢
  have htidy : stored.Tidy now r.userId pushed := ⟨_, hset⟩
  by_cases hmax : r.maxSessions = 0
  · simp only [hmax, if_true, trim, Nat.sub_self]
    rw [htidy.indexCard]
    exact ⟨rfl, trivial, htidy.indexCard ▸ hstored.delIndex_ite,
      hstoredFrame.trans (elsewhere_delIndex_ite _)⟩
  · simp only [hmax, if_false, trim]
    rw [htidy.indexCard]
    obtain ⟨hleft, hleftTidy, hevicted, hevictedFrame⟩ :=
      evict_spec r.maxSessions pushed.length hstored htidy le_rfl
    rw [hleftTidy.indexCard, hevicted]
    refine ⟨rfl, ?_, hleftTidy.indexCard ▸ hleft.delIndex_ite,
      (hstoredFrame.trans hevictedFrame).trans (elsewhere_delIndex_ite _)⟩
    rw [List.length_drop]
    omega

theorem decode!_eq_ok {text : Text} {v : LuaValue} :
    lua.decode! text = .ok v ↔ lua.decode text = some v := by
  rw [Lua.decode!]
  rcases lua.decode text with _ | w
  · simp
  · simp

/-- A value with a string under some key is a table. -/
theorem eq_table_of_index {v : LuaValue} {w : Option LuaValue} {key text : String}
    (h : v.index key = .ok w) (hw : w.bind (·.string?) = some text) :
    ∃ fields, v = .table fields ∧ fields.lookup key = some (.str text) := by
  obtain ⟨x, rfl, hx⟩ := Option.bind_eq_some_iff.mp hw
  cases x with
  | str s =>
    obtain rfl := Option.some.inj hx
    cases v with
    | table fields => exact ⟨fields, rfl, Except.ok.inj h⟩
    | _ => cases h
  | _ => cases hx

/-- A request that passes the checks names its user. -/
theorem names_of_requestChecks {r : IndexedSessionCreateRequest Text}
    (h : requestChecks lua r = .ok ()) : lua.Names r.sessionJson r.userId := by
  by_cases httl : r.ttlSeconds = 0
  · rw [requestChecks, if_pos httl] at h
    cases h
  rw [requestChecks, if_neg httl] at h
  obtain ⟨v, hv, h⟩ := bind_eq_ok.mp h
  obtain ⟨w, hw, h⟩ := bind_eq_ok.mp h
  obtain ⟨fields, rfl, hfields⟩ := eq_table_of_index hw (not_not.mp (throw_if_eq_ok.mp h))
  exact ⟨fields, decode!_eq_ok.mp hv, hfields⟩

theorem createIndexedSession_spec (h : Represents lua userOf ttlSeconds s now user q)
    {r : IndexedSessionCreateRequest Text}
    (hid : userOf r.sessionId = user) (huserId : r.userId = user) (huser : user ≠ "")
    (httl : r.ttlSeconds = ttlSeconds) :
    (s.createIndexedSession lua now r).1.map (fun x => (x.liveIndexedSessions, x.evictedSessions)) =
        (create lua now q r).1 ∧
      Represents lua userOf ttlSeconds (s.createIndexedSession lua now r).2 now user
        (create lua now q r).2 ∧
      Elsewhere userOf now user s (s.createIndexedSession lua now r).2 := by
  rw [createIndexedSession, create]
  rcases hchecks : requestChecks lua r with e | u
  · exact ⟨rfl, h, .refl⟩
  · have hnames := names_of_requestChecks hchecks
    obtain ⟨hlive, hevicted, hrest⟩ :=
      createWrites_spec h hid huserId huser (huserId ▸ hnames) httl
    simp only [bind, Except.bind, existingChecks_ok h (hid.trans huserId.symm) huserId]
    rw [httl]
    exact ⟨by simp [Except.map, hlive, hevicted], hrest⟩

/-! ## Refreshing -/

/-- A replacement does not change the user. -/
theorem user_of_replacedFields {raw : Text} {r : IndexedSessionRefreshRequest Text}
    {fields : List (String × LuaValue)} (hnames : lua.Names raw user)
    (h : replacedFields lua raw r = .ok fields) :
    fields.lookup "user_id" = some (.str user) := by
  obtain ⟨decoded, hdecode, hdecoded⟩ := hnames
  rw [replacedFields] at h
  obtain ⟨v, hv, h⟩ := bind_eq_ok.mp h
  rw [decode!_eq_ok, hdecode] at hv
  obtain rfl := Option.some.inj hv
  rcases hreplacement : r.replacementSessionJson with _ | json
  · rw [hreplacement] at h
    obtain rfl := Except.ok.inj h
    exact hdecoded
  · rw [hreplacement] at h
    obtain ⟨replacement, -, h⟩ := bind_eq_ok.mp h
    obtain ⟨w, hw, h⟩ := bind_eq_ok.mp h
    have huser : (decoded.lookup "user_id").bind (·.string?) = some user := by
      rw [hdecoded]
      rfl
    simp only [huser, Option.isSome_some, true_and] at h
    by_cases hsame : w.bind (·.string?) = some user
    · rw [if_neg (not_not.mpr hsame)] at h
      obtain ⟨replaced, rfl, hreplaced⟩ := eq_table_of_index hw hsame
      by_cases hexpected : r.expectedSessionJson.isSome = true
      · simp only [hexpected, if_true] at h
        obtain rfl := Except.ok.inj h
        exact hreplaced
      · simp only [hexpected] at h
        obtain rfl := Except.ok.inj h
        simp [lookup_assignKey, hdecoded]
    · rw [if_pos hsame] at h
      cases h

/-- A record that a refresh stores names the user of the old one. -/
theorem names_of_refreshDecision {raw text : Text} {r : IndexedSessionRefreshRequest Text}
    {u : Option String} (hnames : lua.Names raw user)
    (h : refreshDecision lua raw (some user) r = .refreshed u (.ok text)) :
    lua.Names text user := by
  rw [refreshDecision] at h
  split at h
  · cases h
  · rename_i fields hfields
    have hlookup := user_of_replacedFields hnames hfields
    split at h
    · cases h
    · dsimp only at h
      split at h
      · cases h
      · split at h
        · cases h
        · obtain ⟨-, h⟩ := RefreshDecision.refreshed.inj h
          split at h
          · cases h
          · rename_i generation hgeneration
            obtain rfl := Except.ok.inj h
            obtain ⟨fields', hdecode, hkept⟩ := lua.decode_encode (assignKey
              (assignKey fields "last_activity" (some (.number r.time))) "generation"
              (some (.number generation.succ)))
            exact ⟨fields', hdecode, hkept _ _ (by simp [lookup_assignKey, hlookup])⟩

/-- The user whose index a refresh looks after. -/
theorem user_of_refreshDecision {raw : Text} {r : IndexedSessionRefreshRequest Text}
    (hnames : lua.Names raw user) (huser : user ≠ "") :
    (∀ u, refreshDecision lua raw (some user) r = .expired u → u = some user) ∧
      ∀ u record, refreshDecision lua raw (some user) r = .refreshed u record → u = some user := by
  have hone : ∀ fields, replacedFields lua raw r = .ok fields →
      LuaValue.nonEmpty? (fields.lookup "user_id") = some user := fun fields hfields => by
    rw [user_of_replacedFields hnames hfields]
    simp [LuaValue.nonEmpty?, LuaValue.string?, Option.filter, huser]
  rw [refreshDecision]
  split
  · exact ⟨fun u h => (nomatch h), fun u record h => (nomatch h)⟩
  · rename_i fields hfields
    split
    · exact ⟨fun u h => (nomatch h), fun u record h => (nomatch h)⟩
    · dsimp only
      rw [hone fields hfields]
      split
      · exact ⟨fun u h => (nomatch h), fun u record h => (nomatch h)⟩
      · split
        · exact ⟨fun u h => (RefreshDecision.expired.inj h).symm, fun u record h => (nomatch h)⟩
        · exact ⟨fun u h => (nomatch h), fun u record h => (RefreshDecision.refreshed.inj h).1.symm⟩

/-- A session of the queue is in the index, which is left alone. -/
theorem ensureIndexed_spec (h : Represents lua userOf ttlSeconds s now user q)
    (hid : id ∈ ids q) (time : Decimal) :
    s.ensureIndexed lua now user id time = s.recoverSequence now user := by
  obtain ⟨l, t, hindex, -, hids, -⟩ := h.recoverSequence.index
  have hmem : id ∈ l := hids.subset hid
  rw [ensureIndexed]
  rcases hindex with ⟨-, rfl⟩ | ⟨z, hz, rfl, -⟩
  · cases hmem
  · simp [index?, hz, hmem]

theorem refreshIndexedSessionState_spec [DecidableEq Text]
    (h : Represents lua userOf ttlSeconds s now user q) {r : IndexedSessionRefreshRequest Text}
    (hid : userOf r.sessionId = user) (httl : r.ttlSeconds = ttlSeconds) :
    (s.refreshIndexedSessionState lua now r).1 = (refresh lua now user q r).1 ∧
      Represents lua userOf ttlSeconds (s.refreshIndexedSessionState lua now r).2 now user
        (refresh lua now user q r).2 ∧
      Elsewhere userOf now user s (s.refreshIndexedSessionState lua now r).2 := by
  rw [refreshIndexedSessionState, refresh, h.session? hid, h.owner? hid]
  by_cases hzero : r.ttlSeconds = 0
  · rw [if_pos hzero, if_pos hzero]
    exact ⟨rfl, h, .refl⟩
  rw [if_neg hzero, if_neg hzero]
  rcases he : find? q r.sessionId with _ | e
  · exact ⟨rfl, h, .refl⟩
  obtain ⟨hmem, heid⟩ := mem_of_find? he
  obtain ⟨-, huser, hnames, -, -⟩ := h.entry e hmem
  have hin : r.sessionId ∈ ids q := heid ▸ List.mem_map_of_mem hmem
  simp only [Option.map_some]
  by_cases hexpected : r.expectedSessionJson.any (fun x => decide (x ≠ e.text)) = true
  · rw [if_pos hexpected, if_pos hexpected]
    exact ⟨rfl, h, .refl⟩
  rw [if_neg hexpected, if_neg hexpected]
  obtain ⟨hexpiredUser, hrefreshedUser⟩ := user_of_refreshDecision (r := r) hnames huser
  rcases hdecision : refreshDecision lua e.text (some user) r with error | u | ⟨u, error | text⟩
  · exact ⟨rfl, h, .refl⟩
  · obtain rfl := hexpiredUser u hdecision
    exact ⟨rfl, removeSession_spec h hid⟩
  · obtain rfl := hrefreshedUser u _ hdecision
    simp only [Option.elim_some, ensureIndexed_spec h hin]
    exact ⟨trivial, h.recoverSequence, .recoverSequence⟩
  · obtain rfl := hrefreshedUser u _ hdecision
    simp only [Option.elim_some, ensureIndexed_spec h hin, storeRefreshed]
    have hrecovered := h.recoverSequence
    obtain ⟨l, t, hindex, hl, hids, -⟩ := hrecovered.index
    have hpushed : ids (push q ⟨r.sessionId, text, now + ttlSeconds * 1000⟩) = ids q := by
      rw [ids_push, if_pos hin]
    rw [httl]
    exact ⟨trivial, hrecovered.store hid huser (names_of_refreshDecision hnames hdecision) hindex hl
      (hpushed ▸ hids), Elsewhere.recoverSequence.trans ((Elsewhere.setSession hid _ _).trans
        (.expireIndex _))⟩

/-- What a reader finds. -/
theorem readIndexedSession_spec (h : Represents lua userOf ttlSeconds s now user q)
    (hid : userOf id = user) : s.readIndexedSession now id = SessionQueue.read user q id := by
  rw [readIndexedSession, SessionQueue.read, h.session? hid, h.owner? hid]

theorem Elsewhere.read {s' : SessionStore Text} (h : Elsewhere userOf now user s s')
    (hid : userOf id ≠ user) : s'.readIndexedSession now id = s.readIndexedSession now id := by
  simp only [readIndexedSession, SessionStore.session?, SessionStore.owner?, h.session id hid,
    h.owner id hid]

/-! ## The record

With JSON values for texts, what a refresh makes of the record is what `refreshIndexedSession`
makes of it.
-/

/-- Lua with texts that are the JSON values they stand for. -/
def jsonLua (scaled : Decimal → Int) : Lua Json where
  decode json := some (cjsonDecode json)
  encode := cjsonEncode
  toNumber v := LuaValue.toNumber (some v)
  scaled := scaled
  decode_encode fields := by
    refine ⟨decodeFields (encodeFields fields), rfl, fun key text h => ?_⟩
    rw [decodeFields_eq_map, lookup_mapValues, encodeFields_eq_map, lookup_mapValues, h]
    rfl

/-- The reply of the script. -/
def RefreshDecision.reply : RefreshDecision Json → RefreshReply
  | .error (.reply message) => .error message
  | .error .raised => .error "attempt to perform arithmetic on a nil value"
  | .expired _ => .expired
  | .refreshed _ (.error _) => .error "attempt to perform arithmetic on a nil value"
  | .refreshed _ (.ok json) => .refreshed json

variable {scaled : Decimal → Int} {raw : Json} {r : IndexedSessionRefreshRequest Json}

/-- Whether a record is expected; the script has found it. -/
def expectedSession (r : IndexedSessionRefreshRequest Json) : ExpectedSession :=
  if r.expectedSessionJson.isSome then .equal else .notGiven

theorem cjsonDecode_of_isDict {json : Json} (h : json.isDict = true) :
    ∃ fields, cjsonDecode json = .table fields := by
  cases json with
  | obj fields => exact ⟨_, rfl⟩
  | _ => cases h

theorem replacedFields_json (hraw : raw.isDict = true)
    (hreplacement : ∀ json, r.replacementSessionJson = some json → json.isDict = true) :
    applyReplacement (expectedSession r) (cjsonDecode raw) r.replacementSessionJson =
        none ∧ replacedFields (jsonLua scaled) raw r = .error (.reply "session-user-mismatch") ∨
      ∃ fields, applyReplacement (expectedSession r) (cjsonDecode raw) r.replacementSessionJson =
        some (.table fields) ∧ replacedFields (jsonLua scaled) raw r = .ok fields := by
  obtain ⟨decoded, hdecoded⟩ := cjsonDecode_of_isDict hraw
  have hdecode : (jsonLua scaled).decode! raw = .ok (.table decoded) :=
    decode!_eq_ok.mpr (congrArg some hdecoded)
  rw [replacedFields, hdecode, hdecoded]
  rcases hjson : r.replacementSessionJson with _ | json
  · exact .inr ⟨decoded, rfl, rfl⟩
  · obtain ⟨fields, hfields⟩ := cjsonDecode_of_isDict (hreplacement json hjson)
    have hdecode' : (jsonLua scaled).decode! json = .ok (.table fields) :=
      decode!_eq_ok.mpr (congrArg some hfields)
    simp only [applyReplacement, hfields, LuaValue.get?, bind, Except.bind, hdecode',
      LuaValue.index]
    split
    · exact .inl ⟨rfl, rfl⟩
    · right
      rw [expectedSession]
      by_cases hexpected : r.expectedSessionJson.isSome = true
      · simp only [hexpected, if_true]
        exact ⟨fields, rfl, rfl⟩
      · simp only [hexpected]
        exact ⟨_, rfl, rfl⟩

theorem numberOrZero_json {v : Option LuaValue} (h : v ≠ some (.bool false)) :
    (jsonLua scaled).numberOrZero v = LuaValue.toNumber v := by
  rcases v with _ | v
  · rfl
  · cases v with
    | bool b =>
      cases b with
      | false => exact absurd rfl h
      | true => rfl
    | _ => rfl

/-- The reply to a refresh that finds the record it expects, if it expects one. -/
theorem refreshIndexedSession_eq_reply (hraw : raw.isDict = true)
    (hreplacement : ∀ json, r.replacementSessionJson = some json → json.isDict = true)
    (hfalse : ∀ fields, replacedFields (jsonLua scaled) raw r = .ok fields →
      fields.lookup "last_activity" ≠ some (.bool false) ∧
        fields.lookup "generation" ≠ some (.bool false))
    (httl : r.ttlSeconds ≠ 0) (owner : Option String) :
    refreshIndexedSession raw owner (expectedSession r) r.replacementSessionJson r.time
      r.ttlSeconds = (refreshDecision (jsonLua scaled) raw owner r).reply := by
  have hexpected : expectedSession r ≠ .different := by
    rw [expectedSession]
    split
    · exact fun h => nomatch h
    · exact fun h => nomatch h
  rw [refreshIndexedSession, if_neg httl, if_neg hexpected, refreshDecision]
  rcases @replacedFields_json scaled _ _ hraw hreplacement with ⟨hnone, herror⟩ |
    ⟨fields, hsome, hok⟩
  · rw [hnone, herror]
    rfl
  · obtain ⟨hlast, hgeneration⟩ := hfalse fields hok
    have hget : ∀ key, (LuaValue.table fields).get? key = fields.lookup key := fun _ => rfl
    simp only [hsome, hok, numberOrZero_json hlast, numberOrZero_json hgeneration]
    by_cases howner : owner.isSome = true ∧ (fields.lookup "user_id").bind (·.string?) ≠ owner
    · rw [if_pos (hget _ ▸ howner), if_pos howner]
      rfl
    · rw [if_neg (hget _ ▸ howner), if_neg howner]
      simp only [hget]
      rcases LuaValue.toNumber (fields.lookup "last_activity") with _ | last
      · rfl
      · by_cases hidle : r.time.olderThan last r.ttlSeconds = true
        · simp only [hidle, if_true]
          rfl
        · simp only [hidle]
          rcases LuaValue.toNumber (fields.lookup "generation") with _ | generation
          · rfl
          · rfl

end SessionStore
end QueryCraft
