import QueryCraft.SessionQueue

/-! # The index holds the queue

How the keys in Redis hold the queue of a user (`Represents`), and what the commands and the
shared parts of the scripts do to it.  The index lists the sessions of the queue in order; it
may list others, whose keys have expired, until a script takes them out.  No session outlives
the index that lists it.
-/
namespace QueryCraft

variable {Text : Type}

namespace SessionStore
variable {s s' : SessionStore Text} {now : Nat} {user id : String} {l : List String}
  {t : Option Nat}

/-! ## Indexes -/

/-- The members of an index and its time of expiry; without members there is no index. -/
def IndexIs (s : SessionStore Text) (now : Nat) (user : String) (l : List String)
    (t : Option Nat) : Prop :=
  s.indexes.lookup now user = none ∧ l = [] ∨
    ∃ z, s.indexes.lookup now user = some ⟨z, t⟩ ∧ z.members = l ∧ l ≠ []

namespace IndexIs

theorem indexMembers (h : IndexIs s now user l t) : s.indexMembers now user = l := by
  rcases h with ⟨h, rfl⟩ | ⟨z, h, rfl, -⟩
  · simp [SessionStore.indexMembers, index?, h]
  · simp [SessionStore.indexMembers, index?, h]

theorem indexCard (h : IndexIs s now user l t) : s.indexCard now user = l.length := by
  rcases h with ⟨h, rfl⟩ | ⟨z, h, rfl, -⟩
  · simp [SessionStore.indexCard, index?, h]
  · simp [SessionStore.indexCard, index?, h, SortedSet.length_members]

theorem index?_eq_none (h : IndexIs s now user l t) : s.index? now user = none ↔ l = [] := by
  rcases h with ⟨h, rfl⟩ | ⟨z, h, rfl, hne⟩
  · simp [index?, h]
  · simp [index?, h, hne]

theorem nodup (h : IndexIs s now user l t) : l.Nodup := by
  rcases h with ⟨-, rfl⟩ | ⟨z, -, rfl, -⟩
  · exact List.nodup_nil
  · exact z.nodup_members

theorem congr (h : IndexIs s now user l t)
    (hsame : s'.indexes.lookup now user = s.indexes.lookup now user) : IndexIs s' now user l t := by
  rw [IndexIs, hsame]
  exact h

theorem removeFromIndex (h : IndexIs s now user l t) (id : String) :
    IndexIs (s.removeFromIndex now user id) now user (l.filter (· ≠ id)) t := by
  rcases h with ⟨h, rfl⟩ | ⟨z, h, rfl, -⟩
  · left
    refine ⟨?_, rfl⟩
    rw [SessionStore.removeFromIndex, KeySpace.lookup_alter_self, h]
    rfl
  · rw [IndexIs, SessionStore.removeFromIndex, KeySpace.lookup_alter_self, h,
      ← SortedSet.members_erase]
    by_cases hcard : (z.erase id).card = 0
    · left
      exact ⟨by simp [Option.filter, hcard], SortedSet.card_eq_zero.mp hcard⟩
    · right
      exact ⟨z.erase id, by simp [Option.filter, hcard], rfl, fun h =>
        hcard (SortedSet.card_eq_zero.mpr h)⟩

theorem addToIndex (h : IndexIs s now user l t) (hid : id ∉ l) (lua : Lua Text) (time : Decimal) :
    ∃ t', IndexIs (s.addToIndex now user id lua time) now user (l ++ [id]) t' ∧
      (l ≠ [] → t' = t) := by
  generalize hscore : lua.scaled time + ((s.sequence? now user).getD 0 + 1 : Nat) = score
  have hmembers : ∀ z : SortedSet String, id ∉ z.members →
      (z.add id (z.scoreAbove score)).members = z.members ++ [id] := fun z hz =>
    SortedSet.members_add_of_lt hz (SortedSet.lt_scoreAbove score)
  rcases h with ⟨h, rfl⟩ | ⟨z, h, rfl, hne⟩
  · refine ⟨none, .inr ⟨_, ?_, hmembers .empty (by simp), by simp⟩, fun h => absurd rfl h⟩
    rw [SessionStore.addToIndex, KeySpace.lookup_alter_self, h, hscore]
    rfl
  · refine ⟨t, .inr ⟨_, ?_, hmembers z hid, by simp⟩, fun _ => rfl⟩
    rw [SessionStore.addToIndex, KeySpace.lookup_alter_self, h, hscore]
    rfl

theorem expireIndex (h : IndexIs s now user l t) {t' : Nat} (ht : now ≤ t') :
    IndexIs (s.expireIndex now user t') now user l (some t') := by
  rcases h with ⟨h, rfl⟩ | ⟨z, h, rfl, hne⟩
  · left
    refine ⟨?_, rfl⟩
    rw [SessionStore.expireIndex, KeySpace.lookup_expire_self ht, h]
    rfl
  · right
    refine ⟨z, ?_, rfl, hne⟩
    rw [SessionStore.expireIndex, KeySpace.lookup_expire_self ht, h]
    rfl

theorem delIndex (s : SessionStore Text) (now : Nat) (user : String) (t : Option Nat) :
    IndexIs (s.delIndex user) now user [] t :=
  .inl ⟨KeySpace.lookup_del_self, rfl⟩

end IndexIs

/-! ## Other users -/

/-- Nothing changes that belongs to other users. -/
structure Elsewhere (userOf : String → String) (now : Nat) (user : String)
    (s s' : SessionStore Text) : Prop where
  index : ∀ u, u ≠ user → s'.indexes.lookup now u = s.indexes.lookup now u
  session : ∀ id, userOf id ≠ user → s'.sessions.lookup now id = s.sessions.lookup now id
  owner : ∀ id, userOf id ≠ user → s'.owners.lookup now id = s.owners.lookup now id

namespace Elsewhere
variable {userOf : String → String} {s'' : SessionStore Text}

theorem refl : Elsewhere userOf now user s s := ⟨fun _ _ => rfl, fun _ _ => rfl, fun _ _ => rfl⟩

theorem trans (h : Elsewhere userOf now user s s') (h' : Elsewhere userOf now user s' s'') :
    Elsewhere userOf now user s s'' :=
  ⟨fun u hu => (h'.index u hu).trans (h.index u hu),
    fun id hid => (h'.session id hid).trans (h.session id hid),
    fun id hid => (h'.owner id hid).trans (h.owner id hid)⟩

theorem removeFromIndex (id : String) :
    Elsewhere userOf now user s (s.removeFromIndex now user id) :=
  ⟨fun _ hu => by simp [SessionStore.removeFromIndex, hu], fun _ _ => rfl, fun _ _ => rfl⟩

theorem delSession (hid : userOf id = user) : Elsewhere userOf now user s (s.delSession id) :=
  ⟨fun _ _ => rfl,
    fun _ hne => KeySpace.lookup_del_of_ne (ne_of_apply_ne userOf (hid ▸ hne)),
    fun _ hne => KeySpace.lookup_del_of_ne (ne_of_apply_ne userOf (hid ▸ hne))⟩

theorem delIndex : Elsewhere userOf now user s (s.delIndex user) :=
  ⟨fun _ hu => KeySpace.lookup_del_of_ne hu, fun _ _ => rfl, fun _ _ => rfl⟩

theorem expireIndex (expireAt : Nat) :
    Elsewhere userOf now user s (s.expireIndex now user expireAt) :=
  ⟨fun _ hu => KeySpace.lookup_expire_of_ne hu _, fun _ _ => rfl, fun _ _ => rfl⟩

theorem setSession (hid : userOf id = user) (text : Text) (expireAt : Nat) :
    Elsewhere userOf now user s (s.setSession user id text expireAt) :=
  ⟨fun _ _ => rfl,
    fun _ hne => KeySpace.lookup_put_of_ne (ne_of_apply_ne userOf (hid ▸ hne)) _ _,
    fun _ hne => KeySpace.lookup_put_of_ne (ne_of_apply_ne userOf (hid ▸ hne)) _ _⟩

/-- The counters belong to no one. -/
theorem sequences (sequences : KeySpace String Nat) :
    Elsewhere userOf now user s { s with sequences := sequences } :=
  ⟨fun _ _ => rfl, fun _ _ => rfl, fun _ _ => rfl⟩

theorem recoverSequence : Elsewhere userOf now user s (s.recoverSequence now user) := by
  rw [SessionStore.recoverSequence]
  split
  · exact sequences _
  · exact refl

theorem addToIndex (id : String) (lua : Lua Text) (time : Decimal) :
    Elsewhere userOf now user s (s.addToIndex now user id lua time) :=
  ⟨fun _ hu => by simp [SessionStore.addToIndex, hu], fun _ _ => rfl, fun _ _ => rfl⟩

theorem sweepMember {member : String} (hmember : userOf member = user) (apart : Option String) :
    Elsewhere userOf now user s (SessionStore.sweepMember now user apart s member) := by
  rw [SessionStore.sweepMember]
  split
  · exact (removeFromIndex member).trans ⟨fun _ _ => rfl, fun _ _ => rfl,
      fun _ hne => KeySpace.lookup_del_of_ne (ne_of_apply_ne userOf (hmember ▸ hne))⟩
  · exact refl

theorem foldl_sweepMember (apart : Option String) : ∀ (ms : List String) {s : SessionStore Text},
    (∀ m ∈ ms, userOf m = user) →
    Elsewhere userOf now user s (ms.foldl (SessionStore.sweepMember now user apart) s)
  | [], _, _ => refl
  | m :: ms, _, h => (sweepMember (h m List.mem_cons_self) apart).trans
      (foldl_sweepMember apart ms fun m' hm' => h m' (List.mem_cons_of_mem _ hm'))

end Elsewhere

/-! ## Sweeping -/

theorem sweepMember_sessions (apart : Option String) (member : String) :
    (sweepMember now user apart s member).sessions = s.sessions := by
  rw [sweepMember]
  split
  · rfl
  · rfl

theorem foldl_sweepMember_sessions (apart : Option String) : ∀ (ms : List String)
    (s : SessionStore Text), (ms.foldl (sweepMember now user apart) s).sessions = s.sessions
  | [], _ => rfl
  | m :: ms, s => by
    rw [List.foldl_cons, foldl_sweepMember_sessions apart ms, sweepMember_sessions]

/-- A member is kept: the script handles it itself, or its session is there. -/
def Kept (s : SessionStore Text) (now : Nat) (apart : Option String) (member : String) : Prop :=
  apart = some member ∨ (s.sessions.lookup now member).isSome = true

instance (apart : Option String) (member : String) : Decidable (s.Kept now apart member) :=
  inferInstanceAs (Decidable (_ ∨ _))

theorem kept_congr (h : s'.sessions = s.sessions) (apart : Option String) (member : String) :
    s'.Kept now apart member ↔ s.Kept now apart member := by
  rw [Kept, Kept, h]

theorem sweepMember_of_kept {apart : Option String} {member : String}
    (h : s.Kept now apart member) : sweepMember now user apart s member = s := by
  rw [sweepMember, if_neg]
  rintro ⟨hne, hnone⟩
  rcases h with h | h
  · exact hne h
  · simp [hnone] at h

theorem sweepMember_of_not_kept {apart : Option String} {member : String}
    (h : ¬ s.Kept now apart member) : sweepMember now user apart s member =
      { s.removeFromIndex now user member with owners := s.owners.del member } := by
  rw [Kept, not_or] at h
  rw [sweepMember, if_pos ⟨h.1, by simpa using h.2⟩]
  rfl

/-- The members that are kept stay in the index. -/
theorem indexIs_foldl_sweepMember (apart : Option String) : ∀ (ms : List String)
    {s : SessionStore Text} {l : List String}, IndexIs s now user l t →
    IndexIs (ms.foldl (sweepMember now user apart) s) now user
      (l.filter fun m => m ∉ ms ∨ s.Kept now apart m) t
  | [], s, l, h => by
    rw [List.filter_eq_self.mpr (by simp)]
    exact h
  | m :: ms, s, l, h => by
    rw [List.foldl_cons]
    by_cases hkept : s.Kept now apart m
    · rw [sweepMember_of_kept hkept]
      convert indexIs_foldl_sweepMember apart ms h using 1
      refine List.filter_congr fun x _ => decide_eq_decide.mpr ?_
      by_cases hx : x = m
      · simp [hx, hkept]
      · simp [hx]
    · rw [sweepMember_of_not_kept hkept]
      have hstep : IndexIs { s.removeFromIndex now user m with owners := s.owners.del m } now user
          (l.filter (· ≠ m)) t := h.removeFromIndex m
      convert indexIs_foldl_sweepMember apart ms hstep using 1
      rw [List.filter_filter]
      refine List.filter_congr fun x _ => ?_
      have hsame : SessionStore.Kept { s.removeFromIndex now user m with owners := s.owners.del m }
          now apart x ↔ s.Kept now apart x := kept_congr rfl apart x
      by_cases hx : x = m
      · simp [hx, hkept]
      · simp [hx, hsame]

theorem indexIs_sweep (h : IndexIs s now user l t) (apart : Option String) :
    IndexIs (s.sweep now user apart) now user (l.filter fun m => s.Kept now apart m) t := by
  rw [sweep, h.indexMembers]
  convert indexIs_foldl_sweepMember apart l h using 1
  refine List.filter_congr fun x hx => decide_eq_decide.mpr ?_
  simp [hx]

theorem elsewhere_sweep {userOf : String → String} (h : IndexIs s now user l t)
    (hl : ∀ id ∈ l, userOf id = user) (apart : Option String) :
    Elsewhere userOf now user s (s.sweep now user apart) := by
  rw [sweep, h.indexMembers]
  exact .foldl_sweepMember apart l hl

end SessionStore

/-! ## The keys hold a queue -/

/-- The record names the user. -/
def Lua.Names (lua : Lua Text) (text : Text) (user : String) : Prop :=
  ∃ fields, lua.decode text = some (.table fields) ∧ fields.lookup "user_id" = some (.str user)

namespace SessionStore
open SessionQueue

/-- The keys in Redis hold the queue of a user.  Every session id belongs to one user, and all
sessions have the same idle time. -/
structure Represents (lua : Lua Text) (userOf : String → String) (ttlSeconds : Nat)
    (s : SessionStore Text) (now : Nat) (user : String) (q : List (QueuedSession Text)) :
    Prop where
  nodup : (ids q).Nodup
  entry : ∀ e ∈ q, userOf e.id = user ∧ user ≠ "" ∧ lua.Names e.text user ∧ now ≤ e.deadline ∧
    e.deadline ≤ now + ttlSeconds * 1000
  session : ∀ id, userOf id = user → s.sessions.lookup now id =
    (find? q id).map fun e => ⟨e.text, some e.deadline⟩
  owner : ∀ id, userOf id = user → s.owners.lookup now id =
    (find? q id).map fun e => ⟨user, some e.deadline⟩
  index : ∃ l t, IndexIs s now user l t ∧ (∀ id ∈ l, userOf id = user) ∧
    (ids q).Sublist l ∧ ∀ e ∈ q, ∃ t', t = some t' ∧ e.deadline ≤ t'

namespace Represents
variable {lua : Lua Text} {userOf : String → String} {ttlSeconds : Nat} {s s' : SessionStore Text}
  {now : Nat} {user id : String} {q : List (QueuedSession Text)} {l : List String}

theorem empty (lua : Lua Text) (userOf : String → String) (ttlSeconds now : Nat) (user : String) :
    Represents lua userOf ttlSeconds SessionStore.empty now user [] where
  nodup := List.nodup_nil
  entry _ he := absurd he List.not_mem_nil
  session _ _ := rfl
  owner _ _ := rfl
  index := ⟨[], none, .inl ⟨rfl, rfl⟩, by simp, .refl _, by simp⟩

theorem session? (h : Represents lua userOf ttlSeconds s now user q) (hid : userOf id = user) :
    s.session? now id = (find? q id).map (·.text) := by
  rw [SessionStore.session?, h.session id hid, Option.map_map]
  rfl

theorem owner? (h : Represents lua userOf ttlSeconds s now user q) (hid : userOf id = user) :
    s.owner? now id = (find? q id).map fun _ => user := by
  rw [SessionStore.owner?, h.owner id hid, Option.map_map]
  rfl

theorem session_isSome (h : Represents lua userOf ttlSeconds s now user q)
    (hid : userOf id = user) : (s.sessions.lookup now id).isSome = true ↔ id ∈ ids q := by
  rw [h.session id hid, Option.isSome_map, find?_isSome]

/-- What happens to other users does not matter. -/
theorem elsewhere {u : String} (h : Represents lua userOf ttlSeconds s now user q)
    (hframe : Elsewhere userOf now u s s') (hne : user ≠ u) :
    Represents lua userOf ttlSeconds s' now user q where
  nodup := h.nodup
  entry := h.entry
  session id hid := (hframe.session id (hid ▸ hne)).trans (h.session id hid)
  owner id hid := (hframe.owner id (hid ▸ hne)).trans (h.owner id hid)
  index := by
    obtain ⟨l, t, hindex, hrest⟩ := h.index
    exact ⟨l, t, hindex.congr (hframe.index user hne), hrest⟩

/-- As time passes, the sessions whose deadlines pass are gone. -/
theorem later (h : Represents lua userOf ttlSeconds s now user q) {later : Nat}
    (hle : now ≤ later) : Represents lua userOf ttlSeconds s later user (alive q later) := by
  have hlookup : ∀ {V : Type} (keys : KeySpace String V) (k : String),
      keys.lookup later k = (keys.lookup now k).filter (·.live later) := by
    intro V keys k
    rcases hl : keys.lookup later k with _ | e
    · rcases hn : keys.lookup now k with _ | e
      · rfl
      · rw [eq_comm, Option.filter_eq_none_iff]
        rintro e' he' hlive
        obtain rfl := Option.some.inj he'
        have := KeySpace.lookup_eq_some.mpr ⟨(KeySpace.lookup_eq_some.mp hn).1, hlive⟩
        rw [hl] at this
        cases this
    · rw [KeySpace.lookup_of_lookup_later hle hl]
      simp [Option.filter, (KeySpace.lookup_eq_some.mp hl).2]
  have hfind : ∀ {V : Type} (v : QueuedSession Text → V) (id : String),
      ((find? q id).map fun e => (⟨v e, some e.deadline⟩ : Expiring V)).filter (·.live later) =
        (find? (alive q later) id).map fun e => ⟨v e, some e.deadline⟩ := by
    intro V v id
    rw [find?_alive h.nodup]
    rcases find? q id with _ | e
    · rfl
    · by_cases hlive : later ≤ e.deadline
      · simp [Option.filter, Expiring.live, hlive]
      · simp [Option.filter, Expiring.live, hlive]
  refine ⟨h.nodup.sublist (List.filter_sublist.map _), fun e he => ?_, fun id hid => ?_,
    fun id hid => ?_, ?_⟩
  · obtain ⟨hid, huser, hnames, -, hdeadline⟩ := h.entry e (List.mem_of_mem_filter he)
    exact ⟨hid, huser, hnames, le_of_mem_alive he, by omega⟩
  · rw [hlookup, h.session id hid, hfind]
  · rw [hlookup, h.owner id hid, hfind fun _ => user]
  · obtain ⟨l, t, hindex, hl, hids, hexpiry⟩ := h.index
    have halive : (ids (alive q later)).Sublist l := (List.filter_sublist.map _).trans hids
    rcases hindex with ⟨hnone, rfl⟩ | ⟨z, hz, rfl, hne⟩
    · exact ⟨[], t, .inl ⟨by rw [hlookup, hnone]; rfl, rfl⟩, by simp, halive,
        fun e he => hexpiry e (List.mem_of_mem_filter he)⟩
    · by_cases hlive : (⟨z, t⟩ : Expiring (SortedSet String)).live later = true
      · refine ⟨z.members, t, .inr ⟨z, ?_, rfl, hne⟩, hl, halive,
          fun e he => hexpiry e (List.mem_of_mem_filter he)⟩
        rw [hlookup, hz]
        simp [Option.filter, hlive]
      · -- the index has expired, and all sessions have
        have hempty : alive q later = [] := by
          refine List.filter_eq_nil_iff.mpr fun e he hdeadline => hlive ?_
          obtain ⟨t', rfl, ht'⟩ := hexpiry e he
          have : later ≤ e.deadline := by simpa using hdeadline
          simp only [Expiring.live, Option.all_some, decide_eq_true_eq]
          omega
        refine ⟨[], t, .inl ⟨?_, rfl⟩, by simp, by simp [hempty, ids], by simp [hempty]⟩
        rw [hlookup, hz]
        simp [Option.filter, hlive]

/-! ## What the commands do to it -/

/-- The counters do not matter. -/
theorem sequences (h : Represents lua userOf ttlSeconds s now user q)
    (sequences : KeySpace String Nat) :
    Represents lua userOf ttlSeconds { s with sequences := sequences } now user q where
  nodup := h.nodup
  entry := h.entry
  session := h.session
  owner := h.owner
  index := by
    obtain ⟨l, t, hindex, hrest⟩ := h.index
    exact ⟨l, t, hindex.congr rfl, hrest⟩

theorem recoverSequence (h : Represents lua userOf ttlSeconds s now user q) :
    Represents lua userOf ttlSeconds (s.recoverSequence now user) now user q := by
  rw [SessionStore.recoverSequence]
  split
  · exact h.sequences _
  · exact h

theorem delSession (h : Represents lua userOf ttlSeconds s now user q) (id : String) :
    Represents lua userOf ttlSeconds (s.delSession id) now user (remove q id) where
  nodup := h.nodup.sublist (List.filter_sublist.map _)
  entry e he := h.entry e (List.mem_of_mem_filter he)
  session id' hid' := by
    rw [find?_remove]
    split
    · rename_i heq
      rw [heq]
      exact KeySpace.lookup_del_self
    · rename_i hne
      exact (KeySpace.lookup_del_of_ne hne).trans (h.session id' hid')
  owner id' hid' := by
    rw [find?_remove]
    split
    · rename_i heq
      rw [heq]
      exact KeySpace.lookup_del_self
    · rename_i hne
      exact (KeySpace.lookup_del_of_ne hne).trans (h.owner id' hid')
  index := by
    obtain ⟨l, t, hindex, hl, hids, hexpiry⟩ := h.index
    exact ⟨l, t, hindex.congr rfl, hl, (List.filter_sublist.map _).trans hids,
      fun e he => hexpiry e (List.mem_of_mem_filter he)⟩

/-- An id without a session may leave the index. -/
theorem removeFromIndex (h : Represents lua userOf ttlSeconds s now user q) (hid : id ∉ ids q) :
    Represents lua userOf ttlSeconds (s.removeFromIndex now user id) now user q where
  nodup := h.nodup
  entry := h.entry
  session := h.session
  owner := h.owner
  index := by
    obtain ⟨l, t, hindex, hl, hids, hexpiry⟩ := h.index
    refine ⟨_, t, hindex.removeFromIndex id, fun x hx => hl x (List.mem_of_mem_filter hx), ?_,
      hexpiry⟩
    have hself : (ids q).filter (· ≠ id) = ids q :=
      List.filter_eq_self.mpr fun x hx => decide_eq_true fun heq => hid (heq ▸ hx)
    exact hself ▸ hids.filter _

theorem sweepMember (h : Represents lua userOf ttlSeconds s now user q) {member : String}
    (hmember : userOf member = user) (apart : Option String) :
    Represents lua userOf ttlSeconds (SessionStore.sweepMember now user apart s member) now user
      q := by
  by_cases hkept : s.Kept now apart member
  · rw [sweepMember_of_kept hkept]
    exact h
  · have hnot : member ∉ ids q := fun hmem =>
      hkept (.inr ((h.session_isSome hmember).mpr hmem))
    rw [sweepMember_of_not_kept hkept]
    have hremoved := h.removeFromIndex hnot
    refine ⟨hremoved.nodup, hremoved.entry, hremoved.session, fun id hid => ?_, ?_⟩
    · by_cases heq : id = member
      · rw [heq, find?_eq_none.mpr hnot]
        exact KeySpace.lookup_del_self
      · exact (KeySpace.lookup_del_of_ne heq).trans (h.owner id hid)
    · obtain ⟨l, t, hindex, hrest⟩ := hremoved.index
      exact ⟨l, t, hindex.congr rfl, hrest⟩

theorem foldl_sweepMember (apart : Option String) : ∀ (ms : List String) {s : SessionStore Text},
    Represents lua userOf ttlSeconds s now user q → (∀ m ∈ ms, userOf m = user) →
    Represents lua userOf ttlSeconds (ms.foldl (SessionStore.sweepMember now user apart) s) now
      user q
  | [], _, h, _ => h
  | m :: ms, _, h, hms => foldl_sweepMember apart ms
      (h.sweepMember (hms m List.mem_cons_self) apart) fun m' hm' =>
        hms m' (List.mem_cons_of_mem _ hm')

theorem sweep (h : Represents lua userOf ttlSeconds s now user q) (apart : Option String) :
    Represents lua userOf ttlSeconds (s.sweep now user apart) now user q := by
  obtain ⟨l, t, hindex, hl, -⟩ := h.index
  rw [SessionStore.sweep, hindex.indexMembers]
  exact h.foldl_sweepMember apart l hl

theorem elsewhere_sweep (h : Represents lua userOf ttlSeconds s now user q)
    (apart : Option String) : Elsewhere userOf now user s (s.sweep now user apart) := by
  obtain ⟨l, t, hindex, hl, -⟩ := h.index
  exact SessionStore.elsewhere_sweep hindex hl apart

theorem addToIndex (h : Represents lua userOf ttlSeconds s now user q) (hid : userOf id = user)
    (hnot : id ∉ s.indexMembers now user) (time : Decimal) :
    Represents lua userOf ttlSeconds (s.addToIndex now user id lua time) now user q where
  nodup := h.nodup
  entry := h.entry
  session := h.session
  owner := h.owner
  index := by
    obtain ⟨l, t, hindex, hl, hids, hexpiry⟩ := h.index
    rw [hindex.indexMembers] at hnot
    obtain ⟨t', hindex', ht'⟩ := hindex.addToIndex hnot lua time
    refine ⟨_, t', hindex', ?_, hids.trans (List.sublist_append_left _ _), fun e he => ?_⟩
    · intro x hx
      rcases List.mem_append.mp hx with hx | hx
      · exact hl x hx
      · exact List.mem_singleton.mp hx ▸ hid
    · rw [ht' (List.ne_nil_of_mem (hids.subset (List.mem_map_of_mem he)))]
      exact hexpiry e he

/-- A session is stored, whose place in the index has been found. -/
theorem store (h : Represents lua userOf ttlSeconds s now user q) {text : Text}
    (hid : userOf id = user) (huser : user ≠ "") (hnames : lua.Names text user)
    {t : Option Nat} (hindex : IndexIs s now user l t) (hl : ∀ id ∈ l, userOf id = user)
    (hids : (ids (push q ⟨id, text, now + ttlSeconds * 1000⟩)).Sublist l) :
    Represents lua userOf ttlSeconds
      ((s.setSession user id text (now + ttlSeconds * 1000)).expireIndex now user
        (now + ttlSeconds * 1000))
      now user (push q ⟨id, text, now + ttlSeconds * 1000⟩) where
  nodup := nodup_push h.nodup
  entry e he := by
    rcases mem_push he with rfl | he
    · exact ⟨hid, huser, hnames, Nat.le_add_right _ _, le_rfl⟩
    · exact h.entry e he
  session id' hid' := by
    rw [find?_push]
    split
    · rename_i heq
      rw [heq]
      exact (KeySpace.lookup_put_self _ _).trans (by simp [Option.filter, Expiring.live])
    · rename_i hne
      exact (KeySpace.lookup_put_of_ne hne _ _).trans (h.session id' hid')
  owner id' hid' := by
    rw [find?_push]
    split
    · rename_i heq
      rw [heq]
      exact (KeySpace.lookup_put_self _ _).trans (by simp [Option.filter, Expiring.live])
    · rename_i hne
      exact (KeySpace.lookup_put_of_ne hne _ _).trans (h.owner id' hid')
  index := by
    have hset : IndexIs (s.setSession user id text (now + ttlSeconds * 1000)) now user l t :=
      hindex.congr rfl
    refine ⟨l, _, hset.expireIndex (Nat.le_add_right _ _), hl, hids, fun e he => ⟨_, rfl, ?_⟩⟩
    rcases mem_push he with rfl | he
    · exact le_rfl
    · exact (h.entry e he).2.2.2.2

/-- An index without members is deleted with its counter. -/
theorem delIndex (h : Represents lua userOf ttlSeconds s now user q)
    (hcard : s.indexCard now user = 0) :
    Represents lua userOf ttlSeconds (s.delIndex user) now user q where
  nodup := h.nodup
  entry := h.entry
  session := h.session
  owner := h.owner
  index := by
    obtain ⟨l, t, hindex, -, hids, hexpiry⟩ := h.index
    rw [hindex.indexCard, List.length_eq_zero_iff] at hcard
    exact ⟨[], t, .delIndex s now user t, by simp, hcard ▸ hids, hexpiry⟩

end Represents
end SessionStore
end QueryCraft
