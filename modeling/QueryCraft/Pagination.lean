import Mathlib.Data.Prod.Lex
import Mathlib.Data.String.Basic
import QueryCraft.Cursors
import QueryCraft.Keyset
import QueryCraft.SqlText

/-! # Paged collections

`SessionRepository.page_by_user` and `AcceptedQueryRepository.list_by_user` and
`page_by_session` list the rows of an owner page by page, latest first, rows of one instant
by their ids.  The cursor of a page holds the position of its last row; the next page
consists of rows that come strictly after it, a condition the functions spell in two ways.

`pages_complete` says that following the cursors from the start ends after finitely many
pages, that no cursor is refused on the way, and that the pages together list the rows of
the owner, each once and in order.

PostgreSQL orders UUIDs by their bytes, which is the order of their texts.  `ILIKE` compares
characters after folding their case.
-/
namespace QueryCraft

instance : DecidableEq Uuid := fun u v =>
  decidable_of_iff (u.text = v.text) ⟨fun h => by cases u; cases v; cases h; rfl, fun h => h ▸ rfl⟩

instance : LT Uuid := ⟨fun u v => u.text < v.text⟩
instance (u v : Uuid) : Decidable (u < v) := inferInstanceAs (Decidable (u.text < v.text))

/-! ## Positions -/

/-- `or_(at < cursor_at, and_(at == cursor_at, id < cursor_id))`. -/
def isAfterCursor (timestamp : DateTime) (id : Uuid) (cursor : DateTime × Uuid) : Bool :=
  timestamp < cursor.1 || (timestamp = cursor.1 && id < cursor.2)

/-- `tuple_(at, id) < tuple_(cursor_at, cursor_id)`: the first components that differ
decide. -/
def rowLessThan (timestamp : DateTime) (id : Uuid) (cursor : DateTime × Uuid) : Bool :=
  if timestamp = cursor.1 then id < cursor.2 else timestamp < cursor.1

/-- The position of a row in the order of the pages. -/
def sortKey (timestamp : DateTime) (id : Uuid) : ℕ ×ₗ String := toLex (timestamp.ordinal, id.text)

/-- The order of the fields is the order of the packed number. -/
theorem DateTime.ordinal_injective : Function.Injective DateTime.ordinal := by
  intro s t h
  have hs := s.month_range
  have ht := t.month_range
  have hsd := s.day_range.2.trans (monthLength_le _ _)
  have htd := t.day_range.2.trans (monthLength_le _ _)
  have hs1 := s.day_range.1
  have ht1 := t.day_range.1
  have hsm := s.microsecond_range
  have htm := t.microsecond_range
  simp only [DateTime.ordinal, DateTime.monthIndex] at h
  unfold dayLength at *
  ext <;> omega

theorem isAfterCursor_iff {t t' : DateTime} {id id' : Uuid} :
    isAfterCursor t id (t', id') = true ↔ sortKey t id < sortKey t' id' := by
  rw [sortKey, sortKey, Prod.Lex.toLex_lt_toLex]
  simp only [isAfterCursor, Bool.or_eq_true, Bool.and_eq_true, decide_eq_true_eq]
  exact or_congr Iff.rfl (and_congr_left' DateTime.ordinal_injective.eq_iff.symm)

theorem rowLessThan_iff {t t' : DateTime} {id id' : Uuid} :
    rowLessThan t id (t', id') = true ↔ sortKey t id < sortKey t' id' := by
  rw [← isAfterCursor_iff, rowLessThan, isAfterCursor]
  split
  · rename_i h
    simp [h, show ¬ t' < t' from Nat.lt_irrefl _]
  · rename_i h
    simp [h]

/-! ## The tables -/

/-- What is read of a row of `sessions`. -/
structure SessionRow where
  id : Uuid
  userId : Uuid
  lastActivityAt : DateTime

/-- What is read of a row of `accepted_queries`. -/
structure AcceptedQueryRow where
  id : Uuid
  userId : Uuid
  sessionId : Option Uuid
  questionText : List Char
  generatedSql : List Char
  acceptedAt : DateTime

def SessionRow.sortKey (r : SessionRow) : ℕ ×ₗ String :=
  QueryCraft.sortKey r.lastActivityAt r.id

def AcceptedQueryRow.sortKey (r : AcceptedQueryRow) : ℕ ×ₗ String :=
  QueryCraft.sortKey r.acceptedAt r.id

/-- What comes back for a page: `InvalidCursorError`, or the driver's error for a timestamp
without a time zone. -/
inductive PageError where
  | invalidCursor
  | naiveTimestamp
deriving DecidableEq, Repr

/-! ## Searching -/

/-- `_escape_like`. -/
def escapeLike (value : List Char) : List Char :=
  value.flatMap fun c => if c = '\\' ∨ c = '%' ∨ c = '_' then ['\\', c] else [c]

/-- `text LIKE pattern ESCAPE '\'`. -/
def likeMatches : List Char → List Char → Bool
  | [], text => text.isEmpty
  | '%' :: pattern, [] => likeMatches pattern []
  | '%' :: pattern, c :: text =>
    likeMatches pattern (c :: text) || likeMatches ('%' :: pattern) text
  | '_' :: pattern, _ :: text => likeMatches pattern text
  | '\\' :: p :: pattern, c :: text => p = c && likeMatches pattern text
  | p :: pattern, c :: text => p = c && likeMatches pattern text
  | _ :: _, [] => false

section Repositories
variable (fromisoformat : List Char → Option ParsedDateTime)
  (hexdigest : List Char → List (Fin 16)) (foldCase : Char → Char)

/-- `HISTORY_CURSOR_NAMESPACE`. -/
def historyCursorNamespace : List Char := "accepted_query_history".toList

/-- `search_cursor_namespace`, with the digits of the SHA-256 digest. -/
def searchCursorNamespace (search : Option (List Char)) : List Char :=
  match search with
  | none => historyCursorNamespace
  | some text =>
    if strip text = [] then historyCursorNamespace
    else historyCursorNamespace ++
      ':' :: ((hexdigest (strip text)).map fun d : Fin 16 => JsonText.hexDigit d.val).take 32

/-- The question or the statement contains the text; there may be none. -/
def searchMatches (search : Option (List Char)) (r : AcceptedQueryRow) : Bool :=
  match search with
  | none | some [] => true
  | some text =>
    let pattern := ('%' :: escapeLike text ++ ['%']).map foldCase
    likeMatches pattern (r.questionText.map foldCase) ||
      likeMatches pattern (r.generatedSql.map foldCase)

/-- `ORDER BY sort_value DESC, id DESC LIMIT limit + 1` on the rows that are selected; one row
more than fits means that there is a next page.  The limit is at least one. -/
def keysetPage {α : Type} (key : α → ℕ ×ₗ String) (cursorOf : α → List Char) (limit : Nat)
    (rows : List α) : List α × Option (List Char) :=
  (firstPage limit (descending key rows)).map id (Option.map cursorOf)

/-- `encode_cursor` of a session. -/
def SessionRow.cursor (r : SessionRow) : List Char :=
  encodeCursor "sessions".toList r.lastActivityAt.isoformat r.id

/-- `encode_cursor` of an accepted query. -/
def AcceptedQueryRow.cursor (collection : List Char) (r : AcceptedQueryRow) : List Char :=
  encodeCursor collection r.acceptedAt.isoformat r.id

/-- `SessionRepository.page_by_user`. -/
def pageByUser (rows : List SessionRow) (userId : Uuid) (limit : Nat)
    (cursor : Option (List Char)) :
    Except PageError (List SessionRow × Option (List Char)) :=
  let page := keysetPage SessionRow.sortKey SessionRow.cursor limit
  match cursor with
  | none => .ok (page (rows.filter fun r => r.userId = userId))
  | some cursor =>
    match decodeDatetimeCursor fromisoformat cursor "sessions".toList with
    | none => .error .invalidCursor
    | some position => .ok (page (rows.filter fun r =>
        r.userId = userId && isAfterCursor r.lastActivityAt r.id position))

/-- `AcceptedQueryRepository.page_by_session`. -/
def pageBySession (rows : List AcceptedQueryRow) (sessionId userId : Uuid) (limit : Nat)
    (cursor : Option (List Char)) :
    Except PageError (List AcceptedQueryRow × Option (List Char)) :=
  let page := keysetPage AcceptedQueryRow.sortKey
    (AcceptedQueryRow.cursor "session_attempts".toList) limit
  match cursor with
  | none => .ok (page (rows.filter fun r => r.sessionId = some sessionId && r.userId = userId))
  | some cursor =>
    match decodeDatetimeCursor fromisoformat cursor "session_attempts".toList with
    | none => .error .invalidCursor
    | some position => .ok (page (rows.filter fun r =>
        r.sessionId = some sessionId && r.userId = userId &&
          isAfterCursor r.acceptedAt r.id position))

/-- The cursors of old, `accepted_at|id`. -/
def legacyCursor (cursor : List Char) : Except PageError (DateTime × Uuid) :=
  match cursor.splitOn '|' with
  | [sortValue, itemId] =>
    match fromisoformat sortValue, readUuid itemId with
    | some (.aware t), some u => .ok (t, u)
    | some .naive, some _ => .error .naiveTimestamp
    | _, _ => .error .invalidCursor
  | _ => .error .invalidCursor

/-- The position a history cursor stands for. -/
def historyPosition (search : Option (List Char)) (cursor : List Char) :
    Except PageError (DateTime × Uuid) :=
  match decodeDatetimeCursor fromisoformat cursor (searchCursorNamespace hexdigest search) with
  | some position => .ok position
  | none =>
    if search.any (· ≠ []) ∨ '|' ∉ cursor then .error .invalidCursor
    else legacyCursor fromisoformat cursor

/-- `AcceptedQueryRepository.list_by_user`. -/
def listByUser (rows : List AcceptedQueryRow) (userId : Uuid) (search : Option (List Char))
    (limit : Nat) (cursor : Option (List Char)) :
    Except PageError (List AcceptedQueryRow × Option (List Char)) :=
  let page := keysetPage AcceptedQueryRow.sortKey
    (AcceptedQueryRow.cursor (searchCursorNamespace hexdigest search)) limit
  match cursor with
  | none | some [] =>
    .ok (page (rows.filter fun r => r.userId = userId && searchMatches foldCase search r))
  | some cursor =>
    match historyPosition fromisoformat hexdigest search cursor with
    | .error e => .error e
    | .ok position => .ok (page (rows.filter fun r =>
        r.userId = userId && searchMatches foldCase search r &&
          rowLessThan r.acceptedAt r.id position))

end Repositories

/-! ## Following the cursors -/

section Walk
variable {α : Type} {key : α → ℕ ×ₗ String} {limit : Nat} {rows : List α} {p : α → Bool}
  {fetch : Option (List Char) → Except PageError (List α × Option (List Char))}

/-- Following the cursors from the start ends, without an error, and lists the rows with a
property. -/
def Complete (key : α → ℕ ×ₗ String) (p : α → Bool) (rows : List α)
    (fetch : Option (List Char) → Except PageError (List α × Option (List Char))) : Prop :=
  ∃ calls pages, followCursors (fun cursor => (fetch cursor).toOption) calls none = some pages ∧
    Lists key (fun r => p r = true) rows pages.flatten

/-- The first page, and the page after each row that is listed, make it complete. -/
theorem complete_of_keysetPage (cursorOf : α → List Char) (hlimit : 1 ≤ limit)
    (hkeys : (rows.map key).Nodup)
    (hfirst : fetch none = .ok (keysetPage key cursorOf limit (rows.filter p)))
    (hnext : ∀ a ∈ rows, p a = true → fetch (some (cursorOf a)) =
      .ok (keysetPage key cursorOf limit (rows.filter fun r => p r && decide (key r < key a)))) :
    Complete key p rows fetch := by
  have hlists := lists_descending hkeys p
  have hfetches : Fetches key limit cursorOf (fun cursor => (fetch cursor).toOption)
      (descending key (rows.filter p)) := by
    intro bound hbound
    cases bound with
    | none => simp [hfirst, keysetPage, below, Except.toOption]
    | some a =>
      obtain ⟨ha, hp⟩ := (hlists.mem a).mp (hbound a rfl)
      have hfilter : (rows.filter fun r => p r && decide (key r < key a)) =
          (rows.filter p).filter fun r => decide (key r < key a) := by
        rw [List.filter_filter]
        exact List.filter_congr fun r _ => Bool.and_comm ..
      have hsub : ((rows.filter p).map key).Nodup := hkeys.sublist (List.filter_sublist.map key)
      simp only [Option.map_some, hnext a ha hp, keysetPage, hfilter, descending_filter hsub,
        Except.toOption]
      rfl
  obtain ⟨calls, pages, hpages, hflat⟩ := followCursors_flatten hlimit hlists.ordered hfetches
  exact ⟨calls, pages, hpages, hflat ▸ hlists⟩

/-- Rows with distinct ids have distinct positions. -/
theorem nodup_keys {id : α → Uuid} (hids : (rows.map id).Nodup)
    (hkey : ∀ r, (ofLex (key r)).2 = (id r).text) : (rows.map key).Nodup := by
  have htext : Function.Injective Uuid.text := by
    intro u v h
    cases u
    cases v
    cases h
    rfl
  refine List.Nodup.of_map (fun k => (ofLex k).2) ?_
  have hmap : (rows.map key).map (fun k => (ofLex k).2) = (rows.map id).map Uuid.text := by
    simp only [List.map_map]
    exact List.map_congr_left fun r _ => hkey r
  rw [hmap]
  exact hids.map htext

end Walk

/-! ## The three listings -/

section Listings
variable {fromisoformat : List Char → Option ParsedDateTime}
  {hexdigest : List Char → List (Fin 16)} {foldCase : Char → Char} {limit : Nat}

theorem pageByUser_complete (hlimit : 1 ≤ limit) (userId : Uuid) {rows : List SessionRow}
    (hids : (rows.map (·.id)).Nodup)
    (hiso : ∀ r ∈ rows, fromisoformat r.lastActivityAt.isoformat =
      some (.aware r.lastActivityAt)) :
    Complete SessionRow.sortKey (fun r => r.userId = userId) rows
      (pageByUser fromisoformat rows userId limit) := by
  refine complete_of_keysetPage SessionRow.cursor hlimit
    (nodup_keys hids fun _ => by rw [SessionRow.sortKey, sortKey, ofLex_toLex]) ?_ ?_
  · rw [pageByUser]
  · intro a ha _
    have hdecode : decodeDatetimeCursor fromisoformat (encodeCursor "sessions".toList
        a.lastActivityAt.isoformat a.id) "sessions".toList = some (a.lastActivityAt, a.id) :=
      decodeDatetimeCursor_encodeCursor (List.all_eq_true.mp (by decide)) (by decide) (hiso a ha)
        a.id
    have hafter : ∀ r : SessionRow, isAfterCursor r.lastActivityAt r.id (a.lastActivityAt, a.id) =
        decide (r.sortKey < a.sortKey) := by
      intro r
      rw [Bool.eq_iff_iff, isAfterCursor_iff, decide_eq_true_eq, SessionRow.sortKey,
        SessionRow.sortKey]
    rw [SessionRow.cursor, pageByUser, hdecode]
    simp only [hafter]

variable {rows : List AcceptedQueryRow}

theorem AcceptedQueryRow.nodup_keys (hids : (rows.map (·.id)).Nodup) :
    (rows.map AcceptedQueryRow.sortKey).Nodup :=
  QueryCraft.nodup_keys hids fun _ => by
    rw [AcceptedQueryRow.sortKey, QueryCraft.sortKey, ofLex_toLex]

theorem pageBySession_complete (hlimit : 1 ≤ limit) (sessionId userId : Uuid)
    (hids : (rows.map (·.id)).Nodup)
    (hiso : ∀ r ∈ rows, fromisoformat r.acceptedAt.isoformat = some (.aware r.acceptedAt)) :
    Complete AcceptedQueryRow.sortKey
      (fun r => r.sessionId = some sessionId && r.userId = userId) rows
      (pageBySession fromisoformat rows sessionId userId limit) := by
  refine complete_of_keysetPage (AcceptedQueryRow.cursor "session_attempts".toList) hlimit
    (AcceptedQueryRow.nodup_keys hids) ?_ ?_
  · rw [pageBySession]
  · intro a ha _
    have hdecode : decodeDatetimeCursor fromisoformat (encodeCursor "session_attempts".toList
        a.acceptedAt.isoformat a.id) "session_attempts".toList = some (a.acceptedAt, a.id) :=
      decodeDatetimeCursor_encodeCursor (List.all_eq_true.mp (by decide)) (by decide) (hiso a ha)
        a.id
    have hafter : ∀ r : AcceptedQueryRow,
        isAfterCursor r.acceptedAt r.id (a.acceptedAt, a.id) =
          decide (r.sortKey < a.sortKey) := by
      intro r
      rw [Bool.eq_iff_iff, isAfterCursor_iff, decide_eq_true_eq, AcceptedQueryRow.sortKey,
        AcceptedQueryRow.sortKey]
    rw [AcceptedQueryRow.cursor, pageBySession, hdecode]
    simp only [hafter]

theorem isPlain_hexDigit : ∀ d : Fin 16, JsonText.isPlain (JsonText.hexDigit d) = true := by
  decide

/-- The name of the history for a search fits into a cursor. -/
theorem searchCursorNamespace_spec (search : Option (List Char)) :
    (∀ c ∈ searchCursorNamespace hexdigest search, JsonText.isPlain c = true) ∧
      (searchCursorNamespace hexdigest search).length ≤ 64 := by
  have hbase : ∀ c ∈ historyCursorNamespace, JsonText.isPlain c = true :=
    List.all_eq_true.mp (by decide)
  have hlength : historyCursorNamespace.length = 22 := by decide
  cases search with
  | none => exact ⟨hbase, by rw [searchCursorNamespace, hlength]; omega⟩
  | some text =>
    simp only [searchCursorNamespace]
    split_ifs
    · exact ⟨hbase, by omega⟩
    · constructor
      · rw [List.forall_mem_append, List.forall_mem_cons]
        refine ⟨hbase, by decide, ?_⟩
        intro c hc
        obtain ⟨d, -, rfl⟩ := List.mem_map.mp (List.mem_of_mem_take hc)
        exact isPlain_hexDigit d
      · simp only [List.length_append, List.length_cons, List.length_take, hlength]
        omega

theorem listByUser_complete (hlimit : 1 ≤ limit) (userId : Uuid) (search : Option (List Char))
    (hids : (rows.map (·.id)).Nodup)
    (hiso : ∀ r ∈ rows, fromisoformat r.acceptedAt.isoformat = some (.aware r.acceptedAt)) :
    Complete AcceptedQueryRow.sortKey
      (fun r => r.userId = userId && searchMatches foldCase search r) rows
      (listByUser fromisoformat hexdigest foldCase rows userId search limit) := by
  refine complete_of_keysetPage
    (AcceptedQueryRow.cursor (searchCursorNamespace hexdigest search)) hlimit
    (AcceptedQueryRow.nodup_keys hids) ?_ ?_
  · rw [listByUser]
  · intro a ha _
    obtain ⟨hplain, hshort⟩ := @searchCursorNamespace_spec hexdigest search
    have hdecode := decodeDatetimeCursor_encodeCursor hplain hshort (hiso a ha) a.id
    have hposition : historyPosition fromisoformat hexdigest search
        (a.cursor (searchCursorNamespace hexdigest search)) = .ok (a.acceptedAt, a.id) := by
      rw [historyPosition, AcceptedQueryRow.cursor, hdecode]
    have hafter : ∀ r : AcceptedQueryRow,
        rowLessThan r.acceptedAt r.id (a.acceptedAt, a.id) = decide (r.sortKey < a.sortKey) := by
      intro r
      rw [Bool.eq_iff_iff, rowLessThan_iff, decide_eq_true_eq, AcceptedQueryRow.sortKey,
        AcceptedQueryRow.sortKey]
    -- an empty cursor would start from the beginning
    generalize hcursor : a.cursor (searchCursorNamespace hexdigest search) = cursor at hposition
    have hne : cursor ≠ [] := by
      rintro rfl
      rw [AcceptedQueryRow.cursor] at hcursor
      rw [hcursor] at hdecode
      simp [decodeDatetimeCursor, decodeCursor] at hdecode
    obtain ⟨c, cs, rfl⟩ := List.exists_cons_of_ne_nil hne
    rw [listByUser]
    · simp only [hposition, hafter]
    · exact hne

/-- **Following the cursors lists the rows of an owner, each once and in order.**  The
timestamps in the tables are read as they are written. -/
theorem pages_complete (hlimit : 1 ≤ limit) (userId sessionId : Uuid)
    (search : Option (List Char)) {sessions : List SessionRow} {queries : List AcceptedQueryRow}
    (hsessions : (sessions.map (·.id)).Nodup) (hqueries : (queries.map (·.id)).Nodup)
    (hiso : ∀ t ∈ sessions.map (·.lastActivityAt) ++ queries.map (·.acceptedAt),
      fromisoformat (DateTime.isoformat t) = some (.aware t)) :
    Complete SessionRow.sortKey (fun r => r.userId = userId) sessions
      (pageByUser fromisoformat sessions userId limit) ∧
    Complete AcceptedQueryRow.sortKey
      (fun r => r.sessionId = some sessionId && r.userId = userId) queries
      (pageBySession fromisoformat queries sessionId userId limit) ∧
    Complete AcceptedQueryRow.sortKey
      (fun r => r.userId = userId && searchMatches foldCase search r) queries
      (listByUser fromisoformat hexdigest foldCase queries userId search limit) := by
  rw [List.forall_mem_append, List.forall_mem_map, List.forall_mem_map] at hiso
  exact ⟨pageByUser_complete hlimit userId hsessions hiso.1,
    pageBySession_complete hlimit sessionId userId hqueries hiso.2,
    listByUser_complete hlimit userId search hqueries hiso.2⟩

end Listings

theorem newYear_year : 1 ≤ 2026 ∧ 2026 ≤ 9999 := by decide

theorem newYear_month : 1 ≤ 1 ∧ 1 ≤ 12 := by decide

/-- An instant, and a reader for its text. -/
def newYear : DateTime where
  year := 2026
  month := 1
  day := 1
  microsecond := 0
  year_range := newYear_year
  month_range := newYear_month
  day_range := by decide
  microsecond_range := by decide

def readNewYear (cs : List Char) : Option ParsedDateTime :=
  if cs = "2026-01-01T00:00:00+00:00".toList then some (.aware newYear) else none

theorem firstUuid_canonical : isCanonicalUuid "11111111-1111-1111-1111-111111111111" = true := by
  decide

def firstUuid : Uuid := ⟨"11111111-1111-1111-1111-111111111111", firstUuid_canonical⟩
def secondUuid : Uuid := ⟨"22222222-2222-2222-2222-222222222222", by decide⟩

/-- Two rows of one instant, on pages of one row. -/
theorem pages_complete_tie :
    Complete SessionRow.sortKey (fun r => r.userId = firstUuid)
      [⟨firstUuid, firstUuid, newYear⟩, ⟨secondUuid, firstUuid, newYear⟩]
      (pageByUser readNewYear
        [⟨firstUuid, firstUuid, newYear⟩, ⟨secondUuid, firstUuid, newYear⟩] firstUuid 1) ∧
    Complete AcceptedQueryRow.sortKey
      (fun r => r.sessionId = some secondUuid && r.userId = firstUuid)
      [⟨firstUuid, firstUuid, some secondUuid, [], [], newYear⟩]
      (pageBySession readNewYear [⟨firstUuid, firstUuid, some secondUuid, [], [], newYear⟩]
        secondUuid firstUuid 1) ∧
    Complete AcceptedQueryRow.sortKey
      (fun r => r.userId = firstUuid && searchMatches Char.toLower none r)
      [⟨firstUuid, firstUuid, some secondUuid, [], [], newYear⟩]
      (listByUser readNewYear (fun _ => []) Char.toLower
        [⟨firstUuid, firstUuid, some secondUuid, [], [], newYear⟩] firstUuid none 1) :=
  pages_complete (by decide) firstUuid secondUuid none (by decide) (by decide)
    (by
      intro t ht
      obtain rfl : t = newYear := by simpa using ht
      exact if_pos (by decide))

/-! ## What a search matches -/

/-- A wildcard skips a part of the text. -/
theorem likeMatches_wildcard (pattern text : List Char) :
    likeMatches ('%' :: pattern) text = true ↔
      ∃ rest, rest <:+ text ∧ likeMatches pattern rest = true := by
  induction text with
  | nil => simp [likeMatches]
  | cons c text ih =>
    rw [likeMatches, Bool.or_eq_true, ih]
    constructor
    · rintro (h | ⟨rest, hrest, h⟩)
      · exact ⟨_, List.suffix_refl _, h⟩
      · exact ⟨rest, hrest.trans (List.suffix_cons ..), h⟩
    · rintro ⟨rest, hrest, h⟩
      rcases List.suffix_cons_iff.mp hrest with rfl | hrest
      · exact .inl h
      · exact .inr ⟨rest, hrest, h⟩

/-- An escaped text matches where it stands. -/
theorem likeMatches_escapeLike (needle text : List Char) :
    likeMatches (escapeLike needle ++ ['%']) text = true ↔ needle <+: text := by
  induction needle generalizing text with
  | nil =>
    rw [escapeLike, List.flatMap_nil, List.nil_append, likeMatches_wildcard]
    exact ⟨fun _ => List.nil_prefix, fun _ => ⟨[], List.nil_suffix, by simp [likeMatches]⟩⟩
  | cons c needle ih =>
    have hcons : escapeLike (c :: needle) =
        (if c = '\\' ∨ c = '%' ∨ c = '_' then ['\\', c] else [c]) ++ escapeLike needle := rfl
    rw [hcons]
    by_cases hspecial : c = '\\' ∨ c = '%' ∨ c = '_'
    · rw [if_pos hspecial]
      cases text with
      | nil => simp [likeMatches]
      | cons d text => simp [likeMatches, ih, List.cons_prefix_cons]
    · rw [if_neg hspecial]
      simp only [not_or] at hspecial
      cases text with
      | nil => simp [likeMatches, hspecial]
      | cons d text => simp [likeMatches, hspecial, ih, List.cons_prefix_cons]

section Fold
variable {foldCase : Char → Char}
  (hfold : ∀ c, ∀ special ∈ ['\\', '%', '_'], foldCase c = special ↔ c = special)
include hfold

/-- Folding the case of an escaped text escapes the folded text. -/
theorem map_escapeLike (cs : List Char) :
    (escapeLike cs).map foldCase = escapeLike (cs.map foldCase) := by
  rw [escapeLike, escapeLike, List.map_flatMap, List.flatMap_map]
  refine List.flatMap_congr fun c _ => ?_
  have hbackslash := hfold c '\\' (by simp)
  have hpercent := hfold c '%' (by simp)
  have hunderscore := hfold c '_' (by simp)
  have hself := (hfold '\\' '\\' (by simp)).mpr rfl
  simp only [hbackslash, hpercent, hunderscore]
  split <;> simp [hself]

/-- Between two wildcards it matches wherever it stands. -/
theorem likeMatches_map_escapeLike (needle text : List Char) :
    likeMatches (('%' :: escapeLike needle ++ ['%']).map foldCase) text = true ↔
      needle.map foldCase <:+: text := by
  have hpercent := (hfold '%' '%' (by simp)).mpr rfl
  rw [List.map_append, List.map_cons, map_escapeLike hfold, List.map_singleton, hpercent,
    List.cons_append, likeMatches_wildcard]
  simp only [likeMatches_escapeLike, List.infix_iff_prefix_suffix]
  exact exists_congr fun _ => and_comm

/-- A search finds the rows whose question or statement contains the text up to case: the
wildcards of the text stand for themselves. -/
theorem searchMatches_iff (text : List Char) (r : AcceptedQueryRow) :
    searchMatches foldCase (some text) r = true ↔
      text.map foldCase <:+: r.questionText.map foldCase ∨
        text.map foldCase <:+: r.generatedSql.map foldCase := by
  cases text with
  | nil => simp [searchMatches]
  | cons c text =>
    rw [searchMatches, Bool.or_eq_true, likeMatches_map_escapeLike hfold,
      likeMatches_map_escapeLike hfold]
    simp

end Fold

end QueryCraft
