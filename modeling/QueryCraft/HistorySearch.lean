import Mathlib.Data.Bool.AllAny
import Mathlib.Data.List.Infix
import QueryCraft.Pagination

/-! # Searching the history

`AcceptedQueryRepository.list_by_user` and `count_by_user` select the accepted queries of a
user by a pattern made of the search text, and `search_cursor_namespace` binds the cursors of
the pages to that text.  `HistoryService.list_history` trims the text before all three.

`history_search_literal` says that the pattern finds the text itself wherever it stands,
whichever wildcards and backslashes it consists of, and that the pages, their total and their
cursors are therefore about the same rows.
-/
namespace QueryCraft

/-! ## The pattern -/

/-- `value.replace(old, new)` for one character. -/
def replaceChar (old : Char) (new : List Char) (value : List Char) : List Char :=
  value.flatMap fun c => if c = old then new else [c]

/-- `_escape_like` as it is written: one replacement after the other. -/
def escapeLikeReplacing (value : List Char) : List Char :=
  replaceChar '_' ['\\', '_']
    (replaceChar '%' ['\\', '%'] (replaceChar '\\' ['\\', '\\'] value))

/-- Backslashes go first, so the later replacements find none of their own making, and each
character is escaped once. -/
theorem escapeLikeReplacing_eq (value : List Char) :
    escapeLikeReplacing value = escapeLike value := by
  rw [escapeLikeReplacing, replaceChar, replaceChar, replaceChar, List.flatMap_assoc,
    List.flatMap_assoc, escapeLike]
  refine List.flatMap_congr fun c _ => ?_
  by_cases hbackslash : c = '\\'
  · subst hbackslash
    rfl
  by_cases hpercent : c = '%'
  · subst hpercent
    rfl
  by_cases hunderscore : c = '_'
  · subst hunderscore
    rfl
  simp [hbackslash, hpercent, hunderscore]

section Search
variable (hexdigest : List Char → List (Fin 16)) (foldCase : Char → Char)

/-- `%…%` around the escaped text, as `ILIKE` compares it. -/
def searchPattern (search : List Char) : List Char :=
  ('%' :: escapeLikeReplacing search ++ ['%']).map foldCase

/-- The text occurs in the question or in the statement, up to case. -/
def Mentions (search : List Char) (r : AcceptedQueryRow) : Prop :=
  search.map foldCase <:+: r.questionText.map foldCase ∨
    search.map foldCase <:+: r.generatedSql.map foldCase

instance (search : List Char) (r : AcceptedQueryRow) : Decidable (Mentions foldCase search r) :=
  inferInstanceAs (Decidable (_ ∨ _))

/-- `AcceptedQueryRepository.count_by_user`. -/
def countByUser (rows : List AcceptedQueryRow) (userId : Uuid) (search : Option (List Char)) :
    Nat :=
  match search with
  | none | some [] => rows.countP fun r => r.userId = userId
  | some text => rows.countP fun r => r.userId = userId &&
      (likeMatches (searchPattern foldCase text) (r.questionText.map foldCase) ||
        likeMatches (searchPattern foldCase text) (r.generatedSql.map foldCase))

end Search

/-! ## The request -/

/-- A failed request for the history: 422 for a long search, or what the page fails with. -/
inductive HistoryError where
  | invalidSearch
  | page (error : PageError)
deriving DecidableEq, Repr

/-- `HISTORY_SEARCH_MAX_CODE_POINTS`. -/
def historySearchMaxCodePoints : Nat := 200

/-- `normalize_history_search`. -/
def normalizeHistorySearch (raw : Option (List Char)) :
    Except HistoryError (Option (List Char)) :=
  match raw with
  | none => .ok none
  | some raw =>
    if strip raw = [] then .ok none
    else if historySearchMaxCodePoints < (strip raw).length then .error .invalidSearch
    else .ok (some (strip raw))

/-- What `HistoryListResponse` holds; the total comes with the first page only. -/
structure HistoryPage where
  items : List AcceptedQueryRow
  total : Option Nat
  nextCursor : Option (List Char)

/-- `HistoryService.list_history`. -/
def listHistory (fromisoformat : List Char → Option ParsedDateTime)
    (hexdigest : List Char → List (Fin 16)) (foldCase : Char → Char)
    (rows : List AcceptedQueryRow) (userId : Uuid) (search : Option (List Char)) (limit : Nat)
    (cursor : Option (List Char)) : Except HistoryError HistoryPage :=
  match normalizeHistorySearch search with
  | .error e => .error e
  | .ok normalized =>
    match listByUser fromisoformat hexdigest foldCase rows userId normalized limit cursor with
    | .error e => .error (.page e)
    | .ok (items, nextCursor) => .ok {
        items
        total := if cursor = none then some (countByUser foldCase rows userId normalized) else none
        nextCursor }

/-! ## What the pattern finds -/

section Literal
variable {foldCase : Char → Char}
  (hfold : ∀ c, ∀ special ∈ ['\\', '%', '_'], foldCase c = special ↔ c = special)
include hfold

/-- The pattern of a search finds the search text, wherever it stands. -/
theorem likeMatches_searchPattern (search text : List Char) :
    likeMatches (searchPattern foldCase search) text = true ↔ search.map foldCase <:+: text := by
  rw [searchPattern, escapeLikeReplacing_eq, likeMatches_map_escapeLike hfold]

/-- The pages are selected by the text itself. -/
theorem searchMatches_some (search : List Char) (r : AcceptedQueryRow) :
    searchMatches foldCase (some search) r = decide (Mentions foldCase search r) := by
  rw [Bool.eq_iff_iff, decide_eq_true_eq, searchMatches_iff hfold, Mentions]

/-- So is their total. -/
theorem countByUser_some (rows : List AcceptedQueryRow) (userId : Uuid) (search : List Char) :
    countByUser foldCase rows userId (some search) =
      rows.countP fun r => r.userId = userId && decide (Mentions foldCase search r) := by
  cases search with
  | nil => simp [countByUser, Mentions]
  | cons c search =>
    refine List.countP_congr fun r _ => ?_
    rw [Bool.and_eq_true, Bool.and_eq_true, Bool.or_eq_true, decide_eq_true_eq,
      decide_eq_true_eq, likeMatches_searchPattern hfold, likeMatches_searchPattern hfold, Mentions]

end Literal

/-! ## What the cursors are bound to -/

section Namespaces
variable {hexdigest : List Char → List (Fin 16)}

/-- The digits of the digest that a namespace shows. -/
def namespaceDigits (hexdigest : List Char → List (Fin 16)) (search : List Char) :
    List (Fin 16) := (hexdigest search).take 32

theorem searchCursorNamespace_of_ne_nil {search : List Char} (htrim : strip search = search)
    (hne : search ≠ []) : searchCursorNamespace hexdigest (some search) =
      historyCursorNamespace ++ ':' ::
        (namespaceDigits hexdigest search).map fun d => JsonText.hexDigit d.val := by
  simp only [searchCursorNamespace, htrim, if_neg hne, namespaceDigits, List.map_take]

theorem searchCursorNamespace_nil :
    searchCursorNamespace hexdigest (some []) = historyCursorNamespace := rfl

theorem hexDigit_injective : Function.Injective fun d : Fin 16 => JsonText.hexDigit d.val := by
  unfold Function.Injective
  decide

/-- Trimmed texts that share a namespace are one text, as far as the digest tells. -/
theorem eq_of_searchCursorNamespace {s t : List Char} (hs : strip s = s) (ht : strip t = t)
    (h : searchCursorNamespace hexdigest (some s) = searchCursorNamespace hexdigest (some t)) :
    s = t ∨ (s ≠ [] ∧ t ≠ [] ∧ namespaceDigits hexdigest s = namespaceDigits hexdigest t) := by
  rcases eq_or_ne s [] with rfl | hs' <;> rcases eq_or_ne t [] with rfl | ht'
  · exact .inl rfl
  · rw [searchCursorNamespace_nil, searchCursorNamespace_of_ne_nil ht ht'] at h
    simp at h
  · rw [searchCursorNamespace_nil, searchCursorNamespace_of_ne_nil hs hs'] at h
    simp at h
  · rw [searchCursorNamespace_of_ne_nil hs hs', searchCursorNamespace_of_ne_nil ht ht'] at h
    have hdigits := List.map_injective_iff.mpr hexDigit_injective
      (List.cons_inj_right _ |>.mp (List.append_cancel_left h))
    exact .inr ⟨hs', ht', hdigits⟩

end Namespaces

/-! ## One set of rows -/

section Together
variable (fromisoformat : List Char → Option ParsedDateTime)
  (hexdigest : List Char → List (Fin 16)) (foldCase : Char → Char)

/-- A row of the user that mentions the text. -/
def isFound (userId : Uuid) (search : List Char) (r : AcceptedQueryRow) : Bool :=
  r.userId = userId && decide (Mentions foldCase search r)

/-- The pages, the total and the cursors of a search are about the same rows. -/
structure SearchesFor (rows : List AcceptedQueryRow) (userId : Uuid) (limit : Nat)
    (search : List Char) : Prop where
  /-- All pages together list the rows, and the total counts them. -/
  complete : ∃ calls pages,
    followCursors (fun cursor => (listByUser fromisoformat hexdigest foldCase rows userId
      (some search) limit cursor).toOption) calls none = some pages ∧
    Lists AcceptedQueryRow.sortKey (fun r => isFound foldCase userId search r = true) rows
      pages.flatten ∧
    countByUser foldCase rows userId (some search) = pages.flatten.length
  /-- The page for any cursor consists of such rows. -/
  found : ∀ cursor items next, listByUser fromisoformat hexdigest foldCase rows userId
    (some search) limit cursor = .ok (items, next) →
      ∀ r ∈ items, r ∈ rows ∧ isFound foldCase userId search r = true
  /-- The cursors name no other search, unless the digests of the two texts agree. -/
  bound : ∀ other, strip other = other →
    searchCursorNamespace hexdigest (some other) = searchCursorNamespace hexdigest (some search) →
      other = search ∨ (other ≠ [] ∧ search ≠ [] ∧
        namespaceDigits hexdigest other = namespaceDigits hexdigest search)

end Together

section Results
variable {fromisoformat : List Char → Option ParsedDateTime}
  {hexdigest : List Char → List (Fin 16)} {foldCase : Char → Char} {limit : Nat}
  {rows : List AcceptedQueryRow}

/-- A page consists of rows that are selected. -/
theorem mem_keysetPage {α : Type} {key : α → ℕ ×ₗ String} {cursorOf : α → List Char}
    {xs items : List α} {next : Option (List Char)} {a : α}
    (h : keysetPage key cursorOf limit xs = (items, next)) (ha : a ∈ items) : a ∈ xs := by
  obtain rfl : (firstPage limit (descending key xs)).1 = items := congrArg Prod.fst h
  rw [firstPage] at ha
  split at ha
  · exact mem_descending.mp (List.mem_of_mem_take ha)
  · exact mem_descending.mp (List.mem_of_mem_take (List.mem_of_mem_take ha))

/-- Whatever the cursor, the rows of a page are the user's and match the search. -/
theorem mem_listByUser {userId : Uuid} {search cursor next : Option (List Char)}
    {items : List AcceptedQueryRow} {r : AcceptedQueryRow}
    (h : listByUser fromisoformat hexdigest foldCase rows userId search limit cursor =
      .ok (items, next)) (hr : r ∈ items) :
    r ∈ rows ∧ (r.userId = userId && searchMatches foldCase search r) = true := by
  rw [listByUser.eq_def] at h
  split at h
  · exact List.mem_filter.mp (mem_keysetPage (Except.ok.inj h) hr)
  · exact List.mem_filter.mp (mem_keysetPage (Except.ok.inj h) hr)
  · split at h
    · cases h
    · obtain ⟨hmem, hselected⟩ := List.mem_filter.mp (mem_keysetPage (Except.ok.inj h) hr)
      exact ⟨hmem, (Bool.and_eq_true_iff.mp hselected).1⟩

/-- **A search of the history is literal.**  Folding the case leaves the special characters
alone, the ids are distinct, and the timestamps are read as they are written. -/
theorem history_search_literal
    (hfold : ∀ c, ∀ special ∈ ['\\', '%', '_'], foldCase c = special ↔ c = special)
    (hlimit : 1 ≤ limit) (hids : (rows.map (·.id)).Nodup)
    (hiso : ∀ r ∈ rows, fromisoformat r.acceptedAt.isoformat = some (.aware r.acceptedAt)) :
    (∀ search text : List Char,
      likeMatches (searchPattern foldCase search) (text.map foldCase) = true ↔
        search.map foldCase <:+: text.map foldCase) ∧
    ∀ userId search, strip search = search →
      SearchesFor fromisoformat hexdigest foldCase rows userId limit search := by
  refine ⟨fun search text => likeMatches_searchPattern hfold search _, ?_⟩
  intro userId search htrim
  have hselected : (fun r : AcceptedQueryRow =>
      r.userId = userId && searchMatches foldCase (some search) r) =
      isFound foldCase userId search := by
    funext r
    rw [isFound, searchMatches_some hfold]
  refine ⟨?_, ?_, ?_⟩
  · have hcomplete : Complete AcceptedQueryRow.sortKey
        (fun r => r.userId = userId && searchMatches foldCase (some search) r) rows
        (listByUser fromisoformat hexdigest foldCase rows userId (some search) limit) :=
      listByUser_complete hlimit userId (some search) hids hiso
    rw [hselected] at hcomplete
    obtain ⟨calls, pages, hpages, hlists⟩ := hcomplete
    refine ⟨calls, pages, hpages, hlists, ?_⟩
    rw [hlists.length_eq (List.Nodup.of_map _ hids), countByUser_some hfold]
    rfl
  · intro cursor items next hpage r hr
    rw [← hselected]
    exact mem_listByUser hpage hr
  · intro other hother hsame
    exact eq_of_searchCursorNamespace hother htrim hsame

/-- Lower case leaves the special characters alone. -/
theorem toLower_special : ∀ c, ∀ special ∈ ['\\', '%', '_'],
    Char.toLower c = special ↔ c = special := by
  have hascii : ∀ n < 128, (['\\', '%', '_'].all fun special =>
      (Char.ofNat n).toLower = special ↔ Char.ofNat n = special) = true := by decide +kernel
  intro c
  by_cases hc : c.toNat < 128
  · refine of_toNat_lt (p := fun c => ∀ special ∈ ['\\', '%', '_'],
      c.toLower = special ↔ c = special) ?_ hc
    exact fun n hn => List.all_iff_forall_prop.mp (hascii n hn)
  · intro special _
    rw [toLower_of_not_ascii hc]

/-- Two rows of one instant, one of them with a percentage, and a search for the sign. -/
theorem history_search_literal_percent :
    (∀ search text : List Char,
      likeMatches (searchPattern Char.toLower search) (text.map Char.toLower) = true ↔
        search.map Char.toLower <:+: text.map Char.toLower) ∧
    ∀ userId search, strip search = search →
      SearchesFor readNewYear (fun _ => []) Char.toLower
        [⟨firstUuid, firstUuid, none, "Top 50% by Sales".toList, [], newYear⟩,
          ⟨secondUuid, firstUuid, none, "Top 50 by Sales".toList, [], newYear⟩] userId 1 search :=
  history_search_literal toLower_special (by decide) (by decide)
    (by
      intro r hr
      have htime : r.acceptedAt = newYear := by
        rcases List.mem_pair.mp hr with rfl | rfl <;> rfl
      rw [htime]
      exact if_pos (by decide))

/-- What a request searches for is trimmed and not too long. -/
theorem normalizeHistorySearch_trimmed {raw : Option (List Char)} {search : List Char}
    (h : normalizeHistorySearch raw = .ok (some search)) :
    strip search = search ∧ search ≠ [] ∧ search.length ≤ historySearchMaxCodePoints := by
  cases raw with
  | none => cases h
  | some raw =>
    rw [normalizeHistorySearch] at h
    split_ifs at h with hblank hlong
    · cases Except.ok.inj h
    · obtain rfl := Option.some.inj (Except.ok.inj h)
      exact ⟨strip_strip raw, hblank, Nat.le_of_not_lt hlong⟩

/-- **The first page of a request comes with the number of rows that its text is found in.**  A
blank text is found in all rows of the user. -/
theorem listHistory_total
    (hfold : ∀ c, ∀ special ∈ ['\\', '%', '_'], foldCase c = special ↔ c = special)
    {userId : Uuid} {search : Option (List Char)} {page : HistoryPage}
    (h : listHistory fromisoformat hexdigest foldCase rows userId search limit none = .ok page) :
    page.total = some (rows.countP (isFound foldCase userId (strip (search.getD [])))) := by
  have hempty : countByUser foldCase rows userId none =
      rows.countP (isFound foldCase userId []) := by
    refine List.countP_congr fun r _ => ?_
    simp [isFound, Mentions]
  have hcount : ∀ normalized, normalizeHistorySearch search = .ok normalized →
      countByUser foldCase rows userId normalized =
        rows.countP (isFound foldCase userId (strip (search.getD []))) := by
    intro normalized hnormalized
    cases search with
    | none =>
      obtain rfl := Except.ok.inj hnormalized
      exact hempty
    | some raw =>
      rw [normalizeHistorySearch] at hnormalized
      rw [Option.getD_some]
      split_ifs at hnormalized with hblank
      · obtain rfl := Except.ok.inj hnormalized
        rw [hblank, hempty]
      · obtain rfl := Except.ok.inj hnormalized
        exact countByUser_some hfold rows userId (strip raw)
  rw [listHistory] at h
  cases hnormalized : normalizeHistorySearch search with
  | error e => rw [hnormalized] at h; cases h
  | ok normalized =>
    simp only [hnormalized] at h
    split at h
    · cases h
    · obtain rfl := Except.ok.inj h
      simp only [if_true, hcount normalized hnormalized]

end Results

end QueryCraft
