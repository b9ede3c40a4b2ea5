import QueryCraft.Condense
import QueryCraft.SqlText

/-! # The text that detection rules see

`normalize_detection_text` replaces block comments by a space, brings the text into the
compatibility form NFKC, drops combining marks, format characters and the tatweel, and joins the
words with single spaces.  The steps come in this order, so that a comment that only appears
with NFKC, or once a mark is dropped, stays in the text; and a mark that is dropped may bring
two characters together that NFKC composes the next time.

`detection_text_canonical_iff` says for which texts neither happens.  Normalization and the
character properties are those of Unicode, of which `Standard` states what is used.
-/
namespace QueryCraft

/-! ## Block comments -/

/-- What follows the first `*/`. -/
def afterCommentEnd : List Char → Option (List Char)
  | '*' :: '/' :: rest => some rest
  | _ :: rest => afterCommentEnd rest
  | [] => none

theorem afterCommentEnd_eq {cs rest : List Char} (h : afterCommentEnd cs = some rest) :
    ∃ body, cs = body ++ '*' :: '/' :: rest := by
  induction cs using afterCommentEnd.induct with
  | case1 rest' =>
    rw [afterCommentEnd] at h
    exact ⟨[], by rw [Option.some.inj h]; rfl⟩
  | case2 c cs hnot ih =>
    rw [afterCommentEnd] at h
    · obtain ⟨body, rfl⟩ := ih h
      exact ⟨c :: body, rfl⟩
    · exact hnot
  | case3 => cases h

theorem length_afterCommentEnd {cs rest : List Char} (h : afterCommentEnd cs = some rest) :
    rest.length < cs.length := by
  obtain ⟨body, rfl⟩ := afterCommentEnd_eq h
  simp only [List.length_append, List.length_cons]
  omega

/-- `_replace_block_comments`. -/
def replaceBlockComments : List Char → List Char
  | '/' :: '*' :: body =>
    match _h : afterCommentEnd body with
    | some rest => ' ' :: replaceBlockComments rest
    | none => '/' :: '*' :: body
  | c :: rest => c :: replaceBlockComments rest
  | [] => []
termination_by cs => cs.length
decreasing_by
  · have := length_afterCommentEnd _h
    simp only [List.length_cons]
    omega
  · simp

/-- The text has a complete block comment. -/
def HasBlockComment (cs : List Char) : Prop :=
  ∃ a b e, cs = a ++ '/' :: '*' :: (b ++ '*' :: '/' :: e)

/-- Without a complete comment nothing is replaced. -/
theorem replaceBlockComments_eq_self {cs : List Char} (h : ¬ HasBlockComment cs) :
    replaceBlockComments cs = cs := by
  induction cs using replaceBlockComments.induct with
  | case1 body rest hend ih =>
    obtain ⟨b, rfl⟩ := afterCommentEnd_eq hend
    exact absurd ⟨[], b, rest, rfl⟩ h
  | case2 body hend =>
    rw [replaceBlockComments]
    split
    · next rest hsome =>
      rw [hend] at hsome
      cases hsome
    · rfl
  | case3 c rest hnot ih =>
    have hrest : ¬ HasBlockComment rest := by
      rintro ⟨a, b, e, rfl⟩
      exact h ⟨c :: a, b, e, rfl⟩
    rw [replaceBlockComments, ih hrest]
    exact hnot
  | case4 => rw [replaceBlockComments]

/-! ## Normalization -/

/-- What `unicodedata` provides: the form NFKC, whether a character has a combining class other
than zero, and whether its category is `Cf`. -/
structure UnicodeData where
  nfkc : List Char → List Char
  combining : Char → Bool
  isFormat : Char → Bool

/-- `_ZERO_WIDTH_SEPARATORS`. -/
def isZeroWidth (c : Char) : Bool :=
  ['\u200b', '\u200c', '\u200d', '\u2060', '\ufeff'].contains c

/-- `_ARABIC_TATWEEL`. -/
def arabicTatweel : Char := '\u0640'

/-- `" ".join(text.split())`. -/
def joinWords (cs : List Char) : List Char :=
  condense (fun c => if isSpace c then .space else .keep) .start cs

namespace UnicodeData
variable (ud : UnicodeData)

/-- The character is left out. -/
def isDropped (c : Char) : Bool := c == arabicTatweel || ud.combining c || ud.isFormat c

/-- `normalize_detection_text`. -/
def normalizeDetectionText (text : List Char) : List Char :=
  joinWords ((ud.nfkc (replaceBlockComments text)).flatMap fun c =>
    if isZeroWidth c then [' '] else if ud.isDropped c then [] else [c])

/-- What becomes of a character once the text is in the form NFKC. -/
def kind (c : Char) : Kind :=
  if isZeroWidth c then .space
  else if ud.isDropped c then .drop
  else if isSpace c then .space
  else .keep

/-- The text has a block comment, with characters that are dropped inside the delimiters or
not. -/
def HasSpelledComment (u : List Char) : Prop :=
  ∃ a d b d' e, u = a ++ '/' :: (d ++ '*' :: (b ++ '*' :: (d' ++ '/' :: e))) ∧
    (∀ c ∈ d, ud.kind c = .drop) ∧ ∀ c ∈ d', ud.kind c = .drop

/-- No two characters that are kept, with only dropped ones between them, are composed. -/
def Settled (u : List Char) : Prop :=
  ∀ a x d y e, u = a ++ x :: (d ++ y :: e) → ud.kind x = .keep → ud.kind y = .keep →
    (∀ c ∈ d, ud.kind c = .drop) → ud.nfkc [x, y] = [x, y]

/-- What is used of Unicode.  Normal forms are idempotent and closed under substrings.  Among
characters of combining class zero that are in normal form, NFKC composes neighbours: it leaves
a text alone if it leaves every pair of neighbours alone, and otherwise makes it shorter.  A
space is composed with none of them.  ASCII characters neither combine nor format. -/
structure Standard : Prop where
  idempotent : ∀ x, ud.nfkc (ud.nfkc x) = ud.nfkc x
  substring : ∀ {x y}, y <:+: x → ud.nfkc x = x → ud.nfkc y = y
  pairs : ∀ {x}, (∀ c ∈ x, ud.combining c = false ∧ ud.nfkc [c] = [c]) →
    (∀ {a b}, [a, b] <:+: x → ud.nfkc [a, b] = [a, b]) → ud.nfkc x = x
  shortens : ∀ {x}, (∀ c ∈ x, ud.combining c = false ∧ ud.nfkc [c] = [c]) →
    ud.nfkc x ≠ x → (ud.nfkc x).length < x.length
  space : ∀ {c}, ud.combining c = false → ud.nfkc [c] = [c] →
    ud.nfkc [c, ' '] = [c, ' '] ∧ ud.nfkc [' ', c] = [' ', c]
  space_self : ud.nfkc [' '] = [' ']
  ascii : ∀ {c : Char}, c.toNat < 128 → ud.combining c = false ∧ ud.isFormat c = false

variable {ud}

/-- Dropping, replacing and joining words is one pass. -/
theorem normalizeDetectionText_eq (text : List Char) : ud.normalizeDetectionText text =
    condense ud.kind .start (ud.nfkc (replaceBlockComments text)) := by
  rw [normalizeDetectionText, joinWords]
  generalize ud.nfkc (replaceBlockComments text) = cs
  generalize Place.start = place
  induction cs generalizing place with
  | nil => rfl
  | cons c cs ih =>
    rw [List.flatMap_cons]
    by_cases hzero : isZeroWidth c = true
    · have hkind : ud.kind c = .space := by rw [kind, if_pos hzero]
      rw [if_pos hzero, condense_space hkind, List.singleton_append,
        condense_space (if_pos (by decide)), ih]
    · by_cases hdrop : ud.isDropped c = true
      · have hkind : ud.kind c = .drop := by rw [kind, if_neg hzero, if_pos hdrop]
        rw [if_neg hzero, if_pos hdrop, condense_drop hkind, List.nil_append, ih]
      · rw [if_neg hzero, if_neg hdrop, List.singleton_append]
        by_cases hspace : isSpace c = true
        · have hkind : ud.kind c = .space := by
            rw [kind, if_neg hzero, if_neg hdrop, if_pos hspace]
          rw [condense_space hkind, condense_space (if_pos hspace), ih]
        · have hkind : ud.kind c = .keep := by
            rw [kind, if_neg hzero, if_neg hdrop, if_neg hspace]
          rw [condense_keep hkind, condense_keep (if_neg hspace), ih]

section
variable (h : ud.Standard)
include h

theorem Standard.kind_ascii {c : Char} (hc : c.toNat < 128) :
    ud.kind c = if isSpace c then .space else .keep := by
  obtain ⟨hcombining, hformat⟩ := h.ascii hc
  have hzero : isZeroWidth c = false := by
    rw [isZeroWidth, List.contains_eq_mem, decide_eq_false_iff_not]
    simp only [List.mem_cons, List.not_mem_nil, or_false]
    rintro (rfl | rfl | rfl | rfl | rfl) <;> exact absurd hc (by decide)
  have htatweel : (c == arabicTatweel) = false := by
    rw [beq_eq_false_iff_ne]
    rintro rfl
    exact absurd hc (by decide)
  rw [kind, if_neg (by rw [hzero]; decide), if_neg]
  simp [isDropped, htatweel, hcombining, hformat]

/-- The comments of the condensed text are those of the text that are spelled somehow. -/
theorem Standard.hasBlockComment_iff (u : List Char) :
    HasBlockComment (condense ud.kind .start u) ↔ ud.HasSpelledComment u := by
  have hslash : ud.kind '/' = .keep := h.kind_ascii (by decide)
  have hstar : ud.kind '*' = .keep := h.kind_ascii (by decide)
  constructor
  · rintro ⟨a', b', e', heq⟩
    obtain ⟨-, a, r, rfl, hr⟩ := condense_eq_append (by decide) heq
    obtain ⟨-, d, r₂, rfl, hd, hr₂⟩ := condense_eq_cons (by decide) hr.symm
    obtain ⟨-, b, r₃, rfl, hr₃⟩ := condense_eq_append (by decide) hr₂.symm
    obtain ⟨-, d', e, rfl, hd', -⟩ := condense_eq_cons (by decide) hr₃.symm
    exact ⟨a, d, b, d', e, rfl, hd, hd'⟩
  · rintro ⟨a, d, b, d', e, rfl, hd, hd'⟩
    obtain ⟨a', ha'⟩ := condense_append hslash a
      (d ++ '*' :: (b ++ '*' :: (d' ++ '/' :: e))) .start
    obtain ⟨b', hb'⟩ := condense_append hstar b (d' ++ '/' :: e) .word
    rw [condense_dropped hstar hd, hb', condense_dropped hslash hd'] at ha'
    exact ⟨a', b', _, ha'⟩

/-- Every character that is left is in normal form. -/
theorem Standard.mem_condense {u : List Char} (hu : ud.nfkc u = u) :
    ∀ c ∈ condense ud.kind .start u, ud.combining c = false ∧ ud.nfkc [c] = [c] := by
  intro c hc
  rcases QueryCraft.mem_condense hc with rfl | ⟨hkeep, hmem⟩
  · exact ⟨(h.ascii (by decide)).1, h.space_self⟩
  · obtain ⟨a, b, rfl⟩ := List.append_of_mem hmem
    refine ⟨?_, h.substring ⟨a, b, by simp⟩ hu⟩
    by_contra hcombining
    rw [Bool.not_eq_false] at hcombining
    have hdrop : ud.isDropped c = true := by simp [isDropped, hcombining]
    unfold kind at hkeep
    split at hkeep
    · cases hkeep
    · cases hkeep

/-- The text that is left is in normal form exactly if the text is settled. -/
theorem Standard.nfkc_condense_iff {u : List Char} (hu : ud.nfkc u = u) :
    ud.nfkc (condense ud.kind .start u) = condense ud.kind .start u ↔ ud.Settled u := by
  constructor
  · intro hout a x d y e heq hx hy hd
    refine h.substring ?_ hout
    obtain ⟨a', ha'⟩ := condense_append hx a (d ++ y :: e) .start
    rw [condense_dropped hy hd, ← heq] at ha'
    exact ⟨a', condense ud.kind .word e, by rw [ha']; simp⟩
  · intro hsettled
    refine h.pairs (h.mem_condense hu) ?_
    rintro x y ⟨a', e', heq⟩
    have hmem : ∀ c ∈ [x, y], ud.combining c = false ∧ ud.nfkc [c] = [c] := by
      intro c hc
      refine h.mem_condense hu c ?_
      rw [← heq]
      simp only [List.mem_append]
      exact .inl (.inr hc)
    obtain ⟨hx, hy⟩ := List.forall_mem_cons.mp hmem
    rw [List.forall_mem_singleton] at hy
    by_cases hxspace : x = ' '
    · rw [hxspace]
      exact (h.space hy.1 hy.2).2
    · by_cases hyspace : y = ' '
      · rw [hyspace]
        exact (h.space hx.1 hx.2).1
      · have heq' : condense ud.kind .start u = a' ++ x :: y :: e' := by
          rw [← heq]
          simp
        obtain ⟨hxkeep, a, r, rfl, hr⟩ := condense_eq_append hxspace heq'
        obtain ⟨hykeep, d, e, rfl, hd, -⟩ := condense_eq_cons hyspace hr.symm
        exact hsettled a x d y e rfl hxkeep hykeep hd

end

/-- **When the detection text is canonical.** -/
theorem detection_text_canonical_iff (h : ud.Standard) (text : List Char) :
    (ud.normalizeDetectionText (ud.normalizeDetectionText text) =
        ud.normalizeDetectionText text ∧
      ¬ HasBlockComment (ud.normalizeDetectionText text)) ↔
      ¬ ud.HasSpelledComment (ud.nfkc (replaceBlockComments text)) ∧
        ud.Settled (ud.nfkc (replaceBlockComments text)) := by
  have hspace : ud.kind ' ' = .space := h.kind_ascii (by decide)
  have hu := h.idempotent (replaceBlockComments text)
  rw [normalizeDetectionText_eq text]
  generalize ud.nfkc (replaceBlockComments text) = u at hu
  rw [h.hasBlockComment_iff, ← h.nfkc_condense_iff hu, and_comm]
  refine and_congr_right fun hnone => ?_
  -- without a comment the second pass starts with NFKC
  have hagain : ud.normalizeDetectionText (condense ud.kind .start u) =
      condense ud.kind .start (ud.nfkc (condense ud.kind .start u)) := by
    rw [normalizeDetectionText_eq, replaceBlockComments_eq_self]
    rwa [h.hasBlockComment_iff]
  rw [hagain]
  constructor
  · intro hsame
    by_contra hchanged
    have hshort := h.shortens (h.mem_condense hu) hchanged
    have hlength := @length_condense_le ud.kind (ud.nfkc (condense ud.kind .start u)) .start
    rw [hsame] at hlength
    simp only [reduceCtorEq, if_false] at hlength
    omega
  · intro hsame
    rw [hsame, condense_condense hspace]

/-- NFKC of texts of ASCII characters and the full-width solidus and asterisk. -/
def fullWidth : UnicodeData where
  nfkc := List.map fun c => if c = '\uff0f' then '/' else if c = '\uff0a' then '*' else c
  combining _ := false
  isFormat _ := false

theorem fullWidth_nfkc_eq_self {x : List Char} (hx : ∀ c ∈ x, fullWidth.nfkc [c] = [c]) :
    fullWidth.nfkc x = x := by
  simp only [fullWidth, List.map_cons, List.map_nil, List.cons.injEq, and_true] at hx ⊢
  conv_rhs => rw [← List.map_id x]
  exact List.map_congr_left hx

theorem standard_fullWidth : fullWidth.Standard where
  idempotent x := by
    simp only [fullWidth, List.map_map]
    refine List.map_congr_left fun c _ => ?_
    simp only [Function.comp]
    split_ifs <;> simp_all
  substring := by
    rintro x y ⟨a, b, rfl⟩ hx
    simp only [fullWidth, List.map_append, List.append_assoc] at hx ⊢
    obtain ⟨-, hrest⟩ := List.append_inj hx (by simp)
    exact (List.append_inj hrest (by simp)).1
  pairs := by
    intro x hx _
    exact fullWidth_nfkc_eq_self fun c hc => (hx c hc).2
  shortens := by
    intro x hx hne
    exact absurd (fullWidth_nfkc_eq_self fun c hc => (hx c hc).2) hne
  space := by
    intro c _ hc
    simp only [fullWidth, List.map_cons, List.map_nil] at hc ⊢
    rw [(List.cons.inj hc).1]
    exact ⟨rfl, rfl⟩
  space_self := rfl
  ascii _ := ⟨rfl, rfl⟩

/-- A comment with full-width delimiters is still there afterwards. -/
theorem fullWidth_comment_left : fullWidth.Standard ∧ HasBlockComment
    (fullWidth.normalizeDetectionText ['\uff0f', '\uff0a', 'x', '\uff0a', '\uff0f']) := by
  refine ⟨standard_fullWidth, [], ['x'], [], ?_⟩
  decide +kernel

theorem detection_text_canonical_comment :
    fullWidth.normalizeDetectionText (fullWidth.normalizeDetectionText "a/* */\nb".toList) =
        fullWidth.normalizeDetectionText "a/* */\nb".toList ∧
      ¬ HasBlockComment (fullWidth.normalizeDetectionText "a/* */\nb".toList) := by
  have hnfkc : fullWidth.nfkc (replaceBlockComments "a/* */\nb".toList) =
      ['a', ' ', '\n', 'b'] := by decide +kernel
  refine (detection_text_canonical_iff standard_fullWidth _).mpr ⟨?_, ?_⟩
  · rintro ⟨a, d, b, d', e, heq, -⟩
    rw [hnfkc] at heq
    have hmem : '/' ∈ ['a', ' ', '\n', 'b'] := by
      rw [heq]
      simp
    exact absurd hmem (by decide)
  · intro a x d y e heq _ _ _
    rw [hnfkc] at heq
    have hplain : ∀ c ∈ ['a', ' ', '\n', 'b'], fullWidth.nfkc [c] = [c] := by
      simp [fullWidth]
    have hx := hplain x (by rw [heq]; simp)
    have hy := hplain y (by rw [heq]; simp)
    simp only [fullWidth, List.map_cons, List.map_nil, List.cons.injEq, and_true] at hx hy ⊢
    exact ⟨hx, hy⟩

end UnicodeData

end QueryCraft
