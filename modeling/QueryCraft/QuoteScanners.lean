import Mathlib.Data.List.TakeWhile
import QueryCraft.FilterValidation

/-! # Three scanners of quoted text

`_contains_comment_outside_string`, `_replace_outside_strings` and
`_replace_outside_strings_regex` each find the quoted spans of a SQL text in a way of their own:
the first flips two flags and steps over two single quotes at once, in a literal or not; the
second walks through a span when it meets its opening quote, and through the rest character by
character; the third takes the text between spans as a whole.

All three are the automaton that remembers which quote is open (`nextQuote`).  `scanners_agree`
says that every character but the quotes themselves is inside for all of them or for none, and
what follows for the text that they copy, replace and search.
-/
namespace QueryCraft

/-! ## What each scanner takes for quoted -/

/-- A character that is not a quote, inside a span or not. -/
def mark (inside : Bool) (c : Char) : Option Bool := if isQuote c then none else some inside

/-- The characters as `_contains_comment_outside_string` goes through them. -/
def commentMarks (inSingle inDouble : Bool) : List Char → List (Option Bool)
  | [] => []
  | c :: rest =>
    if c = '\'' ∧ inDouble = false then
      match rest with
      | '\'' :: rest' =>
        mark inSingle c :: mark inSingle '\'' :: commentMarks inSingle inDouble rest'
      | rest => mark inSingle c :: commentMarks (!inSingle) inDouble rest
    else if c = '"' ∧ inSingle = false then
      mark inDouble c :: commentMarks inSingle (!inDouble) rest
    else mark (inSingle || inDouble) c :: commentMarks inSingle inDouble rest

/-- The characters as `_replace_outside_strings` goes through them. -/
def replaceMarks : List Char → List (Option Bool)
  | [] => []
  | c :: rest =>
    if isQuote c then
      mark true c :: (quotedSpan c rest).1.map (mark true) ++ replaceMarks (quotedSpan c rest).2
    else mark false c :: replaceMarks rest
termination_by cs => cs.length
decreasing_by
  · have := length_quotedSpan_le c rest
    simp only [List.length_cons]
    omega
  · simp

theorem length_dropWhile_quote_lt (c : Char) (rest : List Char) :
    (rest.dropWhile (!isQuote ·)).length < (c :: rest).length := by
  have := (List.dropWhile_sublist (l := rest) fun x => !isQuote x).length_le
  simp only [List.length_cons]
  omega

/-- The characters as `_replace_outside_strings_regex` goes through them. -/
def regexMarks : List Char → List (Option Bool)
  | [] => []
  | c :: rest =>
    if isQuote c then
      mark true c :: (quotedSpan c rest).1.map (mark true) ++ regexMarks (quotedSpan c rest).2
    else
      (c :: rest.takeWhile (!isQuote ·)).map (mark false) ++
        regexMarks (rest.dropWhile (!isQuote ·))
termination_by cs => cs.length
decreasing_by
  · have := length_quotedSpan_le c rest
    simp only [List.length_cons]
    omega
  · exact length_dropWhile_quote_lt c rest

/-! ## The automaton -/

/-- The characters from a place with the given open quote on. -/
def quoteMarks : Option Char → List Char → List (Option Bool)
  | _, [] => []
  | quote, c :: rest => mark quote.isSome c :: quoteMarks (nextQuote quote c) rest

/-- The open quote of two flags. -/
def openQuote (inSingle inDouble : Bool) : Option Char :=
  if inSingle then some '\'' else if inDouble then some '"' else none

theorem mark_quote {c : Char} (hc : isQuote c = true) (inside : Bool) : mark inside c = none :=
  if_pos hc

/-- A character that neither flag is turned by leaves the automaton where it is. -/
theorem nextQuote_openQuote {inSingle inDouble : Bool} {c : Char}
    (hsingle : ¬ (c = '\'' ∧ inDouble = false)) (hdouble : ¬ (c = '"' ∧ inSingle = false))
    (h : (inSingle && inDouble) = false) :
    nextQuote (openQuote inSingle inDouble) c = openQuote inSingle inDouble := by
  cases inSingle with
  | true =>
    obtain rfl : inDouble = false := by simpa using h
    have hc : c ≠ '\'' := by simpa using hsingle
    simp [openQuote, nextQuote, hc]
  | false =>
    have hc : c ≠ '"' := by simpa using hdouble
    cases inDouble with
    | true => simp [openQuote, nextQuote, hc]
    | false =>
      have hc' : c ≠ '\'' := by simpa using hsingle
      simp [openQuote, nextQuote, isQuote, hc, hc']

theorem isSome_openQuote (inSingle inDouble : Bool) :
    (openQuote inSingle inDouble).isSome = (inSingle || inDouble) := by
  cases inSingle <;> cases inDouble <;> rfl

/-- The recursion of the scan for comments: a doubled quote is taken together, a quote turns its
flag unless the other one is set, and all else is passed over. -/
theorem scan_induction {motive : Bool → Bool → List Char → Prop}
    (nil : ∀ inSingle inDouble, motive inSingle inDouble [])
    (doubled : ∀ inSingle rest, motive inSingle false rest →
      motive inSingle false ('\'' :: '\'' :: rest))
    (single : ∀ inSingle rest, (∀ rest', rest = '\'' :: rest' → False) →
      motive (!inSingle) false rest → motive inSingle false ('\'' :: rest))
    (double : ∀ inDouble rest, motive false (!inDouble) rest → motive false inDouble ('"' :: rest))
    (other : ∀ inSingle inDouble c rest, ¬ (c = '\'' ∧ inDouble = false) →
      ¬ (c = '"' ∧ inSingle = false) → motive inSingle inDouble rest →
      motive inSingle inDouble (c :: rest))
    (inSingle inDouble : Bool) (cs : List Char) : motive inSingle inDouble cs := by
  induction hn : cs.length using Nat.strong_induction_on generalizing inSingle inDouble cs with
  | _ n ih =>
    cases cs with
    | nil => exact nil inSingle inDouble
    | cons c rest =>
      have hrest : rest.length < n := by rw [← hn, List.length_cons]; omega
      by_cases hsingle : c = '\'' ∧ inDouble = false
      · obtain ⟨rfl, rfl⟩ := hsingle
        by_cases hdoubled : ∃ rest', rest = '\'' :: rest'
        · obtain ⟨rest', rfl⟩ := hdoubled
          rw [List.length_cons] at hrest
          exact doubled inSingle rest' (ih rest'.length (by omega) _ _ rest' rfl)
        · exact single inSingle rest (fun rest' hrest' => hdoubled ⟨rest', hrest'⟩)
            (ih rest.length hrest _ _ rest rfl)
      · by_cases hdouble : c = '"' ∧ inSingle = false
        · obtain ⟨rfl, rfl⟩ := hdouble
          exact double inDouble rest (ih rest.length hrest _ _ rest rfl)
        · exact other inSingle inDouble c rest hsingle hdouble (ih rest.length hrest _ _ rest rfl)

theorem commentMarks_eq (inSingle inDouble : Bool) (h : (inSingle && inDouble) = false)
    (cs : List Char) :
    commentMarks inSingle inDouble cs = quoteMarks (openQuote inSingle inDouble) cs := by
  induction inSingle, inDouble, cs using scan_induction with
  | nil => rfl
  | doubled inSingle rest ih =>
    -- two quotes: a span closes and the next one opens, or the other way round
    rw [commentMarks, if_pos ⟨rfl, rfl⟩, ih h]
    cases inSingle <;> rfl
  | single inSingle rest hne ih =>
    rw [commentMarks, if_pos ⟨rfl, rfl⟩]
    · rw [ih (by simp)]
      cases inSingle <;> rfl
    · exact hne
  | double inDouble rest ih =>
    unfold commentMarks
    rw [if_neg (by simp), if_pos ⟨rfl, rfl⟩, ih (by simp)]
    cases inDouble <;> rfl
  | other inSingle inDouble c rest hsingle hdouble ih =>
    unfold commentMarks
    rw [if_neg hsingle, if_neg hdouble, ih h, quoteMarks, isSome_openQuote,
      nextQuote_openQuote hsingle hdouble h]

/-- The rest of a span is inside up to its closing quote. -/
theorem quotedSpan_marks {q : Char} (hq : isQuote q = true) (cs : List Char) :
    (quotedSpan q cs).1.map (mark true) ++ quoteMarks none (quotedSpan q cs).2 =
      quoteMarks (some q) cs := by
  fun_induction quotedSpan q cs with
  | case1 => rfl
  | case2 c => rfl
  | case3 rest ih =>
    -- a doubled quote
    have hopen : nextQuote none q = some q := if_pos hq
    have hclose : nextQuote (some q) q = none := if_pos rfl
    rw [quoteMarks, quoteMarks, hclose, hopen, ← ih, mark_quote hq, mark_quote hq]
    simp [mark_quote hq]
  | case4 d rest hd =>
    have hclose : quoteMarks (some q) (q :: d :: rest) = none :: quoteMarks none (d :: rest) := by
      rw [quoteMarks, nextQuote, if_pos rfl, mark_quote hq]
    rw [hclose]
    simp [mark_quote hq]
  | case5 c d rest hc ih =>
    have hstay : nextQuote (some q) c = some q := if_neg hc
    rw [quoteMarks, hstay, ← ih]
    rfl

/-- A stretch without quotes stays outside. -/
theorem quoteMarks_append {run : List Char} (hrun : ∀ c ∈ run, isQuote c = false)
    (rest : List Char) :
    quoteMarks none (run ++ rest) = run.map (mark false) ++ quoteMarks none rest := by
  induction run with
  | nil => rfl
  | cons c run ih =>
    have hc : isQuote c = false := hrun c List.mem_cons_self
    have hstay : nextQuote none c = none := by simp [nextQuote, hc]
    rw [List.cons_append, quoteMarks, hstay, ih fun x hx => hrun x (List.mem_cons_of_mem _ hx)]
    rfl

theorem replaceMarks_eq (cs : List Char) : replaceMarks cs = quoteMarks none cs := by
  fun_induction replaceMarks cs with
  | case1 => rfl
  | case2 c rest hc ih =>
    have hopen : nextQuote none c = some c := if_pos hc
    rw [quoteMarks, hopen, ← quotedSpan_marks hc, ih, mark_quote hc, mark_quote hc,
      List.cons_append]
  | case3 c rest hc ih =>
    have hstay : nextQuote none c = none := if_neg hc
    rw [quoteMarks, hstay, ih]
    rfl

/-- What stands before the next quote. -/
theorem run_of_not_quote {c : Char} (hc : ¬ isQuote c = true) (rest : List Char) :
    ∀ x ∈ c :: rest.takeWhile (!isQuote ·), isQuote x = false := by
  intro x hx
  rcases List.mem_cons.mp hx with rfl | hx
  · simpa using hc
  · simpa using List.mem_takeWhile_imp hx

theorem regexMarks_eq (cs : List Char) : regexMarks cs = quoteMarks none cs := by
  fun_induction regexMarks cs with
  | case1 => rfl
  | case2 c rest hc ih =>
    have hopen : nextQuote none c = some c := if_pos hc
    rw [quoteMarks, hopen, ← quotedSpan_marks hc, ih, mark_quote hc, mark_quote hc,
      List.cons_append]
  | case3 c rest hc ih =>
    rw [ih, ← quoteMarks_append (run_of_not_quote hc rest), List.cons_append,
      List.takeWhile_append_dropWhile]

/-! ## Spans -/

/-- The quoted spans of a text and the stretches of code between them, in order. -/
def spans : List Char → List (Bool × List Char)
  | [] => []
  | c :: rest =>
    if isQuote c then (true, c :: (quotedSpan c rest).1) :: spans (quotedSpan c rest).2
    else
      (false, c :: rest.takeWhile (!isQuote ·)) :: spans (rest.dropWhile (!isQuote ·))
termination_by cs => cs.length
decreasing_by
  · have := length_quotedSpan_le c rest
    simp only [List.length_cons]
    omega
  · exact length_dropWhile_quote_lt c rest

/-- The spans make up the text. -/
theorem flatMap_spans (cs : List Char) : (spans cs).flatMap (·.2) = cs := by
  fun_induction spans cs with
  | case1 => rfl
  | case2 c rest hc ih => rw [List.flatMap_cons, ih, List.cons_append, quotedSpan_append]
  | case3 c rest hc ih =>
    rw [List.flatMap_cons, ih, List.cons_append, List.takeWhile_append_dropWhile]

theorem quoteMarks_spans (cs : List Char) :
    quoteMarks none cs = (spans cs).flatMap fun span => span.2.map (mark span.1) := by
  rw [← regexMarks_eq]
  fun_induction spans cs with
  | case1 => rw [regexMarks]; rfl
  | case2 c rest hc ih =>
    rw [regexMarks, if_pos hc, ih, List.flatMap_cons, List.map_cons, List.cons_append]
  | case3 c rest hc ih => rw [regexMarks, if_neg hc, ih, List.flatMap_cons]

/-! ## What the replacers do -/

/-- `str.replace`, for a needle that is not empty. -/
def replaceText (needle replacement : List Char) : List Char → List Char
  | [] => []
  | c :: rest =>
    if needle ≠ [] ∧ needle.isPrefixOf (c :: rest) then
      replacement ++ replaceText needle replacement (rest.drop (needle.length - 1))
    else c :: replaceText needle replacement rest
termination_by cs => cs.length
decreasing_by
  · simp only [List.length_drop, List.length_cons]
    omega
  · simp

/-- A rewriter leaves quoted spans as they are and works on each stretch of code alone. -/
def RewritesCode (rewrite code : List Char → List Char) : Prop :=
  ∀ cs, rewrite cs = (spans cs).flatMap fun span => if span.1 then span.2 else code span.2

theorem regex_rewritesCode (sub : List Char → List Char) :
    RewritesCode (replaceOutsideStringsRegex sub) sub := by
  intro cs
  fun_induction spans cs with
  | case1 => rw [replaceOutsideStringsRegex]; rfl
  | case2 c rest hc ih => rw [replaceOutsideStringsRegex, if_pos hc, ih]; rfl
  | case3 c rest hc ih => rw [replaceOutsideStringsRegex, if_neg hc, ih]; rfl

/-- A needle without quotes does not reach beyond the next quote. -/
theorem isPrefixOf_append {needle run rest : List Char} (hneedle : ∀ c ∈ needle, isQuote c = false)
    (hrest : ∀ c ∈ rest.head?, isQuote c = true) :
    needle.isPrefixOf (run ++ rest) = needle.isPrefixOf run := by
  induction needle generalizing run with
  | nil => simp
  | cons n needle ih =>
    cases run with
    | nil =>
      cases rest with
      | nil => rfl
      | cons c rest =>
        have hc : isQuote c = true := hrest c rfl
        have hn : isQuote n = false := hneedle n List.mem_cons_self
        have hne : n ≠ c := by
          rintro rfl
          rw [hc] at hn
          cases hn
        simp [List.isPrefixOf, hne]
    | cons c run =>
      simp only [List.cons_append, List.isPrefixOf]
      rw [ih fun x hx => hneedle x (List.mem_cons_of_mem _ hx)]

theorem replaceOutsideStrings_run {needle replacement run rest : List Char}
    (hneedle : ∀ c ∈ needle, isQuote c = false) (hrun : ∀ c ∈ run, isQuote c = false)
    (hrest : ∀ c ∈ rest.head?, isQuote c = true) :
    replaceOutsideStrings needle replacement (run ++ rest) =
      replaceText needle replacement run ++ replaceOutsideStrings needle replacement rest := by
  fun_induction replaceText needle replacement run with
  | case1 => rfl
  | case2 c run hmatch ih =>
    have hc : ¬ isQuote c = true := by simp [hrun c List.mem_cons_self]
    have hprefix : needle.isPrefixOf (c :: (run ++ rest)) = true := by
      rw [← List.cons_append, isPrefixOf_append hneedle hrest]
      exact hmatch.2
    have hlength : needle.length - 1 ≤ run.length := by
      have := (List.isPrefixOf_iff_prefix.mp hmatch.2).length_le
      rw [List.length_cons] at this
      omega
    rw [List.cons_append, replaceOutsideStrings, if_neg hc, if_pos ⟨hmatch.1, hprefix⟩,
      List.drop_append_of_le_length hlength,
      ih fun x hx => hrun x (List.mem_cons_of_mem _ (List.mem_of_mem_drop hx)),
      List.append_assoc]
  | case3 c run hmatch ih =>
    have hc : ¬ isQuote c = true := by simp [hrun c List.mem_cons_self]
    have hprefix : ¬ (needle ≠ [] ∧ needle.isPrefixOf (c :: (run ++ rest)) = true) := by
      rw [← List.cons_append, isPrefixOf_append hneedle hrest]
      exact hmatch
    rw [List.cons_append, replaceOutsideStrings, if_neg hc, if_neg hprefix,
      ih fun x hx => hrun x (List.mem_cons_of_mem _ hx), List.cons_append]

theorem head_dropWhile_quote (cs : List Char) :
    ∀ c ∈ (cs.dropWhile (!isQuote ·)).head?, isQuote c = true := by
  intro c hc
  cases h : cs.dropWhile (!isQuote ·) with
  | nil =>
    rw [h] at hc
    cases hc
  | cons d rest =>
    rw [h] at hc
    cases hc
    have hne : cs.dropWhile (!isQuote ·) ≠ [] := by rw [h]; exact List.cons_ne_nil _ _
    have hhead := List.head_dropWhile_not (fun x => !isQuote x) hne
    simpa [h] using hhead

theorem replace_rewritesCode {needle : List Char} (hneedle : ∀ c ∈ needle, isQuote c = false)
    (replacement : List Char) :
    RewritesCode (replaceOutsideStrings needle replacement) (replaceText needle replacement) := by
  intro cs
  fun_induction spans cs with
  | case1 => rw [replaceOutsideStrings]; rfl
  | case2 c rest hc ih => rw [replaceOutsideStrings, if_pos hc, ih]; rfl
  | case3 c rest hc ih =>
    have hsplit : c :: rest = c :: rest.takeWhile (!isQuote ·) ++ rest.dropWhile (!isQuote ·) := by
      rw [List.cons_append, List.takeWhile_append_dropWhile]
    conv_lhs => rw [hsplit]
    rw [replaceOutsideStrings_run hneedle (run_of_not_quote hc rest) (head_dropWhile_quote rest),
      ih]
    rfl

/-- The substitution of the pattern `\?` by a text. -/
def subMark (replacement : List Char) (cs : List Char) : List Char :=
  cs.flatMap fun c => if c = '?' then replacement else [c]

theorem replaceText_mark (replacement cs : List Char) :
    replaceText ['?'] replacement cs = subMark replacement cs := by
  induction cs with
  | nil => rw [replaceText]; rfl
  | cons c cs ih =>
    rw [replaceText, subMark, List.flatMap_cons]
    by_cases hc : c = '?'
    · subst hc
      rw [if_pos (by simp [List.isPrefixOf]), if_pos rfl]
      simp only [List.length_singleton, Nat.sub_self, List.drop_zero]
      rw [ih]
      rfl
    · have hne : '?' ≠ c := Ne.symm hc
      rw [if_neg (by simp [List.isPrefixOf, hne]), if_neg hc, ih]
      rfl

/-! ## Comments -/

/-- The text starts with what opens a comment. -/
def opensComment (mysql : Bool) : List Char → Bool
  | [] => false
  | c :: rest =>
    (c = '-' ∧ rest.head? = some '-') ∨ (c = '/' ∧ rest.head? = some '*') ∨ (mysql ∧ c = '#')

/-- A comment opens somewhere in the text. -/
def hasComment (mysql : Bool) : List Char → Bool
  | [] => false
  | c :: rest => opensComment mysql (c :: rest) || hasComment mysql rest

/-- A comment opens where no quote is open, from a place with the given open quote on. -/
def commentOutside (mysql : Bool) : Option Char → List Char → Bool
  | _, [] => false
  | quote, c :: rest =>
    (quote.isNone && opensComment mysql (c :: rest)) ||
      commentOutside mysql (nextQuote quote c) rest

theorem opensComment_quote (mysql : Bool) {c : Char} (hc : isQuote c = true) (rest : List Char) :
    opensComment mysql (c :: rest) = false := by
  have hne : ∀ d : Char, isQuote d = false → c ≠ d := by
    rintro d hd rfl
    rw [hc] at hd
    cases hd
  simp [opensComment, hne '-' rfl, hne '/' rfl, hne '#' rfl]

theorem commentOutside_quote (mysql : Bool) (quote : Option Char) {c : Char}
    (hc : isQuote c = true) (rest : List Char) :
    commentOutside mysql quote (c :: rest) = commentOutside mysql (nextQuote quote c) rest := by
  rw [commentOutside, opensComment_quote mysql hc, Bool.and_false, Bool.false_or]

theorem containsComment_eq (mysql inSingle inDouble : Bool) (h : (inSingle && inDouble) = false)
    (cs : List Char) :
    containsComment mysql inSingle inDouble cs =
      commentOutside mysql (openQuote inSingle inDouble) cs := by
  have hquote : isQuote '\'' = true := rfl
  have hquote' : isQuote '"' = true := rfl
  -- a character that turns no flag
  have hplain : ∀ {inSingle inDouble : Bool} {c : Char} {rest : List Char},
      ¬ (c = '\'' ∧ inDouble = false) → ¬ (c = '"' ∧ inSingle = false) →
      (inSingle && inDouble) = false →
      commentOutside mysql (openQuote inSingle inDouble) (c :: rest) =
        ((!(inSingle || inDouble) && opensComment mysql (c :: rest)) ||
          commentOutside mysql (openQuote inSingle inDouble) rest) := by
    intro inSingle inDouble c rest hsingle hdouble h
    have hnone : (openQuote inSingle inDouble).isNone = !(inSingle || inDouble) := by
      rw [← isSome_openQuote, Option.not_isSome]
    rw [commentOutside, nextQuote_openQuote hsingle hdouble h, hnone]
  induction inSingle, inDouble, cs using scan_induction with
  | nil => rfl
  | doubled inSingle rest ih =>
    rw [containsComment, if_pos ⟨rfl, rfl⟩, ih h, commentOutside_quote mysql _ hquote,
      commentOutside_quote mysql _ hquote]
    cases inSingle <;> rfl
  | single inSingle rest hne ih =>
    rw [containsComment, if_pos ⟨rfl, rfl⟩]
    · rw [ih (by simp), commentOutside_quote mysql _ hquote]
      cases inSingle <;> rfl
    · exact hne
  | double inDouble rest ih =>
    unfold containsComment
    rw [if_neg (by simp), if_pos ⟨rfl, rfl⟩, ih (by simp), commentOutside_quote mysql _ hquote']
    cases inDouble <;> rfl
  | other inSingle inDouble c rest hsingle hdouble ih =>
    unfold containsComment
    rw [if_neg hsingle, if_neg hdouble, hplain hsingle hdouble h, ih h]
    by_cases hinside : (inSingle || inDouble) = true
    · rw [if_pos hinside, hinside]
      rfl
    · rw [if_neg hinside]
      by_cases hopens : c = '-' ∧ rest.head? = some '-'
      · simp [opensComment, hopens, hinside]
      · by_cases hopens' : c = '/' ∧ rest.head? = some '*'
        · simp [opensComment, hopens', hinside]
        · by_cases hhash : mysql = true ∧ c = '#'
          · simp [opensComment, hhash, hinside]
          · have hnone : opensComment mysql (c :: rest) = false := by
              simp only [opensComment, hopens, hopens', hhash, or_self, decide_false]
            rw [if_neg hopens, if_neg hopens', if_neg hhash, hnone, Bool.and_false, Bool.false_or]

/-- Inside a span nothing is found. -/
theorem commentOutside_span (mysql : Bool) {q : Char} (hq : isQuote q = true) (cs : List Char) :
    commentOutside mysql (some q) cs = commentOutside mysql none (quotedSpan q cs).2 := by
  fun_induction quotedSpan q cs with
  | case1 => rfl
  | case2 c => simp [commentOutside]
  | case3 rest ih =>
    have hopen : nextQuote none q = some q := if_pos hq
    have hclose : nextQuote (some q) q = none := if_pos rfl
    rw [commentOutside_quote mysql _ hq, hclose, commentOutside_quote mysql _ hq, hopen, ih]
  | case4 d rest hd =>
    have hclose : nextQuote (some q) q = none := if_pos rfl
    rw [commentOutside_quote mysql _ hq, hclose]
  | case5 c d rest hc ih =>
    have hstay : nextQuote (some q) c = some q := if_neg hc
    rw [commentOutside, hstay, ih]
    rfl

/-- What opens a comment does not reach beyond the next quote. -/
theorem opensComment_append (mysql : Bool) {c : Char} {run rest : List Char}
    (hrest : ∀ x ∈ rest.head?, isQuote x = true) :
    opensComment mysql (c :: (run ++ rest)) = opensComment mysql (c :: run) := by
  cases run with
  | cons d run => rfl
  | nil =>
    cases rest with
    | nil => rfl
    | cons x rest =>
      have hx : isQuote x = true := hrest x rfl
      have hne : ∀ d : Char, isQuote d = false → x ≠ d := by
        rintro d hd rfl
        rw [hx] at hd
        cases hd
      simp [opensComment, hne '-' rfl, hne '*' rfl]

theorem commentOutside_run (mysql : Bool) {run rest : List Char}
    (hrun : ∀ c ∈ run, isQuote c = false) (hrest : ∀ c ∈ rest.head?, isQuote c = true) :
    commentOutside mysql none (run ++ rest) =
      (hasComment mysql run || commentOutside mysql none rest) := by
  induction run with
  | nil => rfl
  | cons c run ih =>
    have hc : isQuote c = false := hrun c List.mem_cons_self
    have hstay : nextQuote none c = none := by simp [nextQuote, hc]
    rw [List.cons_append, commentOutside, hstay, opensComment_append mysql hrest,
      ih fun x hx => hrun x (List.mem_cons_of_mem _ hx), hasComment, Bool.or_assoc]
    rfl

/-- A comment is found if and only if one opens in a stretch of code. -/
theorem commentOutside_spans (mysql : Bool) (cs : List Char) :
    commentOutside mysql none cs =
      (spans cs).any fun span => !span.1 && hasComment mysql span.2 := by
  fun_induction spans cs with
  | case1 => rfl
  | case2 c rest hc ih =>
    have hopen : nextQuote none c = some c := if_pos hc
    rw [commentOutside_quote mysql _ hc, hopen, commentOutside_span mysql hc, ih]
    rfl
  | case3 c rest hc ih =>
    have hsplit : c :: rest = c :: rest.takeWhile (!isQuote ·) ++ rest.dropWhile (!isQuote ·) := by
      rw [List.cons_append, List.takeWhile_append_dropWhile]
    conv_lhs => rw [hsplit]
    rw [commentOutside_run mysql (run_of_not_quote hc rest) (head_dropWhile_quote rest), ih]
    rfl

/-! ## Agreement -/

/-- **The scanners agree.**  Every character that is not a quote is quoted for all three or for
none.  So both replacers copy quoted spans and work on the code between them, with one result
for `?`, and a comment is found if and only if it opens in that code.  `expand` is what `re`
makes of a replacement text. -/
theorem scanners_agree {expand : List Char → List Char}
    (hexpand : ∀ replacement, '\\' ∉ replacement → expand replacement = replacement)
    (cs : List Char) :
    commentMarks false false cs = replaceMarks cs ∧ regexMarks cs = replaceMarks cs ∧
    replaceMarks cs = ((spans cs).flatMap fun span => span.2.map (mark span.1)) ∧
    (∀ needle replacement, needle ≠ [] → (∀ c ∈ needle, isQuote c = false) →
      replaceOutsideStrings needle replacement cs = (spans cs).flatMap fun span =>
        if span.1 then span.2 else replaceText needle replacement span.2) ∧
    (∀ sub, replaceOutsideStringsRegex sub cs = (spans cs).flatMap fun span =>
        if span.1 then span.2 else sub span.2) ∧
    (∀ replacement, '\\' ∉ replacement → replaceOutsideStrings ['?'] replacement cs =
      replaceOutsideStringsRegex (subMark (expand replacement)) cs) ∧
    ∀ mysql, containsComment mysql false false cs =
      (spans cs).any fun span => !span.1 && hasComment mysql span.2 := by
  have hmark : ∀ c ∈ ['?'], isQuote c = false := List.forall_mem_singleton.mpr rfl
  refine ⟨?_, ?_, ?_, ?_, ?_, ?_, ?_⟩
  · rw [commentMarks_eq false false rfl, replaceMarks_eq]
    rfl
  · rw [regexMarks_eq, replaceMarks_eq]
  · rw [replaceMarks_eq, quoteMarks_spans]
  · intro needle replacement _ hneedle
    exact replace_rewritesCode hneedle replacement cs
  · intro sub
    exact regex_rewritesCode sub cs
  · intro replacement hplain
    rw [hexpand replacement hplain, replace_rewritesCode hmark replacement cs,
      regex_rewritesCode (subMark replacement) cs]
    simp only [replaceText_mark]
  · intro mysql
    rw [containsComment_eq mysql false false rfl]
    exact commentOutside_spans mysql cs

/-- `a = '?''--' ? -- b`. -/
def commentedText : List Char := "a = '?''--' ? -- b".toList

/-- The mark and the dashes in the literal are passed over, those after it are not. -/
theorem commentedText_scanned :
    replaceOutsideStrings ['?'] ['$', '1'] commentedText = "a = '?''--' $1 -- b".toList ∧
    replaceOutsideStringsRegex (subMark ['$', '1']) commentedText =
      "a = '?''--' $1 -- b".toList ∧
    containsComment false false false commentedText = true := by
  have hreplace : replaceOutsideStrings ['?'] ['$', '1'] commentedText =
      "a = '?''--' $1 -- b".toList := by decide +kernel
  obtain ⟨-, -, -, -, -, hmark, hcomment⟩ :=
    @scanners_agree id (fun _ _ => rfl) commentedText
  refine ⟨hreplace, ?_, ?_⟩
  · rw [← hreplace, hmark ['$', '1'] (by decide)]
    rfl
  · rw [hcomment false]
    decide +kernel

end QueryCraft
