import Mathlib.Data.List.Basic
import Mathlib.Data.List.DropRight

/-! # Replacing text outside string literals

`_replace_outside_strings` and `_replace_outside_strings_regex` rewrite a SQL text
but copy single- and double-quoted spans as they are.  Inside a span a doubled
quote stands for the quote itself, and a span that is never closed runs to the
end of the text.
-/
namespace QueryCraft

/-- ASCII lower case. -/
def lowerAscii (s : String) : String := String.ofList (s.toList.map Char.toLower)

theorem toLower_of_not_ascii {c : Char} (h : ¬ c.toNat < 128) : c.toLower = c := by
  refine dif_neg fun hupper => h ?_
  have hle : c.toNat ≤ 'Z'.toNat := hupper.2
  exact Nat.lt_of_le_of_lt hle (by decide)

/-- What holds of the characters with small code points, one after the other. -/
theorem of_toNat_lt {p : Char → Prop} {n : Nat} (h : ∀ m < n, p (Char.ofNat m)) {c : Char}
    (hc : c.toNat < n) : p c := by
  have hm := h c.toNat hc
  rw [Char.ofNat_toNat] at hm
  exact hm

/-- What is lower-case stays as it is. -/
theorem lowerAscii_lowerAscii (s : String) : lowerAscii (lowerAscii s) = lowerAscii s := by
  have hascii : ∀ n < 128, (Char.ofNat n).toLower.toLower = (Char.ofNat n).toLower := by decide
  have hchar : ∀ c : Char, c.toLower.toLower = c.toLower := by
    intro c
    by_cases hc : c.toNat < 128
    · rw [← Char.ofNat_toNat c]
      exact hascii _ hc
    · rw [toLower_of_not_ascii hc, toLower_of_not_ascii hc]
  simp [lowerAscii, Function.comp_def, hchar]

theorem lowerAscii_append (s t : String) : lowerAscii (s ++ t) = lowerAscii s ++ lowerAscii t := by
  simp [lowerAscii]

/-- The characters that `str.strip` removes. -/
def isSpace (c : Char) : Bool :=
  [9, 10, 11, 12, 13, 28, 29, 30, 31, 32, 133, 160, 5760, 8192, 8193, 8194, 8195, 8196, 8197,
    8198, 8199, 8200, 8201, 8202, 8232, 8233, 8239, 8287, 12288].contains c.toNat

/-- `str.strip`. -/
def strip (cs : List Char) : List Char := (cs.dropWhile isSpace).rdropWhile isSpace

/-- A trimmed text is trimmed. -/
theorem strip_strip (cs : List Char) : strip (strip cs) = strip cs := by
  have hhead : (strip cs).dropWhile isSpace = strip cs := by
    obtain ⟨rest, hrest⟩ : strip cs <+: cs.dropWhile isSpace := List.rdropWhile_prefix ..
    cases hstrip : strip cs with
    | nil => rfl
    | cons c tail =>
      have hne : cs.dropWhile isSpace ≠ [] := by simp [← hrest, hstrip]
      have hfirst := List.head_dropWhile_not isSpace hne
      simp only [← hrest, hstrip, List.cons_append, List.head_cons] at hfirst
      rw [List.dropWhile_cons_of_neg (by rw [hfirst]; exact Bool.false_ne_true)]
  rw [strip, hhead]
  exact List.rdropWhile_idempotent ..

/-- Only spaces are trimmed. -/
theorem strip_split (cs : List Char) : ∃ before after, cs = before ++ strip cs ++ after ∧
    (∀ c ∈ before, isSpace c = true) ∧ ∀ c ∈ after, isSpace c = true := by
  refine ⟨cs.takeWhile isSpace, (cs.dropWhile isSpace).rtakeWhile isSpace, ?_, ?_, ?_⟩
  · rw [List.append_assoc, strip, List.rdropWhile_append_rtakeWhile,
      List.takeWhile_append_dropWhile]
  · exact fun c hc => List.mem_takeWhile_imp hc
  · exact fun c hc => List.mem_rtakeWhile_imp hc

theorem strip_eq_self {cs : List Char} (h : ∀ c ∈ cs, isSpace c = false) : strip cs = cs := by
  have hdrop : cs.dropWhile isSpace = cs := by
    cases cs with
    | nil => rfl
    | cons c cs =>
      rw [List.dropWhile_cons_of_neg (by rw [h c List.mem_cons_self]; exact Bool.false_ne_true)]
  rw [strip, hdrop, List.rdropWhile_eq_self_iff]
  intro hne
  rw [h _ (List.getLast_mem hne)]
  exact Bool.false_ne_true

/-- `'` and `"` open a quoted span. -/
def isQuote (c : Char) : Bool := c == '\'' || c == '"'

/-- What follows an opening quote: the rest of the span with its closing quote, and
the text after it. -/
def quotedSpan (quote : Char) : List Char → List Char × List Char
  | [] => ([], [])
  | [c] => ([c], [])
  | c :: d :: rest =>
    if c = quote then
      if d = quote then
        (c :: d :: (quotedSpan quote rest).1, (quotedSpan quote rest).2)
      else ([c], d :: rest)
    else (c :: (quotedSpan quote (d :: rest)).1, (quotedSpan quote (d :: rest)).2)

theorem length_quotedSpan_le (quote : Char) (cs : List Char) :
    (quotedSpan quote cs).2.length ≤ cs.length := by
  fun_induction quotedSpan quote cs with
  | case1 => exact Nat.le_refl _
  | case2 => exact Nat.zero_le _
  | case3 rest ih => simp only [List.length_cons]; omega
  | case4 d rest hd => simp
  | case5 c d rest hc ih => simp only [List.length_cons] at ih ⊢; omega

/-- `_replace_outside_strings`, for a needle that is not empty. -/
def replaceOutsideStrings (needle replacement : List Char) : List Char → List Char
  | [] => []
  | c :: rest =>
    if isQuote c then
      c :: (quotedSpan c rest).1 ++ replaceOutsideStrings needle replacement (quotedSpan c rest).2
    else if needle ≠ [] ∧ needle.isPrefixOf (c :: rest) then
      replacement ++ replaceOutsideStrings needle replacement (rest.drop (needle.length - 1))
    else c :: replaceOutsideStrings needle replacement rest
termination_by cs => cs.length
decreasing_by
  · have := length_quotedSpan_le c rest
    simp only [List.length_cons]
    omega
  · simp only [List.length_drop, List.length_cons]
    omega
  · simp

/-- `_replace_outside_strings_regex`, where `sub` is the substitution of the pattern
in a text without quotes. -/
def replaceOutsideStringsRegex (sub : List Char → List Char) : List Char → List Char
  | [] => []
  | c :: rest =>
    if isQuote c then
      c :: (quotedSpan c rest).1 ++ replaceOutsideStringsRegex sub (quotedSpan c rest).2
    else
      sub (c :: rest.takeWhile (!isQuote ·)) ++
        replaceOutsideStringsRegex sub (rest.dropWhile (!isQuote ·))
termination_by cs => cs.length
decreasing_by
  · have := length_quotedSpan_le c rest
    simp only [List.length_cons]
    omega
  · have := (List.dropWhile_sublist (l := rest) fun x => !isQuote x).length_le
    simp only [List.length_cons]
    omega

/-- The zeros of the decimal digits in Unicode. -/
def decimalZeros : List Nat :=
  [48, 1632, 1776, 1984, 2406, 2534, 2662, 2790, 2918, 3046, 3174, 3302, 3430, 3558, 3664, 3792,
    3872, 4160, 4240, 6112, 6160, 6470, 6608, 6784, 6800, 6992, 7088, 7232, 7248, 42528, 43216,
    43264, 43472, 43504, 43600, 44016, 65296, 66720, 68912, 69734, 69872, 69942, 70096, 70384,
    70736, 70864, 71248, 71360, 71472, 71904, 72016, 72784, 73040, 73120, 73552, 92768, 92864,
    93008, 120782, 120792, 120802, 120812, 120822, 123200, 123632, 124144, 125264, 130032]

/-- The characters that the pattern `\d` matches. -/
def isDecimal (c : Char) : Bool := decimalZeros.any fun z => z ≤ c.toNat && c.toNat < z + 10

/-- The substitution of the pattern `\$\d+`. -/
def subBindTokens (replacement : List Char) : List Char → List Char
  | [] => []
  | c :: rest =>
    if c = '$' ∧ rest.takeWhile isDecimal ≠ [] then
      replacement ++ subBindTokens replacement (rest.dropWhile isDecimal)
    else c :: subBindTokens replacement rest
termination_by cs => cs.length
decreasing_by
  · have := (List.dropWhile_sublist (l := rest) isDecimal).length_le
    simp only [List.length_cons]
    omega
  · simp

/-! ## Scanning

The rewriters character by character, from any place in the text: what matters about the
place is the quote that is open there. -/

/-- The quote that is open after one more character.  A doubled quote closes a span and opens
the next one. -/
def nextQuote : Option Char → Char → Option Char
  | none, c => if isQuote c then some c else none
  | some q, c => if c = q then none else some q

/-- A rewriter goes on inside a span, or outside of all. -/
def rewriteFrom (rewrite : List Char → List Char) : Option Char → List Char → List Char
  | none, cs => rewrite cs
  | some q, cs => (quotedSpan q cs).1 ++ rewrite (quotedSpan q cs).2

/-- The rewriter copies quoted spans. -/
def CopiesSpans (rewrite : List Char → List Char) : Prop :=
  ∀ q rest, isQuote q = true → rewrite (q :: rest) = q :: rewriteFrom rewrite (some q) rest

section Scanning
variable {rewrite : List Char → List Char} {c q : Char} {rest : List Char}

/-- Inside a span a character is copied. -/
theorem rewriteFrom_some (hcopies : CopiesSpans rewrite) (hq : isQuote q = true) :
    rewriteFrom rewrite (some q) (c :: rest) =
      c :: rewriteFrom rewrite (nextQuote (some q) c) rest := by
  cases rest with
  | nil =>
    by_cases hc : c = q
    · simp [rewriteFrom, quotedSpan, nextQuote, hc]
    · simp [rewriteFrom, quotedSpan, nextQuote, hc]
  | cons d rest =>
    by_cases hc : c = q
    · by_cases hd : d = q
      · -- the doubled quote opens a span of its own
        have := hcopies q rest hq
        simp [rewriteFrom, quotedSpan, nextQuote, hc, hd, this]
      · simp [rewriteFrom, quotedSpan, nextQuote, hc, hd]
    · simp [rewriteFrom, quotedSpan, nextQuote, hc]

/-- A quote is copied. -/
theorem rewrite_quote (hcopies : CopiesSpans rewrite) (hc : isQuote c = true) :
    rewrite (c :: rest) = c :: rewriteFrom rewrite (nextQuote none c) rest := by
  rw [hcopies c rest hc, nextQuote, if_pos hc]

theorem copiesSpans_replaceOutsideStrings (needle replacement : List Char) :
    CopiesSpans (replaceOutsideStrings needle replacement) := by
  intro q rest hq
  rw [replaceOutsideStrings, if_pos hq, rewriteFrom, List.cons_append]

theorem copiesSpans_replaceOutsideStringsRegex (sub : List Char → List Char) :
    CopiesSpans (replaceOutsideStringsRegex sub) := by
  intro q rest hq
  rw [replaceOutsideStringsRegex, if_pos hq, rewriteFrom, List.cons_append]

end Scanning

/-- A span and what follows it make up the text. -/
theorem quotedSpan_append (quote : Char) (cs : List Char) :
    (quotedSpan quote cs).1 ++ (quotedSpan quote cs).2 = cs := by
  fun_induction quotedSpan quote cs with
  | case1 => rfl
  | case2 => rfl
  | case3 rest ih => simp [ih]
  | case4 d rest hd => rfl
  | case5 c d rest hc ih => simp [ih]

/-- So does the rewriter that changes nothing. -/
theorem copiesSpans_id : CopiesSpans id := by
  intro q rest _
  simp [rewriteFrom, quotedSpan_append]

/-- The text up to the next quote, and the rest. -/
theorem replaceOutsideStringsRegex_split {sub : List Char → List Char} (hsub : sub [] = [])
    (cs : List Char) : replaceOutsideStringsRegex sub cs =
      sub (cs.takeWhile (!isQuote ·)) ++
        replaceOutsideStringsRegex sub (cs.dropWhile (!isQuote ·)) := by
  cases cs with
  | nil => simp [replaceOutsideStringsRegex, hsub]
  | cons c rest =>
    by_cases hc : isQuote c = true
    · simp [hc, hsub]
    · rw [replaceOutsideStringsRegex, if_neg hc]
      simp [hc]

end QueryCraft
