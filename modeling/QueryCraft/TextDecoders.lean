import Mathlib.Data.List.TakeWhile
import QueryCraft.JsonText

/-! # URL and HTML decoding

`urllib.parse.unquote` replaces percent escapes and reads the bytes of each ASCII run as UTF-8,
with U+FFFD for what is not UTF-8.  `html.unescape` replaces character references; the table of
their names is a parameter.  A decimal reference is read with `int`, which refuses more than 4300
digits: then `unescape` raises.
-/
namespace QueryCraft

/-- `\ufffd`. -/
def replacementChar : Char := '\ufffd'

/-! ## UTF-8 with replacement -/

/-- A character that has begun: the bytes that are missing, the bounds of the next one and the
bits so far. -/
structure PartialChar where
  missing : Nat
  lower : Nat
  upper : Nat
  bits : Nat

/-- A byte at the start of a character: what it completes, and what it begins. -/
def firstByte (b : Nat) : List Char × Option PartialChar :=
  if b < 0x80 then ([Char.ofNat b], none)
  else if 0xc2 ≤ b ∧ b ≤ 0xdf then ([], some ⟨1, 0x80, 0xbf, b % 32⟩)
  else if b = 0xe0 then ([], some ⟨2, 0xa0, 0xbf, 0⟩)
  else if b = 0xed then ([], some ⟨2, 0x80, 0x9f, 13⟩)
  else if 0xe1 ≤ b ∧ b ≤ 0xef then ([], some ⟨2, 0x80, 0xbf, b % 16⟩)
  else if b = 0xf0 then ([], some ⟨3, 0x90, 0xbf, 0⟩)
  else if b = 0xf4 then ([], some ⟨3, 0x80, 0x8f, 4⟩)
  else if 0xf1 ≤ b ∧ b ≤ 0xf3 then ([], some ⟨3, 0x80, 0xbf, b % 8⟩)
  else ([replacementChar], none)

/-- The next byte.  One that does not continue the character that has begun starts another. -/
def nextByte (pending : Option PartialChar) (b : Nat) : List Char × Option PartialChar :=
  match pending with
  | none => firstByte b
  | some p =>
    if p.lower ≤ b ∧ b ≤ p.upper then
      let bits := p.bits * 64 + b % 64
      if p.missing = 1 then ([Char.ofNat bits], none)
      else ([], some ⟨p.missing - 1, 0x80, 0xbf, bits⟩)
    else (replacementChar :: (firstByte b).1, (firstByte b).2)

/-- Bytes and characters, `bytes.decode("utf-8", "replace")` for each run of bytes. -/
def decodeReplace : Option PartialChar → List (Nat ⊕ Char) → List Char
  | none, [] => []
  | some _, [] => [replacementChar]
  | pending, .inl b :: rest =>
    (nextByte pending b).1 ++ decodeReplace (nextByte pending b).2 rest
  | pending, .inr c :: rest =>
    (pending.map fun _ => replacementChar).toList ++ c :: decodeReplace none rest

/-! ## Percent escapes -/

/-- The bytes of the ASCII runs with their escapes replaced, and the characters between them. -/
def unquoteBytes : List Char → List (Nat ⊕ Char)
  | [] => []
  | '%' :: a :: b :: rest =>
    match JsonText.hexValue? a, JsonText.hexValue? b with
    | some x, some y => .inl (16 * x + y) :: unquoteBytes rest
    | _, _ => .inl '%'.toNat :: unquoteBytes (a :: b :: rest)
  | c :: rest => (if c.toNat < 128 then .inl c.toNat else .inr c) :: unquoteBytes rest

/-- `urllib.parse.unquote`. -/
def unquote (text : List Char) : List Char :=
  if '%' ∈ text then decodeReplace none (unquoteBytes text) else text

/-! ## Character references -/

/-- What follows `&` in a reference. -/
inductive Reference where
  | decimal (digits : List Char)
  | hexadecimal (digits : List Char)
  | named (name : List Char)

/-- `[0-9]`. -/
def isDigit (c : Char) : Bool := '0' ≤ c && c ≤ '9'

/-- `[0-9a-fA-F]`. -/
def isHexDigit (c : Char) : Bool := (JsonText.hexValue? c).isSome

/-- `[^\t\n\f <&#;]`. -/
def isNameChar (c : Char) : Bool :=
  ! List.contains ['\t', '\n', Char.ofNat 12, ' ', '<', '&', '#', ';'] c

/-- One more where a semicolon follows. -/
def withSemicolon (n : Nat) (text : List Char) : Nat :=
  if (text.drop n).head? = some ';' then n + 1 else n

/-- The reference at the start of the text after `&`, and the number of its characters. -/
def reference? (text : List Char) : Option (Reference × Nat) :=
  match text with
  | '#' :: rest =>
    let digits := rest.takeWhile isDigit
    if digits ≠ [] then some (.decimal digits, withSemicolon (1 + digits.length) text)
    else
      match rest with
      | x :: rest =>
        let digits := rest.takeWhile isHexDigit
        if (x = 'x' ∨ x = 'X') ∧ digits ≠ [] then
          some (.hexadecimal digits, withSemicolon (2 + digits.length) text)
        else none
      | [] => none
  | _ =>
    let name := (text.takeWhile isNameChar).take 32
    if name ≠ [] then
      let n := withSemicolon name.length text
      some (.named (text.take n), n)
    else none

/-- `_invalid_charrefs`. -/
def invalidCharrefs : List (Nat × Nat) :=
  [(0x00, 0xfffd), (0x0d, 0x0d), (0x80, 0x20ac), (0x81, 0x81), (0x82, 0x201a), (0x83, 0x192),
    (0x84, 0x201e), (0x85, 0x2026), (0x86, 0x2020), (0x87, 0x2021), (0x88, 0x2c6),
    (0x89, 0x2030), (0x8a, 0x160), (0x8b, 0x2039), (0x8c, 0x152), (0x8d, 0x8d), (0x8e, 0x17d),
    (0x8f, 0x8f), (0x90, 0x90), (0x91, 0x2018), (0x92, 0x2019), (0x93, 0x201c), (0x94, 0x201d),
    (0x95, 0x2022), (0x96, 0x2013), (0x97, 0x2014), (0x98, 0x2dc), (0x99, 0x2122), (0x9a, 0x161),
    (0x9b, 0x203a), (0x9c, 0x153), (0x9d, 0x9d), (0x9e, 0x17e), (0x9f, 0x178)]

/-- `_invalid_codepoints`. -/
def isInvalidCodepoint (n : Nat) : Bool :=
  (1 ≤ n && n ≤ 8) || n == 0xb || (0xe ≤ n && n ≤ 0x1f) || (0x7f ≤ n && n ≤ 0x9f) ||
    (0xfdd0 ≤ n && n ≤ 0xfdef) || (n % 0x10000 == 0xfffe) || (n % 0x10000 == 0xffff)

/-- The text of a numeric reference. -/
def numericText (n : Nat) : List Char :=
  match invalidCharrefs.lookup n with
  | some m => [Char.ofNat m]
  | none =>
    if (0xd800 ≤ n ∧ n ≤ 0xdfff) ∨ 0x10ffff < n then [replacementChar]
    else if isInvalidCodepoint n then []
    else [Char.ofNat n]

/-- The value of hexadecimal digits. -/
def hexadecimal (digits : List Char) : Nat :=
  digits.foldl (fun n c => 16 * n + (JsonText.hexValue? c).getD 0) 0

/-- `sys.get_int_max_str_digits()`. -/
def intMaxStrDigits : Nat := 4300

section Names
variable (html5 : List Char → Option (List Char))

/-- The longest name of at least two characters that starts the text, replaced. -/
def longestName (name : List Char) : List Char :=
  (((List.range' 2 (name.length - 2)).reverse.findSome? fun n =>
    (html5 (name.take n)).map (· ++ name.drop n))).getD ('&' :: name)

/-- `_replace_charref`; `none` stands for the `ValueError` of `int`. -/
def replaceCharref : Reference → Option (List Char)
  | .decimal digits =>
    if intMaxStrDigits < digits.length then none else some (numericText (JsonText.decimal digits))
  | .hexadecimal digits => some (numericText (hexadecimal digits))
  | .named name => some ((html5 name).getD (longestName html5 name))

/-- The references of a text replaced, after a number of characters that are skipped. -/
def replaceCharrefs : Nat → List Char → Option (List Char)
  | _, [] => some []
  | skip + 1, _ :: cs => replaceCharrefs skip cs
  | 0, c :: cs =>
    match if c = '&' then reference? cs else none with
    | none => (replaceCharrefs 0 cs).map (c :: ·)
    | some (ref, n) => (replaceCharref html5 ref).bind fun text =>
      (replaceCharrefs n cs).map (text ++ ·)

/-- `html.unescape`. -/
def unescape (text : List Char) : Option (List Char) :=
  if '&' ∈ text then replaceCharrefs html5 0 text else some text

end Names

/-! ## When decoding raises -/

/-- A decimal reference that `int` refuses follows `&`. -/
def startsLongReference : List Char → Bool
  | '#' :: rest => intMaxStrDigits < (rest.takeWhile isDigit).length
  | _ => false

/-- The text has a decimal reference that `int` refuses. -/
def hasLongReference : List Char → Bool
  | [] => false
  | c :: cs => (c == '&' && startsLongReference cs) || hasLongReference cs

theorem mem_take_withSemicolon {n : Nat} {text : List Char} {c : Char}
    (h : c ∈ text.take (withSemicolon n text)) : c ∈ text.take n ∨ c = ';' := by
  rw [withSemicolon] at h
  split at h
  next hsemi =>
    rw [List.take_add_one, List.mem_append, ← List.head?_drop, hsemi] at h
    simpa using h
  next => exact .inl h

theorem isDigit_ne_ampersand {c : Char} (h : isDigit c = true) : c ≠ '&' := by
  rintro rfl
  revert h
  decide

theorem isHexDigit_ne_ampersand {c : Char} (h : isHexDigit c = true) : c ≠ '&' := by
  rintro rfl
  revert h
  decide

theorem isNameChar_ne_ampersand {c : Char} (h : isNameChar c = true) : c ≠ '&' := by
  rintro rfl
  revert h
  decide

theorem take_append_takeWhile_ne {p : Char → Bool} (hp : ∀ c, p c = true → c ≠ '&')
    (start : List Char) (hstart : ∀ c ∈ start, c ≠ '&') {rest : List Char} {c : Char}
    (h : c ∈ (start ++ rest).take
      (withSemicolon (start.length + (rest.takeWhile p).length) (start ++ rest))) : c ≠ '&' := by
  rcases mem_take_withSemicolon h with hc | rfl
  · rw [List.take_length_add_append, List.mem_append] at hc
    rcases hc with hc | hc
    · exact hstart c hc
    · rw [← List.prefix_iff_eq_take.mp (List.takeWhile_prefix p)] at hc
      exact hp c (List.mem_takeWhile_imp hc)
  · decide

/-- A reference ends before the next `&`, and its text is missing only where it is a decimal one
with too many digits. -/
theorem reference?_spec (html5 : List Char → Option (List Char)) {cs : List Char}
    {ref : Reference} {n : Nat} (h : reference? cs = some (ref, n)) :
    (replaceCharref html5 ref = none ↔ startsLongReference cs = true) ∧
      ∀ c ∈ cs.take n, c ≠ '&' := by
  unfold reference? at h
  split at h
  next rest =>
    dsimp only at h
    split at h
    next hdigits =>
      obtain ⟨rfl, rfl⟩ := Prod.mk.inj (Option.some.inj h)
      refine ⟨by simp [replaceCharref, startsLongReference], fun c hc => ?_⟩
      exact take_append_takeWhile_ne (fun _ => isDigit_ne_ampersand) ['#'] (by simp) hc
    next hdigits =>
      have hshort : startsLongReference ('#' :: rest) = false := by
        simp only [ne_eq, not_not] at hdigits
        simp [startsLongReference, hdigits]
      split at h
      next x rest' =>
        split at h
        next hx =>
          obtain ⟨rfl, rfl⟩ := Prod.mk.inj (Option.some.inj h)
          refine ⟨by simp [replaceCharref, hshort], fun c hc => ?_⟩
          refine take_append_takeWhile_ne (fun _ => isHexDigit_ne_ampersand) ['#', x] ?_ hc
          rcases hx.1 with rfl | rfl <;> simp
        next => cases h
      next => cases h
  next hsharp =>
    dsimp only at h
    split at h
    next hname =>
      obtain ⟨rfl, rfl⟩ := Prod.mk.inj (Option.some.inj h)
      have hshort : startsLongReference cs = false := by
        unfold startsLongReference
        split
        next rest => exact absurd rfl (hsharp rest)
        next => rfl
      refine ⟨by simp [replaceCharref, hshort], fun c hc => ?_⟩
      rcases mem_take_withSemicolon hc with hc | rfl
      · have hprefix := (List.take_prefix 32 (cs.takeWhile isNameChar)).trans
          (List.takeWhile_prefix isNameChar)
        rw [← List.prefix_iff_eq_take.mp hprefix] at hc
        exact isNameChar_ne_ampersand (List.mem_takeWhile_imp (List.mem_of_mem_take hc))
      · decide
    next => cases h

/-- Without a reference there is no decimal one with too many digits. -/
theorem startsLongReference_of_reference? {cs : List Char} (h : reference? cs = none) :
    startsLongReference cs = false := by
  unfold startsLongReference
  split
  next rest =>
    by_cases hdigits : rest.takeWhile isDigit = []
    · simp [hdigits]
    · unfold reference? at h
      simp [hdigits] at h
  next => rfl

theorem replaceCharrefs_eq_none_iff (html5 : List Char → Option (List Char)) (cs : List Char)
    {skip : Nat} (hskip : ∀ c ∈ cs.take skip, c ≠ '&') :
    replaceCharrefs html5 skip cs = none ↔ hasLongReference cs = true := by
  induction cs generalizing skip with
  | nil => simp [replaceCharrefs, hasLongReference]
  | cons c cs ih =>
    cases skip with
    | succ skip =>
      have hc : c ≠ '&' := hskip c (by simp)
      have htail : ∀ d ∈ cs.take skip, d ≠ '&' := fun d hd => hskip d (by simp [hd])
      rw [replaceCharrefs, ih htail]
      simp [hasLongReference, hc]
    | zero =>
      have hnone : replaceCharrefs html5 0 cs = none ↔ hasLongReference cs = true :=
        ih (by simp)
      rw [replaceCharrefs]
      by_cases hc : c = '&'
      · rw [if_pos hc, hasLongReference]
        cases href : reference? cs with
        | none => simp [hnone, hc, startsLongReference_of_reference? href]
        | some found =>
          obtain ⟨ref, n⟩ := found
          obtain ⟨htext, htake⟩ := reference?_spec html5 href
          simp only [Option.bind_eq_none_iff, Option.map_eq_none_iff, ih htake]
          cases href' : replaceCharref html5 ref <;> simp_all
      · rw [if_neg hc]
        simp [hnone, hc, hasLongReference]

theorem not_hasLongReference {cs : List Char} (h : '&' ∉ cs) : hasLongReference cs = false := by
  induction cs with
  | nil => rfl
  | cons c cs ih =>
    have hc : c ≠ '&' := fun hc => h (by simp [hc])
    simp [hasLongReference, hc, ih fun hmem => h (by simp [hmem])]

/-- `html.unescape` raises exactly where a decimal reference has too many digits. -/
theorem unescape_eq_none_iff (html5 : List Char → Option (List Char)) (text : List Char) :
    unescape html5 text = none ↔ hasLongReference text = true := by
  rw [unescape]
  split
  next => exact replaceCharrefs_eq_none_iff html5 text (by simp)
  next hamp => simp [not_hasLongReference hamp]

end QueryCraft
