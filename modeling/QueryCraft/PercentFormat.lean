import Mathlib.Algebra.Group.Nat.Defs
import Mathlib.Data.List.Chain
import Mathlib.Data.List.TakeWhile

/-! # Percent formatting

`text % args` of Python, for a tuple of strings: `%%` stands for a `%`, every other `%` in the
text starts a specification, which takes the next argument, and all arguments have to be
taken.  `none` stands for `TypeError` and `ValueError`.

`format_percent_s` is the case that is meant.  `format_percent_ne` says that one other `%` in
the text spoils the result for good: it is read together with what follows it, so that the
result falls behind the text, and with arguments that start with a quotation mark it never
catches up.
-/
namespace QueryCraft.PercentFormat

/-! ## Specifications -/

/-- A specification without its `%`. -/
structure Spec where
  leftAdjusted : Bool
  width : Nat
  precision : Option Nat
  conversion : Char
deriving DecidableEq, Repr

/-- The flags. -/
def isFlag (c : Char) : Bool := ['-', '+', ' ', '#', '0'].contains c

/-- The number that decimal digits spell. -/
def digitsValue (digits : List Char) : Nat := digits.foldl (fun n d => 10 * n + (d.toNat - 48)) 0

/-- A width; `*` would take an integer from the arguments. -/
def readWidth (cs : List Char) : Option (Nat × List Char) :=
  if cs.head? = some '*' then none
  else if digitsValue (cs.takeWhile Char.isDigit) < 2 ^ 63 then
    some (digitsValue (cs.takeWhile Char.isDigit), cs.dropWhile Char.isDigit)
  else none

/-- A precision, if there is a point. -/
def readPrecision : List Char → Option (Option Nat × List Char)
  | '.' :: cs =>
    if cs.head? = some '*' then none
    else if digitsValue (cs.takeWhile Char.isDigit) < 2 ^ 31 then
      some (some (digitsValue (cs.takeWhile Char.isDigit)), cs.dropWhile Char.isDigit)
    else none
  | cs => some (none, cs)

/-- A length modifier is skipped. -/
def skipLength : List Char → List Char
  | c :: cs => if ['h', 'l', 'L'].contains c then cs else c :: cs
  | [] => []

/-- The specification after a `%`, and the text after it.  A key in parentheses would need a
mapping. -/
def readSpec (cs : List Char) : Option (Spec × List Char) :=
  if cs.head? = some '(' then none
  else
    match readWidth (cs.dropWhile isFlag) with
    | none => none
    | some (width, afterWidth) =>
      match readPrecision afterWidth with
      | none => none
      | some (precision, afterPrecision) =>
        match skipLength afterPrecision with
        | [] => none
        | conversion :: rest =>
          some (⟨(cs.takeWhile isFlag).contains '-', width, precision, conversion⟩, rest)

/-! ## Conversions -/

/-- A number in hexadecimal, with leading zeros. -/
def hexDigits (size n : Nat) : List Char :=
  (List.range size).reverse.map fun i => Nat.digitChar (n / 16 ^ i % 16)

/-- `\xhh`, `\uhhhh` or `\Uhhhhhhhh`. -/
def hexEscape (c : Char) : List Char :=
  if c.toNat < 0x100 then '\\' :: 'x' :: hexDigits 2 c.toNat
  else if c.toNat < 0x10000 then '\\' :: 'u' :: hexDigits 4 c.toNat
  else '\\' :: 'U' :: hexDigits 8 c.toNat

section Formatting
variable (isPrintable : Char → Bool)

/-- A character in the `repr` of a string; `isPrintable` decides beyond ASCII. -/
def escapeChar (quote c : Char) : List Char :=
  if c = quote ∨ c = '\\' then ['\\', c]
  else if c = '\n' then ['\\', 'n']
  else if c = '\r' then ['\\', 'r']
  else if c = '\t' then ['\\', 't']
  else if c.toNat < 32 ∨ c.toNat = 127 then hexEscape c
  else if c.toNat < 127 ∨ isPrintable c then [c]
  else hexEscape c

/-- The quotes that `repr` puts around a string. -/
def reprQuote (arg : List Char) : Char :=
  if arg.contains '\'' && !arg.contains '"' then '"' else '\''

/-- `repr`. -/
def repr (arg : List Char) : List Char :=
  reprQuote arg :: arg.flatMap (escapeChar isPrintable (reprQuote arg)) ++ [reprQuote arg]

/-- The text of an argument.  A string can be converted with `s`, `r` and `a`, and a single
character with `c`. -/
def converted (conversion : Char) (arg : List Char) : Option (List Char) :=
  if conversion = 's' then some arg
  else if conversion = 'r' then some (repr isPrintable arg)
  else if conversion = 'a' then some (repr (fun _ => false) arg)
  else if conversion = 'c' ∧ arg.length = 1 then some arg
  else none

/-- The text cut off at the precision, which `c` ignores. -/
def Spec.cutOff (spec : Spec) (text : List Char) : List Char :=
  match spec.precision with
  | some precision => if spec.conversion = 'c' then text else text.take precision
  | none => text

/-- The text cut off and filled up to the width. -/
def Spec.layOut (spec : Spec) (text : List Char) : List Char :=
  if spec.leftAdjusted then
    spec.cutOff text ++ List.replicate (spec.width - (spec.cutOff text).length) ' '
  else List.replicate (spec.width - (spec.cutOff text).length) ' ' ++ spec.cutOff text

/-- A character before the conversion. -/
def isSpecChar (c : Char) : Bool :=
  isFlag c || c.isDigit || c == '.' || ['h', 'l', 'L'].contains c

theorem isSpecChar_takeWhile_isDigit (cs : List Char) :
    ∀ c ∈ cs.takeWhile Char.isDigit, isSpecChar c = true := by
  intro c hc
  simp [isSpecChar, List.mem_takeWhile_imp hc]

theorem readWidth_split {cs rest : List Char} {width : Nat}
    (h : readWidth cs = some (width, rest)) :
    ∃ pre, cs = pre ++ rest ∧ ∀ c ∈ pre, isSpecChar c = true := by
  unfold readWidth at h
  split_ifs at h
  cases h
  exact ⟨_, List.takeWhile_append_dropWhile.symm, isSpecChar_takeWhile_isDigit cs⟩

theorem readPrecision_split {cs rest : List Char} {precision : Option Nat}
    (h : readPrecision cs = some (precision, rest)) :
    ∃ pre, cs = pre ++ rest ∧ (∀ c ∈ pre, isSpecChar c = true) ∧
      (precision.isSome = true → pre ≠ []) := by
  unfold readPrecision at h
  split at h
  · rename_i cs
    split_ifs at h
    cases h
    refine ⟨'.' :: cs.takeWhile Char.isDigit, ?_, ?_, fun _ => List.cons_ne_nil _ _⟩
    · rw [List.cons_append, List.takeWhile_append_dropWhile]
    · exact List.forall_mem_cons.mpr ⟨by decide, isSpecChar_takeWhile_isDigit cs⟩
  · cases h
    exact ⟨[], rfl, by simp, by simp⟩

theorem skipLength_split (cs : List Char) :
    ∃ pre, cs = pre ++ skipLength cs ∧ ∀ c ∈ pre, isSpecChar c = true := by
  unfold skipLength
  split
  · rename_i c cs
    split
    · rename_i hc
      refine ⟨[c], rfl, fun d hd => ?_⟩
      rw [List.mem_singleton.mp hd, isSpecChar, hc, Bool.or_true]
    · exact ⟨[], rfl, by simp⟩
  · exact ⟨[], rfl, by simp⟩

/-- The conversion is the last character of a specification. -/
theorem readSpec_split {cs rest : List Char} {spec : Spec}
    (h : readSpec cs = some (spec, rest)) :
    ∃ pre, cs = pre ++ spec.conversion :: rest ∧ (∀ c ∈ pre, isSpecChar c = true) ∧
      (spec.precision.isSome = true → pre ≠ []) := by
  unfold readSpec at h
  split at h
  · cases h
  · split at h
    · cases h
    · rename_i width afterWidth hwidth
      split at h
      · cases h
      · rename_i precision afterPrecision hprecision
        split at h
        · cases h
        · rename_i conversion rest' hlength
          cases h
          obtain ⟨pre₁, hpre₁, hspec₁⟩ := readWidth_split hwidth
          obtain ⟨pre₂, hpre₂, hspec₂, hprecise⟩ := readPrecision_split hprecision
          obtain ⟨pre₃, hpre₃, hspec₃⟩ := skipLength_split afterPrecision
          refine ⟨cs.takeWhile isFlag ++ pre₁ ++ pre₂ ++ pre₃, ?_, ?_, ?_⟩
          · rw [hlength] at hpre₃
            rw [List.append_assoc, ← hpre₃, List.append_assoc, ← hpre₂, List.append_assoc, ← hpre₁,
              List.takeWhile_append_dropWhile]
          · intro c hc
            simp only [List.mem_append] at hc
            obtain ((hc | hc) | hc) | hc := hc
            · simp [isSpecChar, List.mem_takeWhile_imp hc]
            · exact hspec₁ c hc
            · exact hspec₂ c hc
            · exact hspec₃ c hc
          · intro hsome
            simp [hprecise hsome]

theorem length_lt_of_readSpec {cs rest : List Char} {spec : Spec}
    (h : readSpec cs = some (spec, rest)) : rest.length < cs.length := by
  obtain ⟨pre, rfl, -⟩ := readSpec_split h
  simp only [List.length_append, List.length_cons]
  omega

/-- `text % args`. -/
def format : List Char → List (List Char) → Option (List Char)
  | [], [] => some []
  | [], _ :: _ => none
  | c :: cs, args =>
    if c ≠ '%' then (format cs args).map (c :: ·)
    else
      match _h : readSpec cs with
      | none => none
      | some (spec, rest) =>
        -- `%%`, also with a width or a precision in between
        if spec.conversion = '%' then (format rest args).map ('%' :: ·)
        else
          match args with
          | [] => none
          | arg :: args =>
            match converted isPrintable spec.conversion arg with
            | none => none
            | some text => (format rest args).map (spec.layOut text ++ ·)
termination_by cs => cs.length
decreasing_by
  · simp
  · have := length_lt_of_readSpec _h
    simp only [List.length_cons]
    omega
  · have := length_lt_of_readSpec _h
    simp only [List.length_cons]
    omega

/-! ## Steps -/

theorem format_plain {c : Char} (hc : c ≠ '%') (rest : List Char) (args : List (List Char)) :
    format isPrintable (c :: rest) args = (format isPrintable rest args).map (c :: ·) := by
  rw [format, if_pos hc]

variable {isPrintable} in
/-- What a `%` does. -/
theorem format_percent_eq_some {text result : List Char} {args : List (List Char)}
    (h : format isPrintable ('%' :: text) args = some result) :
    ∃ spec rest, readSpec text = some (spec, rest) ∧
      (spec.conversion = '%' ∧
          (∃ more, format isPrintable rest args = some more ∧ result = '%' :: more) ∨
        ∃ arg args' shown more, args = arg :: args' ∧
          converted isPrintable spec.conversion arg = some shown ∧
          format isPrintable rest args' = some more ∧ result = spec.layOut shown ++ more) := by
  rw [format, if_neg (not_not.mpr rfl)] at h
  split at h
  · cases h
  · rename_i spec rest hspec
    refine ⟨spec, rest, hspec, ?_⟩
    split at h
    · rename_i hconversion
      obtain ⟨more, hmore, heq⟩ := Option.map_eq_some_iff.mp h
      exact .inl ⟨hconversion, more, hmore, heq.symm⟩
    · split at h
      · cases h
      · split at h
        · cases h
        · rename_i shown hshown
          obtain ⟨more, hmore, heq⟩ := Option.map_eq_some_iff.mp h
          exact .inr ⟨_, _, shown, more, rfl, hshown, hmore, heq.symm⟩

theorem readSpec_s (rest : List Char) :
    readSpec ('s' :: rest) = some (⟨false, 0, none, 's'⟩, rest) := rfl

/-- `%s` needs an argument. -/
theorem format_percent_s_nil (rest : List Char) :
    format isPrintable ('%' :: 's' :: rest) [] = none := by
  rw [format, if_neg (not_not.mpr rfl)]
  split
  · rfl
  · rename_i spec rest' hsome
    rw [readSpec_s] at hsome
    cases hsome
    rfl

/-- `%s` takes the next argument as it is. -/
theorem format_percent_s (rest arg : List Char) (args : List (List Char)) :
    format isPrintable ('%' :: 's' :: rest) (arg :: args) =
      (format isPrintable rest args).map (arg ++ ·) := by
  rw [format, if_neg (not_not.mpr rfl)]
  split
  · rename_i hnone
    rw [readSpec_s] at hnone
    cases hnone
  · rename_i spec rest' hsome
    rw [readSpec_s] at hsome
    cases hsome
    simp [converted, Spec.layOut, Spec.cutOff]

/-! ## A `%` that is not meant -/

/-- How a value starts, or a mark that stays in the text. -/
def Opens (c : Char) : Prop := c = '\'' ∨ c = '"' ∨ c = '?'

/-- A value that starts with a quotation mark. -/
def IsValue (v : List Char) : Prop := ∃ c rest, v = c :: rest ∧ Opens c

/-- The text with values in the place of `%s`, and of some `?`. -/
inductive Substitutes : List Char → List Char → Prop
  | nil : Substitutes [] []
  | copy (c : Char) {text out : List Char} (rest : Substitutes text out) :
      Substitutes (c :: text) (c :: out)
  | fill {v text out : List Char} (value : IsValue v) (rest : Substitutes text out) :
      Substitutes ('%' :: 's' :: text) (v ++ out)
  | keep {v text out : List Char} (value : IsValue v) (rest : Substitutes text out) :
      Substitutes ('?' :: text) (v ++ out)

/-- What was read of the text and is not yet part of the result: no value starts in it, and no
`s` follows a `%`. -/
structure Behind (owed : List Char) : Prop where
  closed : ∀ c ∈ owed, ¬ Opens c
  apart : owed.IsChain fun c d => c = '%' → d ≠ 's'

/-- It has a `%`, and goes round. -/
structure Lag (owed : List Char) : Prop extends Behind owed where
  percent : '%' ∈ owed
  wrap : owed.getLast? = some '%' → owed.head? ≠ some 's'

/-- A text of at most `n` characters is formatted to what is meant, with something owed before
it. -/
def Owes (n : Nat) : Prop :=
  ∃ text out args owed, text.length ≤ n ∧ Substitutes text out ∧ (∀ a ∈ args, IsValue a) ∧
    Lag owed ∧ format isPrintable text args = some (owed ++ out)

section Lagging
variable {isPrintable} {text out owed arg : List Char} {args : List (List Char)} {c : Char}
  {conversion : Char} {spec : Spec}

theorem Owes.mono {m n : Nat} (hmn : m ≤ n) : Owes isPrintable m → Owes isPrintable n := by
  rintro ⟨text, out, args, owed, hlength, h⟩
  exact ⟨text, out, args, owed, hlength.trans hmn, h⟩

theorem ne_of_isSpecChar {d : Char} (hc : isSpecChar c = true) (hd : isSpecChar d = false) :
    c ≠ d := by
  rintro rfl
  rw [hc] at hd
  cases hd

theorem not_opens_of_isSpecChar (hc : isSpecChar c = true) : ¬ Opens c := by
  rintro (rfl | rfl | rfl)
  · cases hc
  · cases hc
  · cases hc

theorem not_opens_percent : ¬ Opens '%' := by
  rintro (h | h | h)
  · cases h
  · cases h
  · cases h

/-- A character that is neither read nor kept is copied. -/
theorem Substitutes.cons_inv (h : Substitutes (c :: text) out) (hpercent : c ≠ '%')
    (hmark : c ≠ '?') : ∃ out', out = c :: out' ∧ Substitutes text out' := by
  cases h with
  | copy _ rest => exact ⟨_, rfl, rest⟩
  | fill => exact absurd rfl hpercent
  | keep => exact absurd rfl hmark

theorem Substitutes.append_inv {pre : List Char} (h : Substitutes (pre ++ text) out)
    (hpre : ∀ c ∈ pre, isSpecChar c = true) :
    ∃ out', out = pre ++ out' ∧ Substitutes text out' := by
  induction pre generalizing out with
  | nil => exact ⟨out, rfl, h⟩
  | cons c pre ih =>
    have hc := hpre c List.mem_cons_self
    obtain ⟨out₁, rfl, hrest⟩ := h.cons_inv (ne_of_isSpecChar hc (by decide))
      (ne_of_isSpecChar hc (by decide))
    obtain ⟨out₂, rfl, htext⟩ := ih hrest fun d hd => hpre d (List.mem_cons_of_mem _ hd)
    exact ⟨out₂, rfl, htext⟩

theorem isValue_repr (isPrintable : Char → Bool) (arg : List Char) :
    IsValue (repr isPrintable arg) := by
  refine ⟨_, _, rfl, ?_⟩
  unfold reprQuote
  split
  · exact .inr (.inl rfl)
  · exact .inl rfl

/-- What a value is converted to starts like one. -/
theorem isValue_converted (h : converted isPrintable conversion arg = some text)
    (harg : IsValue arg) :
    IsValue text ∧ conversion ≠ '%' ∧ conversion ≠ '?' ∧ ¬ Opens conversion := by
  unfold converted at h
  split_ifs at h with hs hr ha hc
  · cases h
    subst hs
    exact ⟨harg, by decide, by decide, by rintro (h | h | h) <;> cases h⟩
  · cases h
    subst hr
    exact ⟨isValue_repr _ arg, by decide, by decide, by rintro (h | h | h) <;> cases h⟩
  · cases h
    subst ha
    exact ⟨isValue_repr _ arg, by decide, by decide, by rintro (h | h | h) <;> cases h⟩
  · cases h
    obtain ⟨rfl, -⟩ := hc
    exact ⟨harg, by decide, by decide, by rintro (h | h | h) <;> cases h⟩

/-- Only with a precision nothing but blanks is left of a value. -/
theorem layOut_value (spec : Spec) (htext : IsValue text) :
    (∃ n c rest, spec.layOut text = List.replicate n ' ' ++ c :: rest ∧ Opens c) ∨
      spec.precision.isSome = true ∧ ∃ n, spec.layOut text = List.replicate n ' ' := by
  obtain ⟨c, rest, rfl, hc⟩ := htext
  unfold Spec.layOut
  cases hcut : spec.cutOff (c :: rest) with
  | nil =>
    refine .inr ⟨?_, spec.width, ?_⟩
    · cases hprecision : spec.precision with
      | some _ => rfl
      | none =>
        rw [Spec.cutOff, hprecision] at hcut
        cases hcut
    · split <;> simp
  | cons d cut =>
    have hd : d = c := by
      unfold Spec.cutOff at hcut
      split at hcut
      · split at hcut
        · exact (List.cons.inj hcut).1.symm
        · rename_i precision _ _
          cases precision with
          | zero => cases hcut
          | succ n => exact (List.cons.inj hcut).1.symm
      · exact (List.cons.inj hcut).1.symm
    subst hd
    refine .inl ?_
    split
    · exact ⟨0, d, _, rfl, hc⟩
    · exact ⟨_, d, cut, rfl, hc⟩

/-- Blanks in front of a text end before its first other character. -/
theorem replicate_append_eq {n : Nat} {d : Char} (hd : d ≠ ' ') {front : List Char}
    (h : List.replicate n ' ' ++ text = front ++ d :: out) :
    ∃ front', front = List.replicate n ' ' ++ front' ∧ text = front' ++ d :: out := by
  induction n generalizing front with
  | zero => exact ⟨front, rfl, h⟩
  | succ n ih =>
    cases front with
    | nil => exact absurd (List.cons.inj h).1.symm hd
    | cons c front =>
      obtain ⟨rfl, htail⟩ := List.cons.inj h
      obtain ⟨front', rfl, htext⟩ := ih htail
      exact ⟨front', rfl, htext⟩

/-- A character that is copied goes to the end of what is owed. -/
theorem Lag.rotate (h : Lag (c :: owed)) : Lag (owed ++ [c]) := by
  have happart := List.isChain_cons.mp h.apart
  refine ⟨⟨?_, ?_⟩, ?_, ?_⟩
  · intro d hd
    refine h.closed d ?_
    simpa [or_comm] using hd
  · refine happart.2.append (List.isChain_singleton c) ?_
    rintro x hx y hy rfl hs
    obtain rfl : c = y := by simpa using hy
    have hlast : (c :: owed).getLast? = some '%' := by
      rw [List.getLast?_cons, Option.mem_def.mp hx, Option.getD_some]
    exact h.wrap hlast (by rw [List.head?_cons, hs])
  · simpa [or_comm] using h.percent
  · intro hlast
    obtain rfl : c = '%' := by simpa using hlast
    cases owed with
    | nil => simp
    | cons d owed =>
      have := happart.1 d rfl rfl
      simpa using this

theorem Behind.right {front : List Char} (h : Behind (front ++ owed)) : Behind owed :=
  ⟨fun c hc => h.closed c (List.mem_append_right _ hc), h.apart.right_of_append⟩

theorem Behind.concat (h : Behind owed) (hc : ¬ Opens c)
    (hlast : owed.getLast? = some '%' → c ≠ 's') : Behind (owed ++ [c]) := by
  refine ⟨?_, h.apart.append (List.isChain_singleton c) ?_⟩
  · intro d hd
    rcases List.mem_append.mp hd with hd | hd
    · exact h.closed d hd
    · rwa [List.mem_singleton.mp hd]
  · rintro x hx y hy rfl
    obtain rfl : c = y := by simpa using hy
    exact hlast hx

/-- The inside of a specification has neither a `%` nor an `s`. -/
theorem Behind.append_spec (h : Behind owed) {pre : List Char}
    (hpre : ∀ c ∈ pre, isSpecChar c = true) : Behind (owed ++ pre) := by
  induction pre generalizing owed with
  | nil => rwa [List.append_nil]
  | cons d pre ih =>
    have hd := hpre d List.mem_cons_self
    rw [← List.singleton_append, ← List.append_assoc]
    exact ih (h.concat (not_opens_of_isSpecChar hd) fun _ => ne_of_isSpecChar hd (by decide))
      fun c hc => hpre c (List.mem_cons_of_mem _ hc)

/-- After a `%%` that has `pre` in between. -/
theorem Behind.lag_of_percent (h : Behind ('%' :: owed)) {pre : List Char}
    (hpre : ∀ c ∈ pre, isSpecChar c = true) : Lag (owed ++ pre ++ ['%']) := by
  have howed : Behind owed := Behind.right (show Behind (['%'] ++ owed) from h)
  refine ⟨(howed.append_spec hpre).concat not_opens_percent fun _ => by decide, by simp, ?_⟩
  intro _
  cases owed with
  | cons d owed =>
    have := (List.isChain_cons.mp h.apart).1 d rfl rfl
    simpa using this
  | nil =>
    cases pre with
    | nil => decide
    | cons d pre => simpa using ne_of_isSpecChar (hpre d List.mem_cons_self) (by decide)

/-- After a conversion that wrote blanks at most. -/
theorem Behind.lag_of_spec (h : Behind owed) {pre : List Char}
    (hpre : ∀ c ∈ pre, isSpecChar c = true) (hne : pre ≠ []) (hc : ¬ Opens c) (hpercent : c ≠ '%') :
    Lag (owed ++ '%' :: pre ++ [c]) := by
  have hbefore : Behind (owed ++ ['%'] ++ pre) :=
    (h.concat not_opens_percent fun _ => by decide).append_spec hpre
  have heq : owed ++ ['%'] ++ pre = owed ++ '%' :: pre := by simp
  rw [heq] at hbefore
  refine ⟨hbefore.concat hc fun hlast => ?_, by simp, fun hlast => ?_⟩
  · obtain ⟨init, d, rfl⟩ := (List.eq_nil_or_concat' pre).resolve_left hne
    rw [← List.cons_append, ← List.append_assoc, List.getLast?_concat] at hlast
    have hd : d = '%' := Option.some.inj hlast
    exact absurd hd (ne_of_isSpecChar (hpre d (by simp)) (by decide))
  · rw [List.getLast?_concat] at hlast
    exact absurd (Option.some.inj hlast) hpercent

/-- A text that starts with an `s` does not go on with what is owed. -/
theorem format_s_ne (h : owed.head? ≠ some 's') (hne : owed ≠ []) :
    format isPrintable ('s' :: text) args ≠ some (owed ++ out) := by
  cases owed with
  | nil => exact absurd rfl hne
  | cons c owed =>
    rw [format, if_pos (by decide)]
    intro heq
    obtain ⟨more, -, heq⟩ := Option.map_eq_some_iff.mp heq
    exact h (by rw [List.head?_cons, (List.cons.inj heq).1])

/-- After a `%%` the second `%` is owed. -/
theorem owes_of_doubled {pre more : List Char} (hbehind : Behind owed)
    (hpre : ∀ c ∈ pre, isSpecChar c = true) (hafter : Substitutes ('%' :: text) out)
    (hargs : ∀ a ∈ args, IsValue a) (hmore : format isPrintable text args = some more)
    (heq : owed ++ '%' :: (pre ++ out) = '%' :: more) : Owes isPrintable text.length := by
  obtain ⟨owed', howed', rfl⟩ : ∃ owed', owed ++ ['%'] = '%' :: owed' ∧
      more = owed' ++ (pre ++ out) := by
    cases owed with
    | nil => exact ⟨[], rfl, (List.cons.inj heq).2.symm⟩
    | cons d owed =>
      obtain ⟨rfl, htail⟩ := List.cons.inj heq
      refine ⟨owed ++ ['%'], rfl, ?_⟩
      rw [List.append_assoc, List.singleton_append]
      exact htail.symm
  have hcons : Behind ('%' :: owed') :=
    howed' ▸ hbehind.concat not_opens_percent fun _ => by decide
  have hlag := hcons.lag_of_percent hpre
  cases hafter with
  | copy _ hrest =>
    refine ⟨text, _, args, _, le_rfl, hrest, hargs, hlag, ?_⟩
    rw [hmore]
    simp
  | fill hvalue hrest =>
    -- the `s` of the mark is left
    obtain ⟨c, v, rfl, hc⟩ := hvalue
    have hhead : (owed' ++ pre ++ c :: v).head? ≠ some 's' := by
      have hwrap := hlag.wrap (by simp)
      cases hfront : owed' ++ pre with
      | nil =>
        rintro ⟨⟩
        revert hc
        rintro (h | h | h) <;> cases h
      | cons d front => simpa [hfront] using hwrap
    refine absurd hmore ?_
    rw [← List.append_assoc, ← List.append_assoc]
    exact format_s_ne hhead (by simp)

/-- After a conversion the whole specification is owed. -/
theorem owes_of_conversion {pre shown more : List Char} (hbehind : Behind owed)
    (hpre : ∀ c ∈ pre, isSpecChar c = true) (hprecise : spec.precision.isSome = true → pre ≠ [])
    (hafter : Substitutes (spec.conversion :: text) out) (hargs : ∀ a ∈ args, IsValue a)
    (harg : IsValue arg) (hshown : converted isPrintable spec.conversion arg = some shown)
    (hmore : format isPrintable text args = some more)
    (heq : owed ++ '%' :: (pre ++ out) = spec.layOut shown ++ more) :
    Owes isPrintable text.length := by
  obtain ⟨hvalue, hpercent, hmark, hopens⟩ := isValue_converted hshown harg
  obtain ⟨out', rfl, hrest⟩ := hafter.cons_inv hpercent hmark
  rcases layOut_value spec hvalue with ⟨n, c, tail, hlayOut, hc⟩ | ⟨hsome, n, hlayOut⟩
  · -- a value is written where none is due
    rw [hlayOut, List.append_assoc] at heq
    obtain ⟨front, rfl, htext⟩ := replicate_append_eq (by decide) heq.symm
    cases front with
    | nil =>
      obtain rfl := (List.cons.inj htext).1
      exact absurd hc not_opens_percent
    | cons d front =>
      obtain rfl := (List.cons.inj htext).1
      exact absurd hc (hbehind.closed _ (by simp))
  · -- blanks are written for nothing
    rw [hlayOut] at heq
    obtain ⟨front, rfl, rfl⟩ := replicate_append_eq (by decide) heq.symm
    refine ⟨text, out', args, _, le_rfl, hrest, hargs,
      hbehind.right.lag_of_spec hpre (hprecise hsome) hopens hpercent, ?_⟩
    rw [hmore]
    simp

/-- A `%` of the text leaves something behind. -/
theorem owes_of_percent (hbehind : Behind owed) (hsub : Substitutes text out)
    (hargs : ∀ a ∈ args, IsValue a)
    (h : format isPrintable ('%' :: text) args = some (owed ++ '%' :: out)) :
    Owes isPrintable text.length := by
  obtain ⟨spec, rest, hspec, hcase⟩ := format_percent_eq_some h
  obtain ⟨pre, rfl, hpre, hprecise⟩ := readSpec_split hspec
  obtain ⟨out', rfl, hafter⟩ := hsub.append_inv hpre
  have hlength : rest.length ≤ (pre ++ spec.conversion :: rest).length := by
    simp only [List.length_append, List.length_cons]
    omega
  refine Owes.mono hlength ?_
  rcases hcase with ⟨hconversion, more, hmore, heq⟩ |
    ⟨arg, args', shown, more, rfl, hshown, hmore, heq⟩
  · rw [hconversion] at hafter
    exact owes_of_doubled hbehind hpre hafter hargs hmore heq
  · exact owes_of_conversion hbehind hpre hprecise hafter
      (fun a ha => hargs a (List.mem_cons_of_mem _ ha)) (hargs arg List.mem_cons_self) hshown hmore
      heq

/-- **What is owed is never made up for.** -/
theorem Lag.format_ne (hlag : Lag owed) (hsub : Substitutes text out)
    (hargs : ∀ a ∈ args, IsValue a) : format isPrintable text args ≠ some (owed ++ out) := by
  induction hn : text.length using Nat.strongRecOn generalizing text out owed args with
  | ind n ih =>
    subst hn
    intro h
    obtain ⟨d, owed, rfl⟩ := List.exists_cons_of_ne_nil (List.ne_nil_of_mem hlag.percent)
    cases hsub with
    | nil =>
      cases args with
      | nil =>
        rw [format] at h
        cases h
      | cons a args =>
        rw [format] at h
        cases h
    | @copy c text out hrest =>
      by_cases hc : c = '%'
      · subst hc
        obtain ⟨text', out', args', owed', hlength, hsub, hargs', hlag', hformat⟩ :=
          owes_of_percent hlag.toBehind hrest hargs h
        exact ih _ (Nat.lt_succ_of_le hlength) hlag' hsub hargs' rfl hformat
      · -- what is owed goes round
        rw [format, if_pos hc] at h
        obtain ⟨more, hmore, heq⟩ := Option.map_eq_some_iff.mp h
        obtain ⟨rfl, htail⟩ := List.cons.inj heq
        refine ih _ (Nat.lt_succ_self _) hlag.rotate hrest hargs rfl ?_
        rw [hmore, htail, List.append_assoc, List.singleton_append]
        rfl
    | @fill v text out hvalue hrest =>
      -- a value is put in
      cases args with
      | nil =>
        rw [format_percent_s_nil] at h
        cases h
      | cons a args =>
        rw [format_percent_s] at h
        obtain ⟨more, hmore, heq⟩ := Option.map_eq_some_iff.mp h
        obtain ⟨c, v', rfl, hc⟩ := hargs a List.mem_cons_self
        obtain rfl := (List.cons.inj heq).1
        exact hlag.closed _ List.mem_cons_self hc
    | @keep v text out hvalue hrest =>
      -- a mark stays
      rw [format, if_pos (by decide)] at h
      obtain ⟨more, hmore, heq⟩ := Option.map_eq_some_iff.mp h
      obtain rfl := (List.cons.inj heq).1
      exact hlag.closed _ List.mem_cons_self (.inr (.inr rfl))

/-- After a `%` of its own a text is never what is meant. -/
theorem format_percent_ne (hsub : Substitutes text out) (hargs : ∀ a ∈ args, IsValue a) :
    format isPrintable ('%' :: text) args ≠ some ('%' :: out) := by
  intro h
  have hbehind : Behind [] := ⟨by simp, List.isChain_nil⟩
  obtain ⟨text', out', args', owed', -, hsub', hargs', hlag, hformat⟩ :=
    owes_of_percent hbehind hsub hargs h
  exact hlag.format_ne hsub' hargs' hformat

end Lagging

end Formatting
end QueryCraft.PercentFormat
