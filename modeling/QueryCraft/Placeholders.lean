import QueryCraft.SqlText

/-! # Identity placeholders

A row filter is a text with placeholders such as `{user.email}`.  `bind_placeholders` puts the
driver's parameter tokens in their places and collects the values.  `_to_internal_placeholder`
turns these tokens into `?`, so that the filter can be parsed in any dialect, and
`_render_placeholders_for_driver` turns the `?` of the finished statement into tokens again.

The substitution of placeholders pays no attention to quotes; the other two copy quoted spans.
-/
namespace QueryCraft

variable {V : Type}

/-! ## Pieces of a filter -/

/-- `_ALLOWED_PLACEHOLDER_KEYS`. -/
def allowedPlaceholderKeys : List String := ["email", "subject_id", "role"]

/-- The characters of a key, `[a-zA-Z0-9_]`. -/
def isKeyChar (c : Char) : Bool := c.isAlphanum || c = '_'

/-- The key of a placeholder at the start of a text, and the text after it. -/
def placeholderAt : List Char → Option (List Char × List Char)
  | '{' :: 'u' :: 's' :: 'e' :: 'r' :: '.' :: rest =>
    match rest.dropWhile isKeyChar with
    | '}' :: after =>
      if rest.takeWhile isKeyChar = [] then none else some (rest.takeWhile isKeyChar, after)
    | _ => none
  | _ => none

theorem length_lt_of_placeholderAt {cs key rest : List Char}
    (h : placeholderAt cs = some (key, rest)) : rest.length < cs.length := by
  unfold placeholderAt at h
  split at h
  · rename_i after
    split at h
    · rename_i hdrop
      split at h
      · cases h
      · cases h
        have := (List.dropWhile_sublist (l := after) isKeyChar).length_le
        rw [hdrop] at this
        simp only [List.length_cons] at this ⊢
        omega
    · cases h
  · cases h

/-- A character of a filter, or a placeholder with its key. -/
inductive FilterPiece where
  | char (c : Char)
  | placeholder (key : String)
deriving DecidableEq, Repr

/-- The text, cut at the matches of `_PLACEHOLDER_RE`. -/
def filterPieces : List Char → List FilterPiece
  | [] => []
  | c :: cs =>
    match _h : placeholderAt (c :: cs) with
    | some (key, rest) => .placeholder (String.ofList key) :: filterPieces rest
    | none => .char c :: filterPieces cs
termination_by cs => cs.length
decreasing_by
  · exact length_lt_of_placeholderAt _h
  · simp

/-- The keys of the placeholders, in order. -/
def placeholderKeys (pieces : List FilterPiece) : List String :=
  pieces.filterMap fun
    | .char _ => none
    | .placeholder key => some key

/-- The text with something else in place of each placeholder. -/
def substitute (f : String → List Char) (pieces : List FilterPiece) : List Char :=
  pieces.flatMap fun
    | .char c => [c]
    | .placeholder key => f key

/-- The text with a `?` for each placeholder. -/
def markedText (pieces : List FilterPiece) : List Char := substitute (fun _ => ['?']) pieces

@[simp] theorem markedText_char {c : Char} {pieces : List FilterPiece} :
    markedText (.char c :: pieces) = c :: markedText pieces := rfl

@[simp] theorem markedText_placeholder {key : String} {pieces : List FilterPiece} :
    markedText (.placeholder key :: pieces) = '?' :: markedText pieces := rfl

/-! ## Binding -/

/-- The parameter tokens of a driver: `$1`, `%s` or `?`. -/
inductive DriverStyle where
  | numbered | percent | question
deriving DecidableEq, Repr

/-- `_DIALECT_PARAM_STYLE`, with the two kinds of positional tokens told apart. -/
def driverStyle (dialect : String) : Option DriverStyle :=
  match dialect with
  | "postgres" | "postgresql" => some .numbered
  | "mysql" => some .percent
  | "mssql" | "tsql" => some .question
  | _ => none

/-- `_placeholder_token`, for the parameter with the given number. -/
def DriverStyle.token : DriverStyle → Nat → List Char
  | .numbered, n => '$' :: Nat.toDigits 10 n
  | .percent, _ => ['%', 's']
  | .question, _ => ['?']

/-- The text with the tokens in place of the placeholders, numbered from `n`. -/
def boundText (style : DriverStyle) : Nat → List FilterPiece → List Char
  | _, [] => []
  | n, .char c :: pieces => c :: boundText style n pieces
  | n, .placeholder _ :: pieces => style.token n ++ boundText style (n + 1) pieces

/-- What `{user.*}` stands for; a value may be `None`. -/
abbrev UserContext (V : Type) := List (String × Option V)

/-- The value of a key: it is allowed and has one. -/
def UserContext.value? (context : UserContext V) (key : String) : Option V :=
  if allowedPlaceholderKeys.contains key then (context.lookup key).join else none

/-- The substitution in `bind_placeholders`, from the parameter with number `n` on. -/
def bindPieces (style : DriverStyle) (context : UserContext V) :
    Nat → List FilterPiece → Option (List Char × List V)
  | _, [] => some ([], [])
  | n, .char c :: pieces =>
    (bindPieces style context n pieces).map fun (sql, params) => (c :: sql, params)
  | n, .placeholder key :: pieces =>
    match context.value? key with
    | none => none
    | some v => (bindPieces style context (n + 1) pieces).map fun (sql, params) =>
        (style.token n ++ sql, v :: params)

/-- The text has a `{user.` left that is no placeholder. -/
def hasLeftover (sql : List Char) : Bool :=
  sql.tails.any ['{', 'u', 's', 'e', 'r', '.'].isPrefixOf

/-- `bind_placeholders`, with `start_index` one; `none` stands for
`ValueError("placeholder_binding_failed")`. -/
def bindPlaceholders (filterSql : List Char) (context : UserContext V) (dialect : String) :
    Option (List Char × List V) :=
  match driverStyle (lowerAscii dialect) with
  | none => none
  | some style =>
    match bindPieces style context 1 (filterPieces filterSql) with
    | none => none
    | some (sql, params) => if hasLeftover sql then none else some (sql, params)

/-! ## Rewriting the tokens -/

/-- `_replace_outside_strings_regex` of `?` by `$n`, `$n+1` and so on. -/
def numberMarks : Nat → List Char → List Char
  | _, [] => []
  | n, c :: rest =>
    if isQuote c then c :: (quotedSpan c rest).1 ++ numberMarks n (quotedSpan c rest).2
    else if c = '?' then DriverStyle.numbered.token n ++ numberMarks (n + 1) rest
    else c :: numberMarks n rest
termination_by _ cs => cs.length
decreasing_by
  · have := length_quotedSpan_le c rest
    simp only [List.length_cons]
    omega
  · simp
  · simp

/-- The tokens of a driver become `?`. -/
def DriverStyle.toInternal : DriverStyle → List Char → List Char
  | .numbered => replaceOutsideStringsRegex (subBindTokens ['?'])
  | .percent => replaceOutsideStrings ['%', 's'] ['?']
  | .question => id

/-- `_to_internal_placeholder`. -/
def toInternalPlaceholder (filterSql : List Char) (dialect : String) : List Char :=
  (driverStyle dialect).elim filterSql fun style => style.toInternal filterSql

/-- The `?` become tokens of a driver. -/
def DriverStyle.render : DriverStyle → Nat → List Char → List Char
  | .numbered, n => numberMarks n
  | .percent, _ => replaceOutsideStrings ['?'] ['%', 's']
  | .question, _ => id

/-- `_render_placeholders_for_driver`. -/
def renderPlaceholders (sql : List Char) (dialect : String) (startIndex : Nat) : List Char :=
  (driverStyle dialect).elim sql fun style => style.render startIndex sql

/-! ## What binding does -/

section Binding
variable {style : DriverStyle} {context : UserContext V}

/-- The bound text does not depend on the values. -/
theorem bindPieces_eq_some {pieces : List FilterPiece} : ∀ {n : Nat} {sql : List Char}
    {params : List V}, bindPieces style context n pieces = some (sql, params) ↔
      sql = boundText style n pieces ∧
        (placeholderKeys pieces).map context.value? = params.map some := by
  induction pieces with
  | nil =>
    intro n sql params
    simp only [bindPieces, boundText, placeholderKeys, List.filterMap_nil, List.map_nil,
      Option.some.injEq, Prod.mk.injEq]
    constructor
    · rintro ⟨rfl, rfl⟩
      exact ⟨rfl, rfl⟩
    · rintro ⟨rfl, hparams⟩
      exact ⟨rfl, (List.map_eq_nil_iff.mp hparams.symm).symm⟩
  | cons piece pieces ih =>
    intro n sql params
    cases piece with
    | char c =>
      simp only [bindPieces, Option.map_eq_some_iff, Prod.exists, ih, Prod.mk.injEq, boundText]
      constructor
      · rintro ⟨_, _, ⟨rfl, hkeys⟩, rfl, rfl⟩
        exact ⟨rfl, hkeys⟩
      · rintro ⟨rfl, hkeys⟩
        exact ⟨_, _, ⟨rfl, hkeys⟩, rfl, rfl⟩
    | placeholder key =>
      simp only [bindPieces, boundText]
      have hmap : (placeholderKeys (.placeholder key :: pieces)).map context.value? =
          context.value? key :: (placeholderKeys pieces).map context.value? := rfl
      rw [hmap]
      cases hv : context.value? key with
      | none => cases params <;> simp
      | some v =>
        simp only [Option.map_eq_some_iff, Prod.exists, ih, Prod.mk.injEq]
        constructor
        · rintro ⟨_, _, ⟨rfl, hkeys⟩, rfl, rfl⟩
          exact ⟨rfl, by rw [hkeys, List.map_cons]⟩
        · rintro ⟨rfl, hkeys⟩
          cases params with
          | nil => cases hkeys
          | cons v' params =>
            obtain ⟨hv', hrest⟩ := List.cons.inj hkeys
            obtain rfl := Option.some.inj hv'
            exact ⟨_, _, ⟨rfl, hrest⟩, rfl, rfl⟩

/-- Binding succeeds if the dialect is known, every key has a value, and nothing is left. -/
theorem bindPlaceholders_eq_some {filterSql : List Char} {dialect : String} {sql : List Char}
    {params : List V} : bindPlaceholders filterSql context dialect = some (sql, params) ↔
      ∃ style, driverStyle (lowerAscii dialect) = some style ∧
        sql = boundText style 1 (filterPieces filterSql) ∧
        (placeholderKeys (filterPieces filterSql)).map context.value? = params.map some ∧
        hasLeftover sql = false := by
  unfold bindPlaceholders
  cases driverStyle (lowerAscii dialect) with
  | none => simp
  | some style =>
    simp only [Option.some.injEq, exists_eq_left']
    cases hbind : bindPieces style context 1 (filterPieces filterSql) with
    | none =>
      have : ∀ params, ¬ bindPieces style context 1 (filterPieces filterSql) =
          some (boundText style 1 (filterPieces filterSql), params) := by simp [hbind]
      simp only [bindPieces_eq_some, true_and] at this
      simp [this]
    | some bound =>
      obtain ⟨sql', params'⟩ := bound
      obtain ⟨rfl, hkeys⟩ := bindPieces_eq_some.mp hbind
      rw [hkeys, List.map_inj_right fun _ _ => Option.some.inj]
      by_cases hleft : hasLeftover (boundText style 1 (filterPieces filterSql)) = true
      · simp only [hleft, if_true, reduceCtorEq, false_iff]
        rintro ⟨rfl, -, hno⟩
        exact absurd hleft (by simp [hno])
      · simp only [hleft, Bool.false_eq_true, if_false, Option.some.injEq, Prod.mk.injEq]
        constructor
        · rintro ⟨rfl, rfl⟩
          exact ⟨rfl, rfl, by simpa using hleft⟩
        · rintro ⟨rfl, rfl, -⟩
          exact ⟨rfl, rfl⟩

end Binding

/-! ## The rewriters, character by character -/

/-- A token of the driver starts the text. -/
def DriverStyle.startsToken : DriverStyle → List Char → Bool
  | .numbered, c :: d :: _ => c == '$' && isDecimal d
  | .percent, c :: d :: _ => c == '%' && d == 's'
  | _, _ => false

/-- The text after the token at its start. -/
def DriverStyle.afterToken : DriverStyle → List Char → List Char
  | .numbered, cs => cs.tail.dropWhile isDecimal
  | _, cs => cs.drop 2

section Scanning
variable {c : Char} {rest : List Char}

theorem isQuote_of_isDecimal (h : isDecimal c = true) : isQuote c = false := by
  by_contra hc
  simp only [isQuote, Bool.not_eq_false, Bool.or_eq_true, beq_iff_eq] at hc
  rcases hc with rfl | rfl
  · revert h
    decide
  · revert h
    decide

theorem isDecimal_of_mem_toDigits {n : Nat} (h : c ∈ Nat.toDigits 10 n) : isDecimal c = true := by
  have hdigit := Nat.isDigit_of_mem_toDigits (by decide) (by decide) h
  simp only [Char.isDigit, Bool.and_eq_true, decide_eq_true_eq] at hdigit
  rw [isDecimal, List.any_eq_true]
  refine ⟨48, by decide, ?_⟩
  have hlow := UInt32.le_iff_toNat_le.mp hdigit.1
  have hhigh := UInt32.le_iff_toNat_le.mp hdigit.2
  simp only [Char.toNat, Bool.and_eq_true, decide_eq_true_eq]
  exact ⟨hlow, Nat.lt_succ_of_le hhigh⟩

/-- Digits before a quote can be dropped first. -/
theorem takeWhile_dropWhile_decimal (cs : List Char) :
    (cs.takeWhile (!isQuote ·)).dropWhile isDecimal =
      (cs.dropWhile isDecimal).takeWhile (!isQuote ·) := by
  induction cs with
  | nil => rfl
  | cons d cs ih =>
    by_cases hd : isDecimal d = true
    · simp [isQuote_of_isDecimal hd, hd, ih]
    · by_cases hq : isQuote d = true
      · simp [hq, hd]
      · simp [hq, hd]

theorem dropWhile_dropWhile_decimal (cs : List Char) :
    (cs.dropWhile isDecimal).dropWhile (!isQuote ·) = cs.dropWhile (!isQuote ·) := by
  induction cs with
  | nil => rfl
  | cons d cs ih =>
    by_cases hd : isDecimal d = true
    · simp [isQuote_of_isDecimal hd, hd, ih]
    · simp [hd]

theorem subBindTokens_plain {replacement : List Char}
    (h : DriverStyle.numbered.startsToken (c :: rest) = false) :
    subBindTokens replacement (c :: rest) = c :: subBindTokens replacement rest := by
  rw [subBindTokens, if_neg]
  rintro ⟨rfl, hdigits⟩
  cases rest with
  | nil => exact hdigits rfl
  | cons d rest =>
    simp only [DriverStyle.startsToken, beq_self_eq_true, Bool.true_and] at h
    simp [h] at hdigits

theorem subBindTokens_token {replacement : List Char}
    (h : DriverStyle.numbered.startsToken (c :: rest) = true) :
    subBindTokens replacement (c :: rest) =
      replacement ++ subBindTokens replacement (rest.dropWhile isDecimal) := by
  cases rest with
  | nil => cases h
  | cons d rest =>
    simp only [DriverStyle.startsToken, Bool.and_eq_true, beq_iff_eq] at h
    rw [subBindTokens, if_pos]
    exact ⟨h.1, by simp [h.2]⟩

/-- What a token looks like does not depend on the text after the next quote. -/
theorem startsToken_takeWhile :
    DriverStyle.numbered.startsToken (c :: rest.takeWhile (!isQuote ·)) =
      DriverStyle.numbered.startsToken (c :: rest) := by
  cases rest with
  | nil => rfl
  | cons d rest =>
    by_cases hd : isQuote d = true
    · have : isDecimal d = false := by
        by_contra hdec
        rw [isQuote_of_isDecimal (by simpa using hdec)] at hd
        cases hd
      simp [hd, DriverStyle.startsToken, this]
    · simp [hd, DriverStyle.startsToken]

/-- What a rewriter of the tokens of a driver does at each place of a text. -/
structure ConvertsTokens (style : DriverStyle) (rewrite : List Char → List Char) : Prop where
  copies : CopiesSpans rewrite
  nil : rewrite [] = []
  plain : ∀ c rest, isQuote c = false → style.startsToken (c :: rest) = false →
    rewrite (c :: rest) = c :: rewrite rest
  token : ∀ cs, style.startsToken cs = true → rewrite cs = '?' :: rewrite (style.afterToken cs)

/-- `_to_internal_placeholder` is such a rewriter. -/
theorem convertsTokens_toInternal : ∀ style : DriverStyle, ConvertsTokens style style.toInternal
  | .numbered => by
    refine ⟨copiesSpans_replaceOutsideStringsRegex _, by simp [DriverStyle.toInternal,
      replaceOutsideStringsRegex], fun c rest hc hstart => ?_, fun cs hstart => ?_⟩
    · rw [DriverStyle.toInternal, replaceOutsideStringsRegex, if_neg (by simp [hc]),
        subBindTokens_plain (by rw [startsToken_takeWhile, hstart]),
        replaceOutsideStringsRegex_split (by rw [subBindTokens]) rest, List.cons_append]
    · cases cs with
      | nil => cases hstart
      | cons c rest =>
        have hc : isQuote c = false := by
          cases rest with
          | nil => cases hstart
          | cons d rest =>
            simp only [DriverStyle.startsToken, Bool.and_eq_true, beq_iff_eq] at hstart
            rw [hstart.1]
            decide
        rw [DriverStyle.toInternal, replaceOutsideStringsRegex, if_neg (by simp [hc]),
          subBindTokens_token (by rw [startsToken_takeWhile, hstart]), DriverStyle.afterToken,
          List.tail_cons, replaceOutsideStringsRegex_split (by rw [subBindTokens])
          (rest.dropWhile isDecimal), takeWhile_dropWhile_decimal, dropWhile_dropWhile_decimal,
          List.append_assoc, List.singleton_append]
  | .percent => by
    refine ⟨copiesSpans_replaceOutsideStrings _ _, by simp [DriverStyle.toInternal,
      replaceOutsideStrings], fun c rest hc hstart => ?_, fun cs hstart => ?_⟩
    · rw [DriverStyle.toInternal, replaceOutsideStrings, if_neg (by simp [hc]), if_neg]
      rintro ⟨-, hprefix⟩
      cases rest with
      | nil => simp at hprefix
      | cons d rest =>
        simp only [List.isPrefixOf_cons_cons, List.isPrefixOf_nil_left, Bool.and_true,
          Bool.and_eq_true, beq_iff_eq] at hprefix
        simp [DriverStyle.startsToken, ← hprefix.1, ← hprefix.2] at hstart
    · rcases cs with _ | ⟨c, _ | ⟨d, rest⟩⟩
      · cases hstart
      · cases hstart
      · simp only [DriverStyle.startsToken, Bool.and_eq_true, beq_iff_eq] at hstart
        obtain ⟨rfl, rfl⟩ := hstart
        rw [DriverStyle.toInternal, replaceOutsideStrings, if_neg (by decide), if_pos (by simp)]
        rfl
  | .question =>
    ⟨copiesSpans_id, rfl, fun _ _ _ _ => rfl, fun cs hstart => by cases cs <;> cases hstart⟩

/-- What a renderer of the marks does at each place of a text. -/
structure RendersMarks (style : DriverStyle) (render : Nat → List Char → List Char) : Prop where
  copies : ∀ n, CopiesSpans (render n)
  nil : ∀ n, render n [] = []
  plain : ∀ n c rest, isQuote c = false → c ≠ '?' → render n (c :: rest) = c :: render n rest
  mark : ∀ n rest, render n ('?' :: rest) = style.token n ++ render (n + 1) rest

/-- `_render_placeholders_for_driver` is such a renderer. -/
theorem rendersMarks_render : ∀ style : DriverStyle, RendersMarks style style.render
  | .numbered => by
    refine ⟨fun n q rest hq => ?_, fun n => by simp [DriverStyle.render, numberMarks],
      fun n c rest hc hmark => ?_, fun n rest => ?_⟩
    · rw [DriverStyle.render, numberMarks, if_pos hq, rewriteFrom, List.cons_append]
    · rw [DriverStyle.render, numberMarks, if_neg (by simp [hc]), if_neg hmark]
    · rw [DriverStyle.render, DriverStyle.render, numberMarks, if_neg (by decide), if_pos rfl]
  | .percent => by
    refine ⟨fun _ => copiesSpans_replaceOutsideStrings _ _, fun n => by
      simp [DriverStyle.render, replaceOutsideStrings], fun n c rest hc hmark => ?_,
      fun n rest => ?_⟩
    · rw [DriverStyle.render, replaceOutsideStrings, if_neg (by simp [hc]), if_neg]
      rintro ⟨-, hprefix⟩
      simp only [List.isPrefixOf_cons_cons, List.isPrefixOf_nil_left, Bool.and_true,
        beq_iff_eq] at hprefix
      exact hmark hprefix.symm
    · rw [DriverStyle.render, replaceOutsideStrings, if_neg (by decide), if_pos (by simp)]
      rfl
  | .question => ⟨fun _ => copiesSpans_id, fun _ => rfl, fun _ _ _ _ _ => rfl, fun _ _ => rfl⟩

end Scanning
end QueryCraft
