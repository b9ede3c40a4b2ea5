import QueryCraft.FilterValidation

/-! # Counting placeholders

`_prepare_row_filter` puts the tokens of the driver in the places of the identity placeholders
and turns these tokens into `?`; after injection `_render_placeholders_for_driver` turns the `?`
of the statement into tokens.  Each `?` outside quoted spans should stand for one placeholder,
and each placeholder for one bound value.

The tokens are put in without regard to quotes, and turned into `?` only outside of them.
`placeholder_count_iff` says which texts come out right.
-/
namespace QueryCraft

variable {V : Type}

open SyntaxTree

/-! ## Numbers of existing parameters -/

/-- The number of a parameter such as `$1`. -/
def parameterIndex (param : FilterTree) : Option Nat :=
  match param.arg? "this" with
  | some (.node ⟨.literal false text, _⟩ _) => text.toNat?
  | _ => none

/-- The numbers of the parameters in a statement. -/
def parameterIndices (stmt : FilterTree) : List Nat :=
  (stmt.walk.filter (·.cls.kind = .parameter)).filterMap parameterIndex

/-- `_SQLGLOT_DIALECT`. -/
def sqlglotDialect? (dialect : String) : Option String :=
  match dialect with
  | "postgres" | "postgresql" => some "postgres"
  | "mysql" => some "mysql"
  | "mssql" | "tsql" => some "tsql"
  | _ => none

/-- `_next_postgres_index`. -/
def nextPostgresIndex (stmt : FilterTree) (dialect : String) : Nat :=
  if dialect ≠ "postgres" then 1
  else (parameterIndices stmt).foldl (fun maxIndex idx => max maxIndex idx) 0 + 1

/-! ## What is counted -/

/-- The characters of a text that are a `?` outside quoted spans. -/
def questionMarks : Option Char → List Char → List Bool
  | _, [] => []
  | quote, c :: cs => (quote.isNone && c == '?') :: questionMarks (nextQuote quote c) cs

/-- The pieces that are placeholders. -/
def FilterPiece.isPlaceholder : FilterPiece → Bool
  | .char _ => false
  | .placeholder _ => true

/-- The internal SQL is the filter with a `?` in place of each placeholder; these are its `?`
outside quoted spans, and there are as many as bound values. -/
structure CountsPlaceholders (pieces : List FilterPiece) (internalSql : List Char)
    (params : List V) : Prop where
  text : internalSql = markedText pieces
  marks : questionMarks none internalSql = pieces.map FilterPiece.isPlaceholder
  count : (questionMarks none internalSql).count true = params.length

/-- The literal characters of a filter up to its next placeholder. -/
def literalStart : List FilterPiece → List Char
  | .char c :: pieces => c :: literalStart pieces
  | _ => []

/-- The filter can be bound and read back, from a place with the given open quote on: its
placeholders stand outside quoted spans, and its own text has outside of them no `?` and
nothing that reads as a token, nor makes a token longer.  `style` is that of the tokens that
are put in, and `converts` that of the tokens that are turned into `?`. -/
def ReadsBack (style converts : DriverStyle) : Option Char → List FilterPiece → Prop
  | _, [] => True
  | some quote, .char c :: pieces => ReadsBack style converts (nextQuote (some quote) c) pieces
  | none, .char c :: pieces =>
    c ≠ '?' ∧ converts.startsToken (c :: literalStart pieces) = false ∧
      ReadsBack style converts (nextQuote none c) pieces
  | some _, .placeholder _ :: _ => False
  | none, .placeholder _ :: pieces =>
    converts = style ∧
      (style = .numbered → (literalStart pieces).head?.all (!isDecimal ·) = true) ∧
      ReadsBack style converts none pieces

instance decidableReadsBack (style converts : DriverStyle) : ∀ quote pieces,
    Decidable (ReadsBack style converts quote pieces)
  | none, [] => isTrue trivial
  | some _, [] => isTrue trivial
  | some quote, .char c :: pieces =>
    decidableReadsBack style converts (nextQuote (some quote) c) pieces
  | none, .char c :: pieces =>
    have := decidableReadsBack style converts (nextQuote none c) pieces
    inferInstanceAs (Decidable (_ ∧ _ ∧ _))
  | some _, .placeholder _ :: _ => isFalse id
  | none, .placeholder _ :: pieces =>
    have := decidableReadsBack style converts none pieces
    inferInstanceAs (Decidable (_ ∧ _ ∧ _))

/-- The placeholders stand outside quoted spans. -/
def PlaceholdersOutside : Option Char → List FilterPiece → Prop
  | _, [] => True
  | quote, .char c :: pieces => PlaceholdersOutside (nextQuote quote c) pieces
  | quote, .placeholder _ :: pieces => quote = none ∧ PlaceholdersOutside none pieces

instance decidablePlaceholdersOutside : ∀ quote pieces,
    Decidable (PlaceholdersOutside quote pieces)
  | none, [] => isTrue trivial
  | some _, [] => isTrue trivial
  | quote, .char c :: pieces => decidablePlaceholdersOutside (nextQuote quote c) pieces
  | quote, .placeholder _ :: pieces =>
    have := decidablePlaceholdersOutside none pieces
    inferInstanceAs (Decidable (quote = none ∧ _))

/-- The style of the tokens that are put in. -/
def tokenStyle (dialect : String) : DriverStyle :=
  (driverStyle (lowerAscii dialect)).getD .question

/-- The style of the tokens that are turned into `?`.  The dialect is not lower-cased here. -/
def readStyle (dialect : String) : DriverStyle := (driverStyle dialect).getD .question

/-- One more than the greatest index in use. -/
def IsNextIndex (existing : List Nat) (start : Nat) : Prop :=
  (∀ i ∈ existing, i < start) ∧ (start = 1 ∨ start - 1 ∈ existing)

/-- The renderer turns the placeholders of a rewritten statement into tokens, numbered on from
the greatest index in use, and changes nothing else. -/
structure RendersPlaceholders (stmt : FilterTree) (dialect : String) (out : List FilterPiece) :
    Prop where
  start : tokenStyle dialect = .numbered →
    IsNextIndex (parameterIndices stmt) (nextPostgresIndex stmt "postgres")
  text : ∀ name, sqlglotDialect? (lowerAscii dialect) = some name →
    renderPlaceholders (markedText out) (lowerAscii dialect) (nextPostgresIndex stmt name) =
      boundText (tokenStyle dialect) (nextPostgresIndex stmt name) out

/-- The text has no `?` of its own outside quoted spans. -/
def NoOwnMarks : Option Char → List FilterPiece → Prop
  | _, [] => True
  | quote, .char c :: pieces => (quote = none → c ≠ '?') ∧ NoOwnMarks (nextQuote quote c) pieces
  | quote, .placeholder _ :: pieces => NoOwnMarks quote pieces

instance decidableNoOwnMarks : ∀ quote pieces, Decidable (NoOwnMarks quote pieces)
  | none, [] => isTrue trivial
  | some _, [] => isTrue trivial
  | quote, .char c :: pieces =>
    have := decidableNoOwnMarks (nextQuote quote c) pieces
    inferInstanceAs (Decidable ((quote = none → c ≠ '?') ∧ _))
  | quote, .placeholder _ :: pieces => decidableNoOwnMarks quote pieces

/-! ## The internal SQL -/

section Internal
variable {style converts : DriverStyle} {c : Char} {n : Nat} {pieces : List FilterPiece}

/-- A token starts with a character that is no digit, no quote and no `s`. -/
theorem token_eq_cons (style : DriverStyle) (n : Nat) : ∃ t ts, style.token n = t :: ts ∧
    (t = '?' ↔ style = .question) ∧ isDecimal t = false ∧ isQuote t = false ∧ t ≠ 's' := by
  cases style with
  | numbered => exact ⟨'$', _, rfl, by decide, by decide, by decide, by decide⟩
  | percent => exact ⟨'%', _, rfl, by decide, by decide, by decide, by decide⟩
  | question => exact ⟨'?', _, rfl, by decide, by decide, by decide, by decide⟩

/-- Whether a token starts at a character of the filter is seen from the literal text. -/
theorem startsToken_boundText : converts.startsToken (c :: boundText style n pieces) =
    converts.startsToken (c :: literalStart pieces) := by
  cases pieces with
  | nil => rfl
  | cons piece pieces =>
    cases piece with
    | char d => cases converts <;> rfl
    | placeholder key =>
      obtain ⟨t, ts, htoken, -, hdecimal, -, hs⟩ := token_eq_cons style n
      simp only [boundText, literalStart, htoken, List.cons_append]
      cases converts with
      | numbered => simp [DriverStyle.startsToken, hdecimal]
      | percent => simp [DriverStyle.startsToken, hs]
      | question => rfl

/-- No token starts with a `?`. -/
theorem ne_question_of_startsToken {rest : List Char}
    (h : converts.startsToken (c :: rest) = true) : c ≠ '?' := by
  rintro rfl
  cases rest with
  | nil => cases converts <;> cases h
  | cons d rest => cases converts <;> simp [DriverStyle.startsToken] at h

theorem startsToken_of_isQuote (converts : DriverStyle) (hc : isQuote c = true)
    (rest : List Char) : converts.startsToken (c :: rest) = false := by
  simp only [isQuote, Bool.or_eq_true, beq_iff_eq] at hc
  cases rest with
  | nil => cases converts <;> rfl
  | cons d rest =>
    rcases hc with rfl | rfl
    · cases converts <;> rfl
    · cases converts <;> rfl

theorem head_boundText : ((boundText style n pieces).head?.all (!isDecimal ·)) =
    (literalStart pieces).head?.all (!isDecimal ·) := by
  cases pieces with
  | nil => rfl
  | cons piece pieces =>
    cases piece with
    | char d => rfl
    | placeholder key =>
      obtain ⟨t, ts, htoken, -, hdecimal, -⟩ := token_eq_cons style n
      simp [boundText, literalStart, htoken, hdecimal]

theorem head_markedText : ((markedText pieces).head?.all (!isDecimal ·)) =
    (literalStart pieces).head?.all (!isDecimal ·) := by
  cases pieces with
  | nil => rfl
  | cons piece pieces => cases piece <;> rfl

theorem head_dropWhile_decimal (cs : List Char) :
    (cs.dropWhile isDecimal).head?.all (!isDecimal ·) = true := by
  induction cs with
  | nil => rfl
  | cons c cs ih =>
    by_cases hc : isDecimal c = true
    · rw [List.dropWhile_cons_of_pos hc, ih]
    · rw [List.dropWhile_cons_of_neg hc]
      simpa using hc

/-- The first character of the rewritten text is the first of the text, or a `?`. -/
theorem head_toInternal {cs : List Char} (h : cs.head?.all (!isDecimal ·) = true) :
    (converts.toInternal cs).head?.all (!isDecimal ·) = true := by
  have hconv := convertsTokens_toInternal converts
  cases cs with
  | nil => rw [hconv.nil]; rfl
  | cons c rest =>
    by_cases hstart : converts.startsToken (c :: rest) = true
    · rw [hconv.token _ hstart]
      rfl
    · by_cases hc : isQuote c = true
      · rw [hconv.copies c rest hc]
        exact h
      · rw [hconv.plain c rest (by simpa using hc) (by simpa using hstart)]
        exact h

/-- A token is turned into `?`, with the digits that follow it. -/
theorem toInternal_token (rest : List Char) : style.toInternal (style.token n ++ rest) =
    '?' :: style.toInternal (if style = .numbered then rest.dropWhile isDecimal else rest) := by
  have hconv := convertsTokens_toInternal style
  cases style with
  | numbered =>
    have hdigits : ∀ c ∈ Nat.toDigits 10 n, isDecimal c = true := fun c =>
      isDecimal_of_mem_toDigits
    obtain ⟨d, ds, hd⟩ := List.exists_cons_of_ne_nil (@Nat.toDigits_ne_nil n 10)
    rw [hconv.token]
    · simp only [DriverStyle.token, DriverStyle.afterToken, List.cons_append, List.tail_cons,
        if_true]
      rw [List.dropWhile_append_of_pos hdigits]
    · simp only [DriverStyle.token, hd, List.cons_append, DriverStyle.startsToken,
        beq_self_eq_true, Bool.true_and]
      exact hdigits d (by rw [hd]; exact List.mem_cons_self)
  | percent =>
    rw [hconv.token _ (by simp [DriverStyle.token, DriverStyle.startsToken])]
    rfl
  | question => rfl

/-- Where no digit follows, the text after a token is as it was. -/
theorem boundText_unchanged
    (h : style = .numbered → (literalStart pieces).head?.all (!isDecimal ·) = true) :
    (if style = .numbered then (boundText style n pieces).dropWhile isDecimal
      else boundText style n pieces) = boundText style n pieces := by
  split
  · rename_i hnumbered
    have hhead : (boundText style n pieces).head?.all (!isDecimal ·) = true := by
      rw [head_boundText, h hnumbered]
    cases htext : boundText style n pieces with
    | nil => rfl
    | cons c rest =>
      rw [htext] at hhead
      rw [List.dropWhile_cons_of_neg (by simpa using hhead)]
  · rfl

theorem isQuote_of_nextQuote {quote : Option Char} (hquote : ∀ q, quote = some q → isQuote q = true)
    {q : Char} (h : nextQuote quote c = some q) : isQuote q = true := by
  cases quote with
  | none =>
    simp only [nextQuote] at h
    split at h
    · rename_i hc
      obtain rfl := Option.some.inj h
      exact hc
    · cases h
  | some q' =>
    simp only [nextQuote] at h
    split at h
    · cases h
    · obtain rfl := Option.some.inj h
      exact hquote _ rfl

/-- The place at which a filter goes wrong shows in the internal SQL. -/
theorem readsBack_iff (hconverts : converts = style ∨ converts = .question)
    {quote : Option Char} (hquote : ∀ q, quote = some q → isQuote q = true) :
    (rewriteFrom converts.toInternal quote (boundText style n pieces) = markedText pieces ∧
      questionMarks quote (markedText pieces) = pieces.map FilterPiece.isPlaceholder) ↔
        ReadsBack style converts quote pieces := by
  have hconv := convertsTokens_toInternal converts
  induction pieces generalizing quote n with
  | nil =>
    cases quote with
    | none => simp [rewriteFrom, boundText, markedText, substitute, hconv.nil, questionMarks,
        ReadsBack]
    | some q => simp [rewriteFrom, boundText, markedText, substitute, quotedSpan, hconv.nil,
        questionMarks, ReadsBack]
  | cons piece pieces ih =>
    cases piece with
    | char c =>
      have hih := ih (n := n) (fun q => isQuote_of_nextQuote (c := c) hquote)
      cases quote with
      | some q =>
        rw [boundText, rewriteFrom_some hconv.copies (hquote q rfl), ReadsBack, ← propext hih]
        simp [questionMarks, FilterPiece.isPlaceholder]
      | none =>
        rw [ReadsBack, ← propext hih]
        by_cases hc : isQuote c = true
        · -- the quote opens a span
          have hmark : c ≠ '?' := by
            rintro rfl
            cases hc
          have hstart := startsToken_of_isQuote converts hc (literalStart pieces)
          rw [boundText, rewriteFrom, rewrite_quote hconv.copies hc]
          simp [questionMarks, FilterPiece.isPlaceholder, hmark, hstart]
        · have hnext : nextQuote none c = none := by simp [nextQuote, hc]
          rw [boundText, rewriteFrom, hnext, rewriteFrom]
          by_cases hstart : converts.startsToken (c :: literalStart pieces) = true
          · -- the token in the text becomes a mark
            rw [hconv.token _ (by rw [startsToken_boundText, hstart])]
            have hmark := ne_question_of_startsToken hstart
            simp [hstart, hmark.symm]
          · rw [hconv.plain _ _ (by simpa using hc)
              (by rw [startsToken_boundText]; simpa using hstart)]
            simp only [markedText_char, List.cons.injEq, true_and, questionMarks, hnext,
              List.map_cons, FilterPiece.isPlaceholder, Option.isNone_none, Bool.true_and,
              beq_eq_false_iff_ne]
            simp only [hstart, true_and]
            exact and_left_comm
    | placeholder key =>
      cases quote with
      | some q =>
        -- the mark is not counted inside a span
        simp [ReadsBack, questionMarks, FilterPiece.isPlaceholder]
      | none =>
        have hih := ih (n := n + 1) hquote
        have hmarks : questionMarks none (markedText (.placeholder key :: pieces)) =
            true :: questionMarks none (markedText pieces) := rfl
        rw [ReadsBack, boundText, rewriteFrom, hmarks, ← propext hih]
        by_cases hsame : converts = style
        · subst hsame
          rw [toInternal_token]
          simp only [markedText_placeholder, List.map_cons, FilterPiece.isPlaceholder,
            List.cons.injEq, true_and]
          by_cases hdigit : converts = .numbered → (literalStart pieces).head?.all (!isDecimal ·)
          · rw [and_iff_right hdigit, boundText_unchanged hdigit]
            rfl
          · -- the digits that follow are lost
            rw [Classical.not_imp] at hdigit
            have hlost : converts.toInternal (if converts = .numbered then
                (boundText converts (n + 1) pieces).dropWhile isDecimal
                else boundText converts (n + 1) pieces) ≠ markedText pieces := by
              intro h
              apply hdigit.2
              rw [← head_markedText, ← h, if_pos hdigit.1]
              exact head_toInternal (head_dropWhile_decimal _)
            constructor
            · exact fun h => absurd h.1 hlost
            · exact fun h => absurd (h.1 hdigit.1) hdigit.2
        · obtain ⟨t, ts, htoken, hquestion, -, -, -⟩ := token_eq_cons style n
          obtain rfl := hconverts.resolve_left hsame
          have ht : t ≠ '?' := fun h => hsame (hquestion.mp h).symm
          simp [hsame, htoken, DriverStyle.toInternal, ht]

end Internal

/-! ## The rendered statement -/

section Rendered
variable {style : DriverStyle} {n : Nat} {out : List FilterPiece}

theorem boundText_question : boundText .question n out = markedText out := by
  induction out generalizing n with
  | nil => rfl
  | cons piece out ih =>
    cases piece with
    | char c => rw [boundText, ih, markedText_char]
    | placeholder key => rw [boundText, ih]; rfl

/-- A placeholder inside a quoted span stays a `?`, and a `?` outside of them does not. -/
theorem renders_iff (hstyle : style ≠ .question) {quote : Option Char}
    (hquote : ∀ q, quote = some q → isQuote q = true) :
    rewriteFrom (style.render n) quote (markedText out) = boundText style n out ↔
      NoOwnMarks quote out ∧ PlaceholdersOutside quote out := by
  have hrender := rendersMarks_render style
  induction out generalizing quote n with
  | nil =>
    cases quote with
    | none => simp [rewriteFrom, boundText, markedText, substitute, hrender.nil, NoOwnMarks,
        PlaceholdersOutside]
    | some q => simp [rewriteFrom, boundText, markedText, substitute, quotedSpan, hrender.nil,
        NoOwnMarks, PlaceholdersOutside]
  | cons piece out ih =>
    cases piece with
    | char c =>
      have hih := ih (n := n) (fun q => isQuote_of_nextQuote (c := c) hquote)
      rw [markedText_char, boundText, NoOwnMarks, PlaceholdersOutside, and_assoc, ← propext hih]
      cases quote with
      | some q => simp [rewriteFrom_some (hrender.copies n) (hquote q rfl)]
      | none =>
        by_cases hc : isQuote c = true
        · have hmark : c ≠ '?' := by
            rintro rfl
            cases hc
          rw [rewriteFrom, rewrite_quote (hrender.copies n) hc]
          simp [hmark]
        · have hnext : nextQuote none c = none := by simp [nextQuote, hc]
          rw [rewriteFrom, hnext, rewriteFrom]
          by_cases hmark : c = '?'
          · -- the mark becomes a token
            subst hmark
            obtain ⟨t, ts, htoken, hquestion, -⟩ := token_eq_cons style n
            have ht : t ≠ '?' := fun h => hstyle (hquestion.mp h)
            rw [hrender.mark, htoken]
            simp [ht]
          · rw [hrender.plain n c _ (by simpa using hc) hmark]
            simp [hmark]
    | placeholder key =>
      rw [markedText_placeholder, boundText, NoOwnMarks, PlaceholdersOutside]
      cases quote with
      | some q =>
        -- the mark is copied
        obtain ⟨t, ts, htoken, hquestion, -⟩ := token_eq_cons style n
        have ht : '?' ≠ t := fun h => hstyle (hquestion.mp h.symm)
        rw [rewriteFrom_some (hrender.copies n) (hquote q rfl), htoken]
        simp [ht]
      | none =>
        have hih := ih (n := n + 1) hquote
        rw [rewriteFrom, hrender.mark, List.append_cancel_left_eq, and_left_comm, ← propext hih,
          rewriteFrom, and_iff_right rfl]

/-- A dialect's rendering is what is meant if its driver takes `?`, or if the `?` outside of
quoted spans are the placeholders. -/
theorem renderPlaceholders_iff {dialect : String} (hknown : driverStyle dialect = some style) :
    renderPlaceholders (markedText out) dialect n = boundText style n out ↔
      style = .question ∨ NoOwnMarks none out ∧ PlaceholdersOutside none out := by
  rw [renderPlaceholders, hknown, Option.elim_some]
  by_cases hquestion : style = .question
  · subst hquestion
    simp [boundText_question, DriverStyle.render]
  · rw [or_iff_right hquestion, ← propext (renders_iff hquestion (n := n) (by simp)), rewriteFrom]

end Rendered

/-! ## The two together -/

section Count
variable {context : UserContext V} {filterSql sql : List Char} {dialect : String}
  {params : List V}

theorem foldl_max_eq (existing : List Nat) (m : Nat) :
    let greatest := existing.foldl (fun maxIndex idx => max maxIndex idx) m
    m ≤ greatest ∧ (∀ i ∈ existing, i ≤ greatest) ∧ (greatest = m ∨ greatest ∈ existing) := by
  induction existing generalizing m with
  | nil => simp
  | cons i existing ih =>
    obtain ⟨hstart, hall, hmem⟩ := ih (max m i)
    simp only [List.foldl_cons, List.mem_cons, forall_eq_or_imp]
    refine ⟨by omega, ⟨by omega, hall⟩, ?_⟩
    rcases hmem with hmem | hmem
    · rw [hmem]
      omega
    · exact .inr (.inr hmem)

theorem isNextIndex_nextPostgresIndex (stmt : FilterTree) :
    IsNextIndex (parameterIndices stmt) (nextPostgresIndex stmt "postgres") := by
  obtain ⟨-, hall, hmem⟩ := foldl_max_eq (parameterIndices stmt) 0
  rw [nextPostgresIndex, if_neg (by simp)]
  refine ⟨fun i hi => Nat.lt_succ_of_le (hall i hi), ?_⟩
  rcases hmem with hmem | hmem
  · exact .inl (by rw [hmem])
  · exact .inr (by simpa using hmem)

theorem driverStyle_lowerAscii {style : DriverStyle} (h : driverStyle dialect = some style) :
    driverStyle (lowerAscii dialect) = some style := by
  unfold driverStyle at h
  split at h
  · cases h
    decide
  · cases h
    decide
  · cases h
    decide
  · cases h
    decide
  · cases h
    decide
  · cases h

theorem readStyle_cases (dialect : String) :
    readStyle dialect = tokenStyle dialect ∨ readStyle dialect = .question := by
  unfold readStyle tokenStyle
  cases h : driverStyle dialect with
  | none => exact .inr rfl
  | some style => exact .inl (by rw [driverStyle_lowerAscii h])

/-- The dialects that have a parameter style are those that have a parser. -/
theorem exists_sqlglotDialect (h : (driverStyle dialect).isSome = true) :
    ∃ name, sqlglotDialect? dialect = some name := by
  unfold driverStyle at h
  split at h
  · exact ⟨_, rfl⟩
  · exact ⟨_, rfl⟩
  · exact ⟨_, rfl⟩
  · exact ⟨_, rfl⟩
  · exact ⟨_, rfl⟩
  · cases h

theorem toInternalPlaceholder_eq (sql : List Char) (dialect : String) :
    toInternalPlaceholder sql dialect = (readStyle dialect).toInternal sql := by
  unfold toInternalPlaceholder readStyle
  cases driverStyle dialect with
  | none => rfl
  | some style => rfl

/-- There are as many placeholders as values. -/
theorem count_isPlaceholder (pieces : List FilterPiece) :
    (pieces.map FilterPiece.isPlaceholder).count true = (placeholderKeys pieces).length := by
  induction pieces with
  | nil => rfl
  | cons piece pieces ih =>
    cases piece with
    | char c => simpa [placeholderKeys, FilterPiece.isPlaceholder] using ih
    | placeholder key => simpa [placeholderKeys, FilterPiece.isPlaceholder] using ih

/-- The internal SQL counts its placeholders if and only if the filter reads back. -/
theorem countsPlaceholders_iff
    (hbind : bindPlaceholders filterSql context dialect = some (sql, params)) :
    CountsPlaceholders (filterPieces filterSql) (toInternalPlaceholder sql dialect) params ↔
      ReadsBack (tokenStyle dialect) (readStyle dialect) none (filterPieces filterSql) := by
  obtain ⟨style, hstyle, rfl, hkeys, -⟩ := bindPlaceholders_eq_some.mp hbind
  have htoken : tokenStyle dialect = style := by rw [tokenStyle, hstyle, Option.getD_some]
  have hconverts := readStyle_cases dialect
  rw [htoken] at hconverts ⊢
  have hlength : (placeholderKeys (filterPieces filterSql)).length = params.length := by
    simpa using congrArg List.length hkeys
  rw [toInternalPlaceholder_eq, ← propext (readsBack_iff hconverts (n := 1) (by simp)), rewriteFrom]
  constructor
  · intro h
    exact ⟨h.text, by rw [← h.text, h.marks]⟩
  · rintro ⟨htext, hmarks⟩
    refine ⟨htext, by rw [htext, hmarks], ?_⟩
    rw [htext, hmarks, count_isPlaceholder, hlength]

/-- A statement without `?` of its own is rendered if and only if the driver takes `?` or no
placeholder stands inside a quoted span. -/
theorem rendersPlaceholders_iff (stmt : FilterTree) {out : List FilterPiece}
    (hout : NoOwnMarks none out) (hknown : (driverStyle (lowerAscii dialect)).isSome = true) :
    RendersPlaceholders stmt dialect out ↔
      tokenStyle dialect = .question ∨ PlaceholdersOutside none out := by
  obtain ⟨style, hstyle⟩ := Option.isSome_iff_exists.mp hknown
  have htoken : tokenStyle dialect = style := by rw [tokenStyle, hstyle, Option.getD_some]
  have htext : ∀ n, renderPlaceholders (markedText out) (lowerAscii dialect) n =
      boundText style n out ↔ style = .question ∨ PlaceholdersOutside none out := by
    intro n
    rw [renderPlaceholders_iff hstyle, and_iff_right hout]
  rw [htoken]
  constructor
  · intro h
    obtain ⟨name, hname⟩ := exists_sqlglotDialect hknown
    have := h.text name hname
    rw [htoken] at this
    exact (htext _).mp this
  · intro h
    refine ⟨fun _ => isNextIndex_nextPostgresIndex stmt, fun name _ => ?_⟩
    rw [htoken]
    exact (htext _).mpr h

/-- Each placeholder is one `?` and one token if and only if the filter reads back, and no
placeholder ends up inside a quoted span of a statement that is rendered. -/
theorem placeholder_count_iff
    (hbind : bindPlaceholders filterSql context dialect = some (sql, params))
    (stmt : FilterTree) {out : List FilterPiece} (hout : NoOwnMarks none out) :
    (CountsPlaceholders (filterPieces filterSql) (toInternalPlaceholder sql dialect) params ∧
        RendersPlaceholders stmt dialect out) ↔
      ReadsBack (tokenStyle dialect) (readStyle dialect) none (filterPieces filterSql) ∧
        (tokenStyle dialect = .question ∨ PlaceholdersOutside none out) := by
  have hknown : (driverStyle (lowerAscii dialect)).isSome = true := by
    obtain ⟨style, hstyle, -⟩ := bindPlaceholders_eq_some.mp hbind
    rw [hstyle, Option.isSome_some]
  rw [countsPlaceholders_iff hbind, rendersPlaceholders_iff stmt hout hknown]

end Count

/-- A user with all three values. -/
def analyst : UserContext String :=
  [("email", some "a@example.com"), ("subject_id", some "s-1"), ("role", some "analyst")]

/-- `SELECT $3`, with the parameter as the parser reads it. -/
def thirdParameter : FilterTree :=
  .node ⟨.select, false⟩ (.cons "expressions" (.node ⟨.parameter, false⟩
    (.cons "this" (.node ⟨.literal false "3", false⟩ .nil) .nil)) .nil)

/-- `SELECT $3 FROM orders WHERE note = '?' AND region = {user.role}`. -/
def filteredStatement : List FilterPiece :=
  filterPieces "SELECT $3 FROM orders WHERE note = '?' AND region = \x7buser.role\x7d".toList

/-- The placeholder of a filter is counted, and rendered as the fourth parameter. -/
theorem role_placeholder_counted :
    bindPlaceholders roleFilter analyst "postgres" = some ("region = $1".toList, ["analyst"]) ∧
    CountsPlaceholders (filterPieces roleFilter)
      (toInternalPlaceholder "region = $1".toList "postgres") ["analyst"] ∧
    RendersPlaceholders thirdParameter "postgres" filteredStatement := by
  have hbind : bindPlaceholders roleFilter analyst "postgres" =
      some ("region = $1".toList, ["analyst"]) := by decide +kernel
  exact ⟨hbind, (placeholder_count_iff hbind thirdParameter (by decide +kernel)).mpr
    ⟨by decide +kernel, .inr (by decide +kernel)⟩⟩

/-- `region = '{user.role}'`. -/
def quotedFilter : List Char := "region = '\x7buser.role\x7d'".toList

/-- The parser, on the filter with its sentinel, which is the text of a literal. -/
def parseQuotedFilter : SqlParser :=
  parseOnly (wrappedSql "region = '__ph_user_role__'".toList)
    (selectOne (equals (columnNode "region")
      (.node ⟨.literal true "__ph_user_role__", false⟩ .nil)) .nil)

/-- A placeholder inside quotes passes the validator and is bound to a value, but the internal
SQL has no `?` for it. -/
theorem quoted_placeholder_not_counted :
    validateRowFilterText lowerAscii parseQuotedFilter orderRegionsSchema "orders" "postgres"
      quotedFilter = true ∧
    bindPlaceholders quotedFilter analyst "postgres" =
      some ("region = '$1'".toList, ["analyst"]) ∧
    ¬ CountsPlaceholders (filterPieces quotedFilter)
      (toInternalPlaceholder "region = '$1'".toList "postgres") ["analyst"] := by
  have hbind : bindPlaceholders quotedFilter analyst "postgres" =
      some ("region = '$1'".toList, ["analyst"]) := by decide +kernel
  refine ⟨by decide +kernel, hbind, ?_⟩
  rw [countsPlaceholders_iff hbind]
  decide +kernel

end QueryCraft
