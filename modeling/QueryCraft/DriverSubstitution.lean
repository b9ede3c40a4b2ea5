import QueryCraft.FilterInjection
import QueryCraft.PercentFormat

/-! # Values put in by the MySQL driver

For MySQL the placeholders of a rewritten statement become `%s`, and the driver sends
`sql % tuple(quoted values)`.  Every `%` of the statement takes part in that, whether it stands
in a literal, in a `LIKE` pattern or for a remainder, while the renderer looks for `?` only.

`mysql_substitution_iff` says that the driver sends the statement with each placeholder
replaced by its value if and only if the statement has no `%` of its own, its placeholders are
the `?` that the renderer finds, and the values were collected in the order of the text.
-/
namespace QueryCraft

open PercentFormat

variable {V : Type}

/-- The driver quotes a value as a literal: a text that starts with a quotation mark, and whose
end can be told. -/
structure QuotesLiterals (quote : V → List Char) : Prop where
  head : ∀ v, ∃ c rest, quote v = c :: rest ∧ isQuote c = true
  delimited : ∀ {v w rest rest'}, quote v ++ rest = quote w ++ rest' → quote v = quote w

/-- A placeholder that was added is labelled with a key of one of the filters. -/
def Sqlglot.LabelsFilters (glot : Sqlglot) : Prop :=
  ∀ name stmt filters, ∀ key ∈ placeholderKeys (glot.generate name stmt filters),
    ∃ f ∈ filters, key ∈ f.keys

/-- The value of a key, quoted. -/
def quotedValue (quote : V → List Char) (context : UserContext V) (key : String) : List Char :=
  (context.value? key).elim [] quote

/-- `execute` of the driver: what it sends for a statement with values; `none` where it raises. -/
def SendsFormatted (isPrintable : Char → Bool) (quote : V → List Char)
    (execute : List Char → List V → Option (List Char)) : Prop :=
  ∀ sql params, params ≠ [] → execute sql params = format isPrintable sql (params.map quote)

/-- The statement `out` that a call of `apply_row_filters` renders, and the keys for which it
collects values, in order. -/
def Rewrites (lower : String → String) (glot : Sqlglot) (schema : List SchemaTable)
    (dialect : String) (sql : List Char) (entries : List RowFilterEntry)
    (context : UserContext V) (out : List FilterPiece) (keys : List String) : Prop :=
  ∃ name stmt scopes prepared, sqlglotDialect? (lowerAscii dialect) = some name ∧
    glot.parse name sql = some [some stmt] ∧ glot.scopes stmt = some scopes ∧
    prepareAll lower glot schema context dialect name entries = .ok prepared ∧
    out = glot.generate name stmt (prepared.map (·.toAddedFilter)) ∧
    keys = boundKeys lower scopes entries

/-- The characters of a text that are not placeholders. -/
def literals (out : List FilterPiece) : List Char :=
  out.filterMap fun
    | .char c => some c
    | .placeholder _ => none

/-- Nothing in the statement gets in the way of the driver. -/
structure Substitutable (quoted : String → List Char) (out : List FilterPiece)
    (keys : List String) : Prop where
  no_percent : '%' ∉ literals out
  no_marks : NoOwnMarks none out
  outside : PlaceholdersOutside none out
  order : (placeholderKeys out).map quoted = keys.map quoted

/-! ## The rendered text -/

/-- The statement with `%s` for each `?` outside quoted spans, from a place with the given open
quote on. -/
def percentText : Option Char → List FilterPiece → List Char
  | _, [] => []
  | some q, .char c :: out => c :: percentText (nextQuote (some q) c) out
  | some q, .placeholder _ :: out => '?' :: percentText (some q) out
  | none, .char c :: out =>
    if c = '?' then '%' :: 's' :: percentText none out else c :: percentText (nextQuote none c) out
  | none, .placeholder _ :: out => '%' :: 's' :: percentText none out

section Rendered
variable {out : List FilterPiece} {quote : Option Char}

/-- A mark neither opens nor closes a span. -/
theorem nextQuote_mark (hquote : ∀ q, quote = some q → isQuote q = true) :
    nextQuote quote '?' = quote := by
  cases quote with
  | none => rfl
  | some q =>
    rw [nextQuote, if_neg]
    rintro rfl
    exact absurd (hquote _ rfl) (by decide)

theorem percentText_eq (hquote : ∀ q, quote = some q → isQuote q = true) (n : Nat) :
    rewriteFrom (DriverStyle.percent.render n) quote (markedText out) = percentText quote out := by
  have hrender := rendersMarks_render .percent
  induction out generalizing quote with
  | nil =>
    cases quote with
    | none => exact hrender.nil n
    | some q => simp [rewriteFrom, markedText, substitute, quotedSpan, hrender.nil, percentText]
  | cons piece out ih =>
    have hmark : ∀ rest, DriverStyle.percent.render n ('?' :: rest) =
        '%' :: 's' :: DriverStyle.percent.render n rest := fun rest => hrender.mark n rest
    cases piece with
    | char c =>
      have hih : rewriteFrom (DriverStyle.percent.render n) (nextQuote quote c) (markedText out) =
          percentText (nextQuote quote c) out := ih fun q => isQuote_of_nextQuote hquote
      rw [markedText_char]
      cases quote with
      | some q => rw [rewriteFrom_some (hrender.copies n) (hquote q rfl), percentText, hih]
      | none =>
        rw [percentText]
        by_cases hc : c = '?'
        · subst hc
          rw [if_pos rfl, rewriteFrom, hmark]
          rw [show nextQuote none '?' = none from rfl, rewriteFrom] at hih
          rw [hih]
        · rw [if_neg hc, ← hih]
          by_cases hq : isQuote c = true
          · rw [rewriteFrom, rewrite_quote (hrender.copies n) hq]
          · have hnext : nextQuote none c = none := by simp [nextQuote, hq]
            rw [rewriteFrom, hrender.plain n c _ (by simpa using hq) hc, hnext, rewriteFrom]
    | placeholder key =>
      have hih := ih hquote
      rw [markedText_placeholder]
      cases quote with
      | some q =>
        rw [rewriteFrom_some (hrender.copies n) (hquote q rfl), percentText,
          nextQuote_mark hquote, hih]
      | none =>
        rw [rewriteFrom] at hih
        rw [rewriteFrom, hmark, percentText, hih]

end Rendered

/-! ## What the driver sends -/

section Sent
variable {quoted : String → List Char} {isPrintable : Char → Bool} {quote : V → List Char}

/-- Two ways to go on with a quoted value. -/
theorem QuotesLiterals.append_inj (hquote : QuotesLiterals quote) {v w : V}
    {rest rest' : List Char} :
    quote v ++ rest = quote w ++ rest' ↔ quote v = quote w ∧ rest = rest' := by
  constructor
  · intro h
    have heq := hquote.delimited h
    rw [heq] at h
    exact ⟨heq, List.append_cancel_left h⟩
  · rintro ⟨heq, rfl⟩
    rw [heq]

theorem QuotesLiterals.isValue (hquote : QuotesLiterals quote) (v : V) : IsValue (quote v) := by
  obtain ⟨c, rest, hv, hc⟩ := hquote.head v
  simp only [isQuote, Bool.or_eq_true, beq_iff_eq] at hc
  refine ⟨c, rest, hv, ?_⟩
  rcases hc with rfl | rfl
  · exact .inl rfl
  · exact .inr (.inl rfl)

/-- A quoted value is not taken for a mark. -/
theorem QuotesLiterals.ne_mark (hquote : QuotesLiterals quote) (v : V) (rest rest' : List Char) :
    quote v ++ rest ≠ '?' :: rest' := by
  obtain ⟨c, tail, hv, hc⟩ := hquote.head v
  rw [hv, List.cons_append]
  intro h
  obtain rfl := (List.cons.inj h).1
  cases hc

/-- What is meant has the values where the renderer puts `%s`, or leaves a mark. -/
theorem substitutes_percentText (o : Option Char) {out : List FilterPiece}
    (hquoted : ∀ key ∈ placeholderKeys out, IsValue (quoted key)) :
    Substitutes (percentText o out) (substitute quoted out) := by
  induction out generalizing o with
  | nil =>
    cases o with
    | none => exact .nil
    | some q => exact .nil
  | cons piece out ih =>
    cases piece with
    | char c =>
      have hsub : substitute quoted (.char c :: out) = [c] ++ substitute quoted out := rfl
      have hih : Substitutes (percentText (nextQuote o c) out) (substitute quoted out) :=
        ih (nextQuote o c) hquoted
      rw [hsub]
      cases o with
      | some q => exact .copy c hih
      | none =>
        rw [percentText]
        split
        · rename_i hc
          subst hc
          exact .fill ⟨'?', [], rfl, .inr (.inr rfl)⟩ hih
        · exact .copy c hih
    | placeholder key =>
      have hsub : substitute quoted (.placeholder key :: out) =
          quoted key ++ substitute quoted out := rfl
      have hkey : IsValue (quoted key) := hquoted key List.mem_cons_self
      have hih := ih o fun k hk => hquoted k (List.mem_cons_of_mem _ hk)
      rw [hsub]
      cases o with
      | some q => exact .keep hkey hih
      | none => exact .fill hkey hih

variable (quoted isPrintable quote) in
/-- The text is sent as it is meant if and only if it has no `%` of its own, the marks that are
found are the placeholders, and the arguments are their values. -/
def SentAsMeant (o : Option Char) (out : List FilterPiece) : Prop :=
  ∀ args : List (List Char), (∀ a ∈ args, ∃ v, a = quote v) →
    (format isPrintable (percentText o out) args = some (substitute quoted out) ↔
      '%' ∉ literals out ∧ NoOwnMarks o out ∧ PlaceholdersOutside o out ∧
        args = (placeholderKeys out).map quoted)

theorem sentAsMeant_nil (o : Option Char) : SentAsMeant quoted isPrintable quote o [] := by
  intro args _
  have htext : percentText o [] = [] := by cases o <;> rfl
  have hout : NoOwnMarks o [] ∧ PlaceholdersOutside o [] := by
    cases o <;> exact ⟨trivial, trivial⟩
  have hlit : '%' ∉ literals [] := List.not_mem_nil
  rw [htext, and_iff_right hlit, ← and_assoc, and_iff_right hout]
  cases args with
  | nil => simp [format, substitute, placeholderKeys]
  | cons a args => simp [format, placeholderKeys]

/-- A character that the renderer copies is in the way if it is a `%`. -/
theorem SentAsMeant.copy (hquote : QuotesLiterals quote) {o : Option Char} {c : Char}
    {out : List FilterPiece} (h : SentAsMeant quoted isPrintable quote (nextQuote o c) out)
    (hquoted : ∀ key ∈ placeholderKeys out, IsValue (quoted key))
    {args : List (List Char)} (hargs : ∀ a ∈ args, ∃ v, a = quote v) :
    format isPrintable (c :: percentText (nextQuote o c) out) args =
        some (c :: substitute quoted out) ↔
      '%' ∉ literals (.char c :: out) ∧ NoOwnMarks (nextQuote o c) out ∧
        PlaceholdersOutside (nextQuote o c) out ∧ args = (placeholderKeys out).map quoted := by
  have hlit : literals (.char c :: out) = c :: literals out := rfl
  by_cases hpercent : c = '%'
  · subst hpercent
    refine iff_of_false (format_percent_ne (substitutes_percentText _ hquoted) ?_) ?_
    · intro a ha
      obtain ⟨v, rfl⟩ := hargs a ha
      exact hquote.isValue v
    · rintro ⟨hlits, -⟩
      exact hlits List.mem_cons_self
  · rw [format_plain isPrintable hpercent, hlit, List.mem_cons, not_or,
      and_iff_right (Ne.symm hpercent), ← h args hargs]
    simp

theorem SentAsMeant.char (hquote : QuotesLiterals quote) {o : Option Char} {c : Char}
    {out : List FilterPiece} (h : SentAsMeant quoted isPrintable quote (nextQuote o c) out)
    (hquoted : ∀ key ∈ placeholderKeys out, IsValue (quoted key)) :
    SentAsMeant quoted isPrintable quote o (.char c :: out) := by
  intro args hargs
  have hsub : substitute quoted (.char c :: out) = c :: substitute quoted out := rfl
  have hkeys : placeholderKeys (.char c :: out) = placeholderKeys out := rfl
  rw [hsub, hkeys, NoOwnMarks, PlaceholdersOutside]
  cases o with
  | some q =>
    rw [percentText, h.copy hquote hquoted hargs]
    simp
  | none =>
    rw [percentText]
    by_cases hc : c = '?'
    · -- a value is put in the place of the mark
      subst hc
      rw [if_pos rfl]
      simp only [ne_eq, not_true_eq_false, imp_false, false_and, and_false, iff_false]
      cases args with
      | nil => rw [format_percent_s_nil]; simp
      | cons a args =>
        obtain ⟨v, rfl⟩ := hargs a List.mem_cons_self
        rw [format_percent_s, Option.map_eq_some_iff]
        rintro ⟨rest, -, hrest⟩
        exact hquote.ne_mark v _ _ hrest
    · rw [if_neg hc, h.copy hquote hquoted hargs]
      simp [hc]

theorem SentAsMeant.placeholder (hquote : QuotesLiterals quote) {o : Option Char} {key : String}
    {out : List FilterPiece} (h : SentAsMeant quoted isPrintable quote o out) {v : V}
    (hv : quoted key = quote v) :
    SentAsMeant quoted isPrintable quote o (.placeholder key :: out) := by
  intro args hargs
  have hsub : substitute quoted (.placeholder key :: out) =
      quoted key ++ substitute quoted out := rfl
  have hlit : literals (.placeholder key :: out) = literals out := rfl
  have hkeys : placeholderKeys (.placeholder key :: out) = key :: placeholderKeys out := rfl
  rw [hsub, hlit, hkeys, NoOwnMarks, PlaceholdersOutside, hv, List.map_cons, hv]
  cases o with
  | some q =>
    -- the mark stays
    rw [percentText, format_plain isPrintable (by decide), Option.map_eq_some_iff]
    constructor
    · rintro ⟨rest, -, hrest⟩
      exact absurd hrest.symm (hquote.ne_mark v _ _)
    · rintro ⟨-, -, ⟨hnone, -⟩, -⟩
      cases hnone
  | none =>
    rw [percentText]
    cases args with
    | nil => rw [format_percent_s_nil]; simp
    | cons a args =>
      obtain ⟨w, rfl⟩ := hargs a List.mem_cons_self
      have hrest := h args fun a ha => hargs a (List.mem_cons_of_mem _ ha)
      rw [format_percent_s, Option.map_eq_some_iff, List.cons.injEq]
      simp only [hquote.append_inj]
      constructor
      · rintro ⟨rest, hformat, heq, rfl⟩
        obtain ⟨hpercent, hmarks, houtside, hargs⟩ := hrest.mp hformat
        exact ⟨hpercent, hmarks, ⟨trivial, houtside⟩, heq, hargs⟩
      · rintro ⟨hpercent, hmarks, ⟨-, houtside⟩, heq, hargs⟩
        exact ⟨_, hrest.mpr ⟨hpercent, hmarks, houtside, hargs⟩, heq, rfl⟩

/-- Every text is sent as it is meant under these conditions only. -/
theorem sentAsMeant (hquote : QuotesLiterals quote) (o : Option Char) {out : List FilterPiece}
    (hquoted : ∀ key ∈ placeholderKeys out, ∃ v, quoted key = quote v) :
    SentAsMeant quoted isPrintable quote o out := by
  induction out generalizing o with
  | nil => exact sentAsMeant_nil o
  | cons piece out ih =>
    cases piece with
    | char c =>
      refine (ih (nextQuote o c) hquoted).char hquote fun key hkey => ?_
      obtain ⟨v, hv⟩ := hquoted key hkey
      exact hv ▸ hquote.isValue v
    | placeholder key =>
      obtain ⟨v, hv⟩ := hquoted key List.mem_cons_self
      exact (ih o fun k hk => hquoted k (List.mem_cons_of_mem _ hk)).placeholder hquote hv

end Sent

/-! ## The whole call -/

section Call
variable {lower : String → String} {glot : Sqlglot} {schema : List SchemaTable}
  {context : UserContext V} {dialect : String} {sql : List Char} {entries : List RowFilterEntry}
  {quote : V → List Char} {isPrintable : Char → Bool}

/-- The quoted values are those of the keys. -/
theorem map_quote_eq {params : List V} {keys : List String}
    (h : params.map some = keys.map context.value?) :
    params.map quote = keys.map (quotedValue quote context) := by
  have hmap := congrArg (List.map fun v? => Option.elim v? [] quote) h
  rw [List.map_map, List.map_map] at hmap
  exact hmap

/-- A key for which a value was collected has one. -/
theorem exists_quotedValue {params : List V} {keys : List String}
    (h : params.map some = keys.map context.value?) {key : String} (hkey : key ∈ keys) :
    ∃ v, quotedValue quote context key = quote v := by
  have hvalue : context.value? key ∈ params.map some := h ▸ List.mem_map_of_mem hkey
  obtain ⟨v, -, hv⟩ := List.mem_map.mp hvalue
  exact ⟨v, by rw [quotedValue, ← hv, Option.elim_some]⟩

/-- The keys of a filter that was prepared have values. -/
theorem exists_quotedValue_of_prepared {name : String} {prepared : List (PreparedFilterText V)}
    (h : prepareAll lower glot schema context dialect name entries = .ok prepared)
    {f : AddedFilter} (hf : f ∈ prepared.map (·.toAddedFilter)) {key : String}
    (hkey : key ∈ f.keys) : ∃ v, quotedValue quote context key = quote v := by
  obtain ⟨p, hp, rfl⟩ := List.mem_map.mp hf
  have hall := prepareAll_ok_iff.mp h
  clear h hf
  induction hall with
  | nil => cases hp
  | cons hchecked _ ih =>
    rcases List.mem_cons.mp hp with rfl | hp
    · obtain ⟨_, _, -, -, -, hvalues⟩ := prepareChecked_ok_iff.mp hchecked
      exact exists_quotedValue hvalues.symm hkey
    · exact ih hp

/-- **Substitution by the driver.**  What the driver makes of a statement for MySQL is the
rewritten statement with each added placeholder replaced by its quoted value, if and only if
nothing in the statement gets in the way. -/
theorem mysql_substitution_iff {execute : List Char → List V → Option (List Char)}
    {b : BoundText V} (hmysql : lowerAscii dialect = "mysql")
    (hlabels : glot.LabelsFilters) (hquote : QuotesLiterals quote)
    (hexecute : SendsFormatted isPrintable quote execute)
    (happly : applyFilterTexts lower glot schema dialect sql entries context = .ok b)
    (hparams : b.params ≠ []) :
    ∃ out keys, Rewrites lower glot schema dialect sql entries context out keys ∧
      (execute b.sql b.params = some (substitute (quotedValue quote context) out) ↔
        Substitutable (quotedValue quote context) out keys) := by
  obtain ⟨name, stmt, prepared, scopes, hname, hparse, -, hprepared, hscopes, rfl⟩ :=
    applyFilterTexts_ok_iff.mp happly
  let out := glot.generate name stmt (prepared.map (·.toAddedFilter))
  let keys := boundKeys lower scopes entries
  refine ⟨out, keys, ⟨name, stmt, scopes, prepared, hname, hparse, hscopes, hprepared, rfl, rfl⟩,
    ?_⟩
  have hvalues : (addedValues lower scopes prepared).map some = keys.map context.value? :=
    addedValues_eq hprepared
  have hargs : (addedValues lower scopes prepared).map quote =
      keys.map (quotedValue quote context) := map_quote_eq hvalues
  have hsql : renderPlaceholders (markedText out) (lowerAscii dialect)
      (nextPostgresIndex stmt name) = percentText none out := by
    rw [hmysql]
    change rewriteFrom (DriverStyle.percent.render (nextPostgresIndex stmt name)) none
      (markedText out) = _
    exact percentText_eq (by simp) (nextPostgresIndex stmt name)
  rw [hexecute _ _ hparams]
  show format isPrintable (renderPlaceholders (markedText out) (lowerAscii dialect)
    (nextPostgresIndex stmt name)) ((addedValues lower scopes prepared).map quote) = _ ↔ _
  have hkeys : ∀ key ∈ placeholderKeys out, ∃ v, quotedValue quote context key = quote v := by
    intro key hkey
    obtain ⟨f, hf, hkey⟩ := hlabels name stmt _ key hkey
    exact exists_quotedValue_of_prepared hprepared hf hkey
  rw [hsql, hargs, sentAsMeant hquote none hkeys _]
  · constructor
    · rintro ⟨hpercent, hmarks, houtside, horder⟩
      exact ⟨hpercent, hmarks, houtside, horder.symm⟩
    · rintro ⟨hpercent, hmarks, houtside, horder⟩
      exact ⟨hpercent, hmarks, houtside, horder.symm⟩
  · intro a ha
    obtain ⟨key, hkey, rfl⟩ := List.mem_map.mp ha
    exact exists_quotedValue hvalues hkey

end Call

/-! ## Literals of the driver -/

/-- The second character of an escape. -/
def escapedAs : Char → Option Char
  | '\x00' => some '0'
  | '\n' => some 'n'
  | '\r' => some 'r'
  | '\x1a' => some 'Z'
  | '"' => some '"'
  | '\'' => some '\''
  | '\\' => some '\\'
  | _ => none

/-- A character of a value, in a literal. -/
def literalChar (c : Char) : List Char :=
  match escapedAs c with
  | some e => ['\\', e]
  | none => [c]

/-- A string as the driver quotes it. -/
def mysqlLiteral (value : String) : List Char :=
  '\'' :: (value.toList.flatMap literalChar ++ ['\''])

theorem escapedAs_inj {c d e : Char} (hc : escapedAs c = some e) (hd : escapedAs d = some e) :
    c = d := by
  unfold escapedAs at hc hd
  split at hc <;> cases hc <;> split at hd <;> first | rfl | cases hd

theorem ne_of_escapedAs {c : Char} (h : escapedAs c = none) : c ≠ '\'' ∧ c ≠ '\\' := by
  constructor
  · rintro rfl
    cases h
  · rintro rfl
    cases h

/-- The text of a character can be told from that of any other, and from the end. -/
theorem literalChar_append_inj {c d : Char} {rest rest' : List Char}
    (h : literalChar c ++ rest = literalChar d ++ rest') : c = d ∧ rest = rest' := by
  unfold literalChar at h
  cases hc : escapedAs c with
  | none =>
    cases hd : escapedAs d with
    | none => simpa [hc, hd] using h
    | some e =>
      obtain ⟨hslash, -⟩ : c = '\\' ∧ rest = e :: rest' := by simpa [hc, hd] using h
      exact absurd hslash (ne_of_escapedAs hc).2
  | some e =>
    cases hd : escapedAs d with
    | none =>
      obtain ⟨hslash, -⟩ : '\\' = d ∧ e :: rest = rest' := by simpa [hc, hd] using h
      exact absurd hslash.symm (ne_of_escapedAs hd).2
    | some e' =>
      obtain ⟨rfl, hrest⟩ : e = e' ∧ rest = rest' := by simpa [hc, hd] using h
      exact ⟨escapedAs_inj hc hd, hrest⟩

theorem literalChar_ne_quote (c : Char) (rest rest' : List Char) :
    literalChar c ++ rest ≠ '\'' :: rest' := by
  unfold literalChar
  cases hc : escapedAs c with
  | none => simp [(ne_of_escapedAs hc).1]
  | some e => simp

/-- The end of a literal can be told. -/
theorem flatMap_literalChar_inj {v w rest rest' : List Char}
    (h : v.flatMap literalChar ++ '\'' :: rest = w.flatMap literalChar ++ '\'' :: rest') :
    v = w := by
  induction v generalizing w with
  | nil =>
    cases w with
    | nil => rfl
    | cons d w =>
      rw [List.flatMap_cons, List.append_assoc] at h
      exact absurd h.symm (literalChar_ne_quote d _ _)
  | cons c v ih =>
    rw [List.flatMap_cons, List.append_assoc] at h
    cases w with
    | nil => exact absurd h (literalChar_ne_quote c _ _)
    | cons d w =>
      rw [List.flatMap_cons, List.append_assoc] at h
      obtain ⟨rfl, hrest⟩ := literalChar_append_inj h
      rw [ih hrest]

theorem quotesLiterals_mysqlLiteral : QuotesLiterals mysqlLiteral where
  head := fun _ => ⟨'\'', _, rfl, rfl⟩
  delimited := by
    intro v w rest rest' h
    simp only [mysqlLiteral, List.cons_append, List.append_assoc, List.nil_append,
      List.cons.injEq, true_and] at h
    rw [String.toList_injective (flatMap_literalChar_inj h)]

/-! ## Tickets in MySQL -/

/-- `str.isprintable`, on ASCII. -/
def isPrintableAscii (c : Char) : Bool := 32 ≤ c.toNat && c.toNat < 127

/-- The driver. -/
def executeFormatted (sql : List Char) (params : List String) : Option (List Char) :=
  format isPrintableAscii sql (params.map mysqlLiteral)

theorem sendsFormatted_executeFormatted :
    SendsFormatted isPrintableAscii mysqlLiteral executeFormatted := fun _ _ _ => rfl

/-- `SELECT id FROM tickets WHERE id LIKE '<pattern>'`. -/
def patternSql (pattern : String) : List Char :=
  "SELECT id FROM tickets WHERE id LIKE '".toList ++ pattern.toList ++ "'".toList

/-- What the parser makes of it. -/
def patternTree (pattern : String) : FilterTree :=
  .node ⟨.select, false⟩ (.cons "expressions" (columnNode "id") (.cons "from"
    (.node ⟨.other "From", false⟩ (.cons "this" (.node ⟨.other "Table", false⟩ .nil) .nil))
    (.cons "where" (.node ⟨.other "Where", false⟩ (.cons "this" (.node ⟨.other "Like", false⟩
      (.cons "this" (columnNode "id") (.cons "expression"
        (.node ⟨.literal true pattern, false⟩ .nil) .nil))) .nil)) .nil)))

/-- The condition that is added for a filter of the table. -/
def ownerCondition (f : AddedFilter) : List FilterPiece :=
  if tableMatchesPolicy lowerAscii { name := "tickets" } f.tableName then
    " AND owner = ".toList.map .char ++ f.keys.map .placeholder
  else []

/-- `sqlglot`, on the statement and a filter for the owner. -/
def patternGlot (pattern : String) : Sqlglot where
  parse := fun name text =>
    if text = patternSql pattern then some [some (patternTree pattern)]
    else (ticketsGlot "email").parse name text
  scopes := fun _ => some [[{ name := "tickets" }]]
  generate := fun _ _ filters =>
    (patternSql pattern).map .char ++ filters.flatMap ownerCondition

theorem mem_placeholderKeys {key : String} {pieces : List FilterPiece} :
    key ∈ placeholderKeys pieces ↔ .placeholder key ∈ pieces := by
  induction pieces with
  | nil => simp [placeholderKeys]
  | cons piece pieces ih =>
    cases piece with
    | char c => simpa [placeholderKeys] using ih
    | placeholder k => simpa [placeholderKeys] using or_congr_right ih

theorem labelsFilters_patternGlot (pattern : String) : (patternGlot pattern).LabelsFilters := by
  intro name stmt filters key hkey
  rw [mem_placeholderKeys, patternGlot, List.mem_append] at hkey
  rcases hkey with hkey | hkey
  · simp at hkey
  · obtain ⟨f, hf, hkey⟩ := List.mem_flatMap.mp hkey
    refine ⟨f, hf, ?_⟩
    unfold ownerCondition at hkey
    split at hkey
    · simpa using hkey
    · cases hkey

/-- The statement that `apply_row_filters` renders for the analyst. -/
def patternBound (pattern : String) : BoundText String where
  sql := patternSql pattern ++ " AND owner = %s".toList
  params := ["a@example.com"]

/-- A pattern without `%` is sent as it is. -/
theorem underscore_pattern_sent :
    applyFilterTexts lowerAscii (patternGlot "a_") ticketsSchema "mysql" (patternSql "a_")
      [ownedEntry "email"] analyst = .ok (patternBound "a_") ∧
    ∃ out keys, Rewrites lowerAscii (patternGlot "a_") ticketsSchema "mysql" (patternSql "a_")
      [ownedEntry "email"] analyst out keys ∧
      (executeFormatted (patternBound "a_").sql (patternBound "a_").params =
        some (substitute (quotedValue mysqlLiteral analyst) out) ↔
        Substitutable (quotedValue mysqlLiteral analyst) out keys) := by
  have happly : applyFilterTexts lowerAscii (patternGlot "a_") ticketsSchema "mysql"
      (patternSql "a_") [ownedEntry "email"] analyst = .ok (patternBound "a_") := by
    decide +kernel
  exact ⟨happly, mysql_substitution_iff rfl (labelsFilters_patternGlot "a_")
    quotesLiterals_mysqlLiteral sendsFormatted_executeFormatted happly (by decide)⟩

/-- After `'a%` the driver finds no conversion and raises; of `%%` one is left. -/
theorem percent_pattern_not_sent :
    applyFilterTexts lowerAscii (patternGlot "a%") ticketsSchema "mysql" (patternSql "a%")
      [ownedEntry "email"] analyst = .ok (patternBound "a%") ∧
    executeFormatted (patternBound "a%").sql (patternBound "a%").params = none ∧
    applyFilterTexts lowerAscii (patternGlot "a%%") ticketsSchema "mysql" (patternSql "a%%")
      [ownedEntry "email"] analyst = .ok (patternBound "a%%") ∧
    executeFormatted (patternBound "a%%").sql (patternBound "a%%").params =
      some (patternSql "a%" ++ " AND owner = 'a@example.com'".toList) := by
  refine ⟨by decide +kernel, by decide +kernel, by decide +kernel, by decide +kernel⟩

end QueryCraft
