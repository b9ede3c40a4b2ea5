import QueryCraft.Base64
import QueryCraft.Regex
import QueryCraft.Slices
import QueryCraft.SqlText
import QueryCraft.TextDecoders

/-! # Sensitive texts

`audit_redaction` takes a string as sensitive when one of fifteen patterns matches it, or a form
of it that two rounds of URL, HTML and base64 decoding bring out.

The decoding of HTML may raise; `isSome_isSensitiveString` says on which strings.  The token that
stands for what was redacted is not sensitive (`isSensitiveString_redacted`).
-/
namespace QueryCraft

/-! ## Patterns of the module `re` -/

/-- An item of a character class. -/
inductive ClassItem where
  | range (low high : Char)
  /-- `\s`. -/
  | space
  /-- `\d`. -/
  | digit
  /-- `\w`. -/
  | word

/-- A character class. -/
structure CharClass where
  negated : Bool := false
  items : List ClassItem

/-- The text functions of Python that rest on tables: `str.isalnum`, `str.lower` and the names of
character references. -/
structure TextTables where
  isAlnum : Char → Bool
  lower : String → String
  html5 : List Char → Option (List Char)
  isAlnum_ascii : ∀ {c : Char}, c.toNat < 128 → isAlnum c = c.isAlphanum
  lower_ascii : ∀ {s : String}, (∀ c ∈ s.toList, c.toNat < 128) → lower s = lowerAscii s

/-- A letter without its case, as `IGNORECASE` compares them: four letters outside ASCII go with
an ASCII one. -/
def foldCase (c : Char) : Char :=
  if c = '\u0130' ∨ c = '\u0131' then 'i'
  else if c = '\u017f' then 's'
  else if c = '\u212a' then 'k'
  else c.toLower

/-- The character is in a range of a class. -/
def inRange (ignoreCase : Bool) (low high c : Char) : Bool :=
  (low ≤ c && c ≤ high) || (ignoreCase && ((low ≤ foldCase c && foldCase c ≤ high) ||
    (low ≤ (foldCase c).toUpper && (foldCase c).toUpper ≤ high)))

/-- The character is one of the item's, where `isAlnum` is `str.isalnum`. -/
def ClassItem.test (isAlnum : Char → Bool) (ignoreCase : Bool) (c : Char) : ClassItem → Bool
  | .range low high => inRange ignoreCase low high c
  | .space => isSpace c
  | .digit => isDecimal c
  | .word => isAlnum c || c == '_'

/-- The character is in the class. -/
def CharClass.test (isAlnum : Char → Bool) (ignoreCase : Bool) (k : CharClass) (c : Char) : Bool :=
  k.negated != k.items.any (·.test isAlnum ignoreCase c)

/-- A compiled pattern. -/
structure Pattern where
  ignoreCase : Bool := false
  regex : Regex CharClass

/-- `pattern.search(text)`. -/
def Pattern.search (isAlnum : Char → Bool) (p : Pattern) (text : List Char) : Bool :=
  p.regex.search (CharClass.test isAlnum p.ignoreCase) text

namespace Pattern
open Regex

/-- The characters of a text, as items of a class. -/
def chars (s : String) : List ClassItem := s.toList.map fun c => .range c c

/-- `[…]`. -/
def set (items : List ClassItem) : Regex CharClass := .one { items := items }

/-- `[^…]`. -/
def notIn (items : List ClassItem) : Regex CharClass := .one { negated := true, items := items }

/-- A literal text. -/
def lit (s : String) : Regex CharClass := seqs ((chars s).map fun item => set [item])

/-- `\b`. -/
def wordBoundary : Regex CharClass := .boundary { items := [.word] }

/-- `A-Za-z0-9` in a class. -/
def alphanumeric : List ClassItem := [.range 'A' 'Z', .range 'a' 'z', .range '0' '9']

/-- `\s`. -/
def space : Regex CharClass := set [.space]

/-- `\S`. -/
def nonSpace : Regex CharClass := notIn [.space]

/-- `\d`. -/
def digit : Regex CharClass := set [.digit]

/-- `[_-]?`. -/
def joint : Regex CharClass := opt (set (chars "_-"))

/-! ### `_SENSITIVE_VALUE_PATTERNS` -/

/-- `^[\s\ufeff\x00-\x1f\x7f]*[=+\-@|]`. -/
def formulaStart : Pattern where
  regex := seqs [.start,
    star (set ([.space] ++ chars "\ufeff" ++ [.range (Char.ofNat 0) (Char.ofNat 0x1f)] ++
      chars "\x7f")),
    set (chars "=+-@|")]

/-- `\bBearer\s+[A-Za-z0-9._~+/=-]+`. -/
def bearer : Pattern where
  ignoreCase := true
  regex := seqs [wordBoundary, lit "Bearer", plus space,
    plus (set (alphanumeric ++ chars "._~+/=-"))]

/-- `[A-Za-z0-9_-]{8,}`. -/
def jwtPart : Regex CharClass := atLeast 8 (set (alphanumeric ++ chars "_-"))

/-- `\beyJ[A-Za-z0-9_-]{8,}\.[A-Za-z0-9_-]{8,}\.[A-Za-z0-9_-]{8,}\b`. -/
def jwt : Pattern where
  regex := seqs [wordBoundary, lit "eyJ", jwtPart, lit ".", jwtPart, lit ".", jwtPart, wordBoundary]

/-- `-----BEGIN (?:RSA )?PRIVATE KEY-----|-----BEGIN CERT(?:IFICATE)?-----`. -/
def pem : Pattern where
  ignoreCase := true
  regex := alts (seqs [lit "-----BEGIN ", opt (lit "RSA "), lit "PRIVATE KEY-----"])
    [seqs [lit "-----BEGIN CERT", opt (lit "IFICATE"), lit "-----"]]

/-- `\b(?:password|secret|token|api[_-]?key|credential|authorization|client[_-]?secret|`
`authorization[_-]?code|samlresponse|assertion)\s*[:=]\s*\S+`. -/
def assignment : Pattern where
  ignoreCase := true
  regex := seqs [wordBoundary,
    alts (lit "password") [lit "secret", lit "token", seqs [lit "api", joint, lit "key"],
      lit "credential", lit "authorization", seqs [lit "client", joint, lit "secret"],
      seqs [lit "authorization", joint, lit "code"], lit "samlresponse", lit "assertion"],
    star space, set (chars ":="), star space, plus nonSpace]

/-- `\b(?:postgresql|postgres|mysql|mssql)(?:\+[a-z0-9_]+)?://\S+`. -/
def connectionString : Pattern where
  ignoreCase := true
  regex := seqs [wordBoundary,
    alts (lit "postgresql") [lit "postgres", lit "mysql", lit "mssql"],
    opt (seqs [lit "+", plus (set ([.range 'a' 'z', .range '0' '9'] ++ chars "_"))]),
    lit "://", plus nonSpace]

/-- `\b(?:asyncpg|psycopg2|pymysql|pyodbc)\b`. -/
def driver : Pattern where
  ignoreCase := true
  regex := seqs [wordBoundary,
    alts (lit "asyncpg") [lit "psycopg2", lit "pymysql", lit "pyodbc"], wordBoundary]

/-- `Traceback \(most recent call last\)`. -/
def traceback : Pattern where
  regex := lit "Traceback (most recent call last)"

/-- `(?:^|\n)\s*at\s+[\w.$<>]+(?:\.[\w$<>]+)*\(.*:\d+\)`. -/
def stackFrame : Pattern where
  ignoreCase := true
  regex := seqs [alts .start [lit "\n"], star space, lit "at", plus space,
    plus (set ([.word] ++ chars ".$<>")),
    star (seqs [lit ".", plus (set ([.word] ++ chars "$<>"))]),
    lit "(", star (notIn (chars "\n")), lit ":", plus digit, lit ")"]

/-- `\b(?:\d{1,3}\.){3}\d{1,3}:\d{2,5}\b`. -/
def addressAndPort : Pattern where
  regex := seqs [wordBoundary, times 3 (seqs [between 1 3 digit, lit "."]), between 1 3 digit,
    lit ":", between 2 5 digit, wordBoundary]

/-- `\b[a-zA-Z0-9.-]+\.(?:internal|local|corp|com|net|org):\d{2,5}\b`. -/
def hostAndPort : Pattern where
  ignoreCase := true
  regex := seqs [wordBoundary, plus (set (alphanumeric ++ chars ".-")), lit ".",
    alts (lit "internal") [lit "local", lit "corp", lit "com", lit "net", lit "org"],
    lit ":", between 2 5 digit, wordBoundary]

/-- `\b(?:host|hostname|server)\s*[:=]\s*[^\s,;]+`. -/
def hostSetting : Pattern where
  ignoreCase := true
  regex := seqs [wordBoundary, alts (lit "host") [lit "hostname", lit "server"],
    star space, set (chars ":="), star space, plus (notIn ([.space] ++ chars ",;"))]

/-- `\b[a-zA-Z0-9.-]+\.(?:internal|local|corp)\b`. -/
def internalHost : Pattern where
  ignoreCase := true
  regex := seqs [wordBoundary, plus (set (alphanumeric ++ chars ".-")), lit ".",
    alts (lit "internal") [lit "local", lit "corp"], wordBoundary]

/-- `<(?:samlp?:)?(?:Response|Assertion)\b|<EntityDescriptor\b|<(?:ds:)?X509Certificate\b`. -/
def saml : Pattern where
  ignoreCase := true
  regex := alts
    (seqs [lit "<", opt (seqs [lit "saml", opt (lit "p"), lit ":"]),
      alts (lit "Response") [lit "Assertion"], wordBoundary])
    [seqs [lit "<EntityDescriptor", wordBoundary],
      seqs [lit "<", opt (lit "ds:"), lit "X509Certificate", wordBoundary]]

/-- `\bignore\s+(?:all\s+)?previous\s+instructions\b|\breveal\s+(?:the\s+)?system\s+prompt\b|`
`\bbypass\s+(?:rbac|row[- ]level|permission)\b|\bdrop\s+(?:table|database|schema)\b`. -/
def injection : Pattern where
  ignoreCase := true
  regex := alts
    (seqs [wordBoundary, lit "ignore", plus space, opt (seqs [lit "all", plus space]),
      lit "previous", plus space, lit "instructions", wordBoundary])
    [seqs [wordBoundary, lit "reveal", plus space, opt (seqs [lit "the", plus space]),
        lit "system", plus space, lit "prompt", wordBoundary],
      seqs [wordBoundary, lit "bypass", plus space,
        alts (lit "rbac") [seqs [lit "row", set (chars "- "), lit "level"], lit "permission"],
        wordBoundary],
      seqs [wordBoundary, lit "drop", plus space,
        alts (lit "table") [lit "database", lit "schema"], wordBoundary]]

end Pattern

/-- `_SENSITIVE_VALUE_PATTERNS`. -/
def sensitiveValuePatterns : List Pattern :=
  [.formulaStart, .bearer, .jwt, .pem, .assignment, .connectionString, .driver, .traceback,
    .stackFrame, .addressAndPort, .hostAndPort, .hostSetting, .internalHost, .saml, .injection]

/-! ## Decoded variants -/

/-- `_MAX_DECODE_LENGTH`. -/
def maxDecodeLength : Nat := 8192

/-- `[A-Za-z0-9+/_=-]`. -/
def isBase64Char (c : Char) : Bool := (Base64.sextet? c).isSome || c == '='

/-- `_decode_base64`. -/
def decodeBase64 (value : List Char) : Option (List Char) :=
  let candidate := strip value
  if 16 ≤ candidate.length ∧ candidate.length ≤ maxDecodeLength ∧
      candidate.all isBase64Char = true then
    (Base64.decodeStrict (Base64.pad candidate)).bind fun bytes =>
      (String.fromUTF8? (bytes.map UInt8.ofNat).toByteArray).map String.toList
  else none

namespace TextTables
variable (tables : TextTables)

/-- What one candidate is decoded to; `none` where `html.unescape` raises. -/
def decodings (candidate : List Char) : Option (List (List Char)) :=
  if maxDecodeLength < candidate.length then some []
  else (unescape tables.html5 candidate).map fun unescaped =>
    [unquote candidate, unescaped] ++ (decodeBase64 candidate).toList

/-- The rounds of `_decoded_variants`.  The sets are lists, of which only the members matter. -/
def decodeRounds : Nat → List (List Char) → List (List Char) → Option (List (List Char))
  | 0, variants, _ => some variants
  | n + 1, variants, frontier =>
    (frontier.mapM tables.decodings).bind fun found =>
      let decoded := found.flatten.filter fun t => t ≠ [] && !variants.contains t
      if decoded.isEmpty then some variants else decodeRounds n (variants ++ decoded) decoded

/-- `_decoded_variants`. -/
def decodedVariants (value : List Char) : Option (List (List Char)) :=
  tables.decodeRounds 2 [value] [value]

/-- `_is_sensitive_string`. -/
def isSensitiveString (value : String) : Option Bool :=
  (tables.decodedVariants value.toList).map fun variants =>
    variants.any fun candidate =>
      sensitiveValuePatterns.any (·.search tables.isAlnum candidate)

/-! ### When the inspection raises -/

/-- `html.unescape` does not raise on a candidate that is decoded. -/
def unescapes (candidate : List Char) : Bool :=
  maxDecodeLength < candidate.length || !hasLongReference candidate

/-- Neither the string nor what it is first decoded to has a decimal character reference with too
many digits, where these are decoded at all. -/
def isInspectable (value : List Char) : Bool :=
  unescapes value && ((tables.decodings value).getD []).all unescapes

theorem isSome_decodings (candidate : List Char) :
    (tables.decodings candidate).isSome = unescapes candidate := by
  rw [decodings, unescapes]
  by_cases hlong : maxDecodeLength < candidate.length
  · simp [hlong]
  · rw [if_neg hlong, Option.isSome_map, Bool.eq_iff_iff, ← not_iff_not]
    simp [hlong, unescape_eq_none_iff]

theorem isSome_mapM_decodings (frontier : List (List Char)) :
    (frontier.mapM tables.decodings).isSome = frontier.all unescapes := by
  rw [isSome_mapM, funext tables.isSome_decodings]

/-- The last round always ends. -/
theorem isSome_decodeRounds_one (variants frontier : List (List Char)) :
    (tables.decodeRounds 1 variants frontier).isSome = frontier.all unescapes := by
  rw [← isSome_mapM_decodings, decodeRounds]
  cases frontier.mapM tables.decodings with
  | none => rfl
  | some found =>
    rw [Option.bind_some]
    dsimp only
    split <;> rfl

/-- The variants exist where no candidate makes `html.unescape` raise. -/
theorem isSome_decodedVariants (value : List Char) :
    (tables.decodedVariants value).isSome = tables.isInspectable value := by
  rw [decodedVariants, decodeRounds, isInspectable, ← tables.isSome_decodings value,
    List.mapM_cons, List.mapM_nil]
  cases hfound : tables.decodings value with
  | none => rfl
  | some found =>
    have hvalue : unescapes value = true := by rw [← tables.isSome_decodings, hfound]; rfl
    have hempty : unescapes [] = true := by decide
    -- the candidates that are left out unescape without an error anyway
    have hall : (found.filter fun t => t ≠ [] && !([value].contains t)).all unescapes =
        found.all unescapes := by
      rw [List.all_filter]
      congr 1
      funext t
      by_cases hnil : t = []
      · simp [hnil, hempty]
      · by_cases hsame : t = value
        · simp [hsame, hvalue]
        · simp [hnil, hsame]
    simp only [Option.pure_def, Option.bind_eq_bind, Option.bind_some, List.flatten_cons,
      List.flatten_nil, List.append_nil, Option.isSome_some, Bool.true_and, Option.getD_some]
    rw [← hall]
    split
    next hnone => rw [List.isEmpty_iff.mp hnone]; rfl
    next => exact tables.isSome_decodeRounds_one _ _

/-- `_is_sensitive_string` returns exactly on the strings that can be inspected. -/
theorem isSome_isSensitiveString (value : String) :
    (tables.isSensitiveString value).isSome = tables.isInspectable value.toList := by
  rw [isSensitiveString, Option.isSome_map, isSome_decodedVariants]

/-! ### Texts without escapes -/

/-- A text that is left as it is by the decoding of URLs and of HTML. -/
structure IsUnescaped (text : List Char) : Prop where
  length : text.length ≤ maxDecodeLength
  percent : '%' ∉ text
  ampersand : '&' ∉ text

theorem decodings_of_unescaped {text : List Char} (h : IsUnescaped text) :
    tables.decodings text = some ([text, text] ++ (decodeBase64 text).toList) := by
  have hunescape : unescape tables.html5 text = some text := if_neg h.ampersand
  have hunquote : unquote text = text := if_neg h.percent
  rw [decodings, if_neg (Nat.not_lt.mpr h.length), hunescape, hunquote]
  rfl

section Rounds
variable {variants : List (List Char)} {t u : List Char}

/-- A round on such a text ends the search if its decoded form is nothing new. -/
theorem decodeRounds_known (n : Nat) (ht : IsUnescaped t) (hmem : t ∈ variants)
    (hknown : ∀ u, decodeBase64 t = some u → u = [] ∨ u ∈ variants) :
    tables.decodeRounds (n + 1) variants [t] = some variants := by
  have hdecoded : ([[t, t] ++ (decodeBase64 t).toList].flatten.filter
      fun u => u ≠ [] && !variants.contains u) = [] := by
    refine List.filter_eq_nil_iff.mpr fun u hu => ?_
    have hold : u = [] ∨ u ∈ variants := by
      simp only [List.flatten_cons, List.flatten_nil, List.append_nil, List.mem_append,
        List.mem_cons, List.not_mem_nil, or_false, or_self, Option.mem_toList] at hu
      rcases hu with rfl | hu
      · exact .inr hmem
      · exact hknown u hu
    rcases hold with rfl | hold <;> simp [*]
  rw [decodeRounds, List.mapM_cons, List.mapM_nil, tables.decodings_of_unescaped ht]
  dsimp only [Option.pure_def, Option.bind_eq_bind, Option.bind_some]
  rw [hdecoded]
  rfl

/-- Otherwise it goes on with the decoded form. -/
theorem decodeRounds_new (n : Nat) (ht : IsUnescaped t) (hmem : t ∈ variants)
    (hu : decodeBase64 t = some u) (hne : u ≠ []) (hnew : u ∉ variants) :
    tables.decodeRounds (n + 1) variants [t] = tables.decodeRounds n (variants ++ [u]) [u] := by
  have hdecoded : ([[t, t] ++ (decodeBase64 t).toList].flatten.filter
      fun u => u ≠ [] && !variants.contains u) = [u] := by
    simp [hu, hmem, hne, hnew]
  rw [decodeRounds, List.mapM_cons, List.mapM_nil, tables.decodings_of_unescaped ht]
  dsimp only [Option.pure_def, Option.bind_eq_bind, Option.bind_some]
  rw [hdecoded]
  rfl

/-- The base64 decoder is all that brings out variants of such a text, if what it decodes to is
such a text, too. -/
theorem exists_decodedVariants {value : List Char} (hvalue : IsUnescaped value)
    (hdecoded : ∀ u, decodeBase64 value = some u → IsUnescaped u) :
    ∃ variants, tables.decodedVariants value = some variants ∧ ∀ t, t ∈ variants ↔
      t = value ∨ (t ≠ [] ∧ (decodeBase64 value = some t ∨
        ∃ u, decodeBase64 value = some u ∧ decodeBase64 u = some t)) := by
  have hself : value ∈ [value] := List.mem_singleton_self value
  have hempty : decodeBase64 [] = none := by decide
  cases hfirst : decodeBase64 value with
  | none =>
    refine ⟨[value], tables.decodeRounds_known 1 hvalue hself (by simp [hfirst]), ?_⟩
    simp
  | some u =>
    by_cases hold : u = [] ∨ u = value
    · refine ⟨[value], tables.decodeRounds_known 1 hvalue hself ?_, ?_⟩
      · simpa [hfirst] using hold
      · rcases hold with rfl | rfl
        · simp [hempty]
        · simp +contextual [hfirst, eq_comm]
    · obtain ⟨hne, hnew⟩ := not_or.mp hold
      have hround : tables.decodedVariants value = tables.decodeRounds 1 [value, u] [u] :=
        tables.decodeRounds_new 1 hvalue hself hfirst hne (by simpa using hnew)
      have hmem : u ∈ [value, u] := by simp
      have hunescaped := hdecoded u hfirst
      rw [hround]
      cases hsecond : decodeBase64 u with
      | none =>
        refine ⟨[value, u], tables.decodeRounds_known 0 hunescaped hmem (by simp [hsecond]), ?_⟩
        intro t
        simp only [List.mem_cons, List.not_mem_nil, or_false, Option.some.injEq, exists_eq_left',
          hsecond, reduceCtorEq]
        refine or_congr Iff.rfl ⟨?_, fun h => h.2.symm⟩
        rintro rfl
        exact ⟨hne, rfl⟩
      | some w =>
        by_cases hlast : w = [] ∨ w ∈ [value, u]
        · refine ⟨[value, u],
            tables.decodeRounds_known 0 hunescaped hmem (by simpa [hsecond] using hlast), ?_⟩
          intro t
          simp only [List.mem_cons, List.not_mem_nil, or_false, Option.some.injEq, exists_eq_left',
            hsecond] at hlast ⊢
          constructor
          · rintro (rfl | rfl)
            · exact .inl rfl
            · exact .inr ⟨hne, .inl rfl⟩
          · rintro (rfl | ⟨ht, rfl | rfl⟩)
            · exact .inl rfl
            · exact .inr rfl
            · exact hlast.resolve_left ht
        · obtain ⟨hnil, hnot⟩ := not_or.mp hlast
          refine ⟨[value, u, w], tables.decodeRounds_new 0 hunescaped hmem hsecond hnil hnot, ?_⟩
          intro t
          simp only [List.mem_cons, List.not_mem_nil, or_false, Option.some.injEq, exists_eq_left',
            hsecond]
          constructor
          · rintro (rfl | rfl | rfl)
            · exact .inl rfl
            · exact .inr ⟨hne, .inl rfl⟩
            · exact .inr ⟨hnil, .inr rfl⟩
          · rintro (rfl | ⟨-, rfl | rfl⟩)
            · exact .inl rfl
            · exact .inr (.inl rfl)
            · exact .inr (.inr rfl)

end Rounds

end TextTables

/-! ## The token -/

/-- `_REDACTED`. -/
def redacted : String := "[REDACTED]"

/-- A text of ASCII characters is searched alike with every table of `str.isalnum`. -/
theorem Pattern.search_ascii (tables : TextTables) (p : Pattern) {text : List Char}
    (h : ∀ c ∈ text, c.toNat < 128) :
    p.search tables.isAlnum text = p.search Char.isAlphanum text := by
  refine Regex.search_congr p.regex fun c hc k => ?_
  have hitem : ∀ item : ClassItem, item.test tables.isAlnum p.ignoreCase c =
      item.test Char.isAlphanum p.ignoreCase c := by
    intro item
    cases item with
    | word => rw [ClassItem.test, ClassItem.test, tables.isAlnum_ascii (h c hc)]
    | _ => rfl
  rw [CharClass.test, CharClass.test, funext hitem]

namespace TextTables
variable (tables : TextTables)

/-- A text of ASCII with nothing to decode is sensitive if a pattern matches it as it stands. -/
theorem isSensitiveString_of_unescaped {s : String} (hs : IsUnescaped s.toList)
    (hbase64 : decodeBase64 s.toList = none) (hascii : ∀ c ∈ s.toList, c.toNat < 128) :
    tables.isSensitiveString s =
      some (sensitiveValuePatterns.any (·.search Char.isAlphanum s.toList)) := by
  have hvariants : tables.decodedVariants s.toList = some [s.toList] :=
    tables.decodeRounds_known 1 hs (List.mem_singleton_self _) (by simp [hbase64])
  have hsearch : (fun p : Pattern => p.search tables.isAlnum s.toList) =
      fun p => p.search Char.isAlphanum s.toList :=
    funext fun p => p.search_ascii tables hascii
  rw [isSensitiveString, hvariants, Option.map_some, List.any_cons, List.any_nil, Bool.or_false,
    hsearch]

/-- The token is not sensitive. -/
theorem isSensitiveString_redacted : tables.isSensitiveString redacted = some false := by
  have hunescaped : IsUnescaped redacted.toList := ⟨by decide, by decide, by decide⟩
  have hplain : sensitiveValuePatterns.any (·.search Char.isAlphanum redacted.toList) = false := by
    decide +kernel
  rw [tables.isSensitiveString_of_unescaped hunescaped (by decide +kernel) (by simp [redacted]),
    hplain]

end TextTables

end QueryCraft
