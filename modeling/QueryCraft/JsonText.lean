import QueryCraft.JsonValues

/-! # JSON texts

`json.loads`, and the strings of `json.dumps`.  A lone surrogate and the constants `NaN` and
`Infinity`, which Python reads, have no counterpart among the values here and are refused.
-/
namespace QueryCraft.JsonText

/-! ## Writing strings -/

/-- The characters that stand for themselves in a string. -/
def isPlain (c : Char) : Bool := ' ' ≤ c && c ≤ '~' && c ≠ '"' && c ≠ '\\'

/-- A hexadecimal digit. -/
def hexDigit (n : Nat) : Char :=
  if n < 10 then Char.ofNat ('0'.toNat + n) else Char.ofNat ('a'.toNat + (n - 10))

/-- `\uXXXX`. -/
def unicodeEscape (n : Nat) : List Char :=
  ['\\', 'u', hexDigit (n / 4096 % 16), hexDigit (n / 256 % 16), hexDigit (n / 16 % 16),
    hexDigit (n % 16)]

/-- A character of a string, with `ensure_ascii`. -/
def escapeChar (c : Char) : List Char :=
  if isPlain c then [c]
  else if c = '"' then ['\\', '"']
  else if c = '\\' then ['\\', '\\']
  else if c = '\n' then ['\\', 'n']
  else if c = '\r' then ['\\', 'r']
  else if c = '\t' then ['\\', 't']
  else if c = '\x0c' then ['\\', 'f']
  else if c = '\x08' then ['\\', 'b']
  else if c.toNat < 65536 then unicodeEscape c.toNat
  else unicodeEscape (55296 + (c.toNat - 65536) / 1024) ++
    unicodeEscape (56320 + (c.toNat - 65536) % 1024)

/-- `json.dumps` of a string. -/
def dumpsString (cs : List Char) : List Char := '"' :: cs.flatMap escapeChar ++ ['"']

/-- The characters with an escape of one letter, and their letters. -/
def letterEscapes : List (Char × Char) :=
  [('"', '"'), ('\\', '\\'), ('\n', 'n'), ('\r', 'r'), ('\t', 't'), ('\x0c', 'f'), ('\x08', 'b')]

/-- A character stands for itself, or is a letter or one or two codes after backslashes. -/
theorem escapeChar_cases (c : Char) :
    (isPlain c = true ∧ escapeChar c = [c]) ∨
    (∃ p ∈ letterEscapes, c = p.1 ∧ escapeChar c = ['\\', p.2]) ∨
    (c.toNat < 65536 ∧ escapeChar c = unicodeEscape c.toNat) ∨
    65536 ≤ c.toNat ∧ escapeChar c = unicodeEscape (55296 + (c.toNat - 65536) / 1024) ++
      unicodeEscape (56320 + (c.toNat - 65536) % 1024) := by
  by_cases hplain : isPlain c = true
  · exact .inl ⟨hplain, if_pos hplain⟩
  by_cases hletter : ∃ p ∈ letterEscapes, c = p.1
  · obtain ⟨p, hp, rfl⟩ := hletter
    have hescape : ∀ p ∈ letterEscapes, escapeChar p.1 = ['\\', p.2] := by decide
    exact .inr (.inl ⟨p, hp, rfl, hescape p hp⟩)
  · have hother : ∀ p ∈ letterEscapes, c ≠ p.1 := fun p hp hc => hletter ⟨p, hp, hc⟩
    simp only [letterEscapes, List.forall_mem_cons] at hother
    obtain ⟨h1, h2, h3, h4, h5, h6, h7, -⟩ := hother
    rw [escapeChar, if_neg hplain, if_neg h1, if_neg h2, if_neg h3, if_neg h4, if_neg h5, if_neg h6,
      if_neg h7]
    by_cases hcode : c.toNat < 65536
    · exact .inr (.inr (.inl ⟨hcode, if_pos hcode⟩))
    · exact .inr (.inr (.inr ⟨Nat.le_of_not_lt hcode, if_neg hcode⟩))

theorem flatMap_escapeChar {cs : List Char} (h : ∀ c ∈ cs, isPlain c = true) :
    cs.flatMap escapeChar = cs := by
  induction cs with
  | nil => rfl
  | cons c cs ih =>
    rw [List.forall_mem_cons] at h
    rw [List.flatMap_cons, ih h.2, escapeChar, if_pos h.1, List.singleton_append]

/-- The length of a string with its escapes. -/
def escapedLength (cs : List Char) : Nat := (cs.flatMap escapeChar).length

theorem escapedLength_plain {cs : List Char} (h : ∀ c ∈ cs, isPlain c = true) :
    escapedLength cs = cs.length := by
  rw [escapedLength, flatMap_escapeChar h]

theorem length_le_escapedLength (cs : List Char) : cs.length ≤ escapedLength cs := by
  induction cs with
  | nil => exact Nat.zero_le _
  | cons c cs ih =>
    have hpos : 1 ≤ (escapeChar c).length := by
      rcases escapeChar_cases c with ⟨-, h⟩ | ⟨p, -, -, h⟩ | ⟨-, h⟩ | ⟨-, h⟩ <;>
        simp [h, unicodeEscape]
    simp only [escapedLength, List.flatMap_cons, List.length_append, List.length_cons] at ih ⊢
    omega

theorem isPlain_lt {c : Char} (h : isPlain c = true) : c.toNat < 128 := by
  simp only [isPlain, Bool.and_eq_true, decide_eq_true_eq] at h
  have hle : c.toNat ≤ '~'.toNat := h.1.1.2
  exact Nat.lt_of_le_of_lt hle (by decide)

theorem hexDigit_lt : ∀ d < 16, (hexDigit d).toNat < 128 := by decide

theorem unicodeEscape_lt (n : Nat) : ∀ c ∈ unicodeEscape n, c.toNat < 128 := by
  have hdigit : ∀ k, (hexDigit (k % 16)).toNat < 128 := fun k =>
    hexDigit_lt _ (Nat.mod_lt _ (by decide))
  simp only [unicodeEscape, List.forall_mem_cons]
  exact ⟨by decide, by decide, hdigit _, hdigit _, hdigit _, hdigit _, by simp⟩

/-- What is written is ASCII. -/
theorem escapeChar_lt (c : Char) : ∀ x ∈ escapeChar c, x.toNat < 128 := by
  rcases escapeChar_cases c with ⟨hplain, h⟩ | ⟨p, hp, -, h⟩ | ⟨-, h⟩ | ⟨-, h⟩
  · rw [h, List.forall_mem_singleton]
    exact isPlain_lt hplain
  · have hletter : ∀ p ∈ letterEscapes, p.2.toNat < 128 := by decide
    rw [h, List.forall_mem_cons, List.forall_mem_singleton]
    exact ⟨by decide, hletter p hp⟩
  · rw [h]
    exact unicodeEscape_lt _
  · rw [h]
    exact List.forall_mem_append.mpr ⟨unicodeEscape_lt _, unicodeEscape_lt _⟩

theorem dumpsString_lt (cs : List Char) : ∀ x ∈ dumpsString cs, x.toNat < 128 := by
  intro x hx
  rcases List.mem_append.mp hx with hx | hx
  · rcases List.mem_cons.mp hx with rfl | hx
    · decide
    · obtain ⟨c, -, hc⟩ := List.mem_flatMap.mp hx
      exact escapeChar_lt c x hc
  · rw [List.mem_singleton.mp hx]
    decide

/-! ## Reading -/

/-- The value of a hexadecimal digit. -/
def hexValue? (c : Char) : Option Nat :=
  if '0' ≤ c ∧ c ≤ '9' then some (c.toNat - '0'.toNat)
  else if 'a' ≤ c ∧ c ≤ 'f' then some (c.toNat - 'a'.toNat + 10)
  else if 'A' ≤ c ∧ c ≤ 'F' then some (c.toNat - 'A'.toNat + 10)
  else none

/-- The four digits after `\u`. -/
def hexQuad? (a b c d : Char) : Option Nat := do
  some ((← hexValue? a) * 4096 + (← hexValue? b) * 256 + (← hexValue? c) * 16 + (← hexValue? d))

/-- The character of a code point that is not a surrogate. -/
def scalar? (n : Nat) : Option Char :=
  if 55296 ≤ n ∧ n ≤ 57343 then none else some (Char.ofNat n)

/-- The character of two surrogates. -/
def surrogatePair? (high low : Nat) : Option Char :=
  if 55296 ≤ high ∧ high ≤ 56319 ∧ 56320 ≤ low ∧ low ≤ 57343 then
    some (Char.ofNat (65536 + (high - 55296) * 1024 + (low - 56320)))
  else none

/-- The character of a one-letter escape. -/
def escaped? (c : Char) : Option Char :=
  if c = '"' ∨ c = '\\' ∨ c = '/' then some c
  else if c = 'n' then some '\n'
  else if c = 'r' then some '\r'
  else if c = 't' then some '\t'
  else if c = 'f' then some '\x0c'
  else if c = 'b' then some '\x08'
  else none

/-- The rest of a string after its opening quote, with a bound on its length. -/
def readString : Nat → List Char → Option (List Char × List Char)
  | 0, _ => none
  | _ + 1, [] => none
  | n + 1, c :: rest =>
    if c = '"' then some ([], rest)
    else if c = '\\' then
      match rest with
      | 'u' :: a :: b :: c :: d :: rest => do
        let code ← hexQuad? a b c d
        match scalar? code, rest with
        | some x, _ =>
          let (cs, rest) ← readString n rest
          some (x :: cs, rest)
        | none, '\\' :: 'u' :: a :: b :: c :: d :: rest =>
          let x ← surrogatePair? code (← hexQuad? a b c d)
          let (cs, rest) ← readString n rest
          some (x :: cs, rest)
        | none, _ => none
      | e :: rest => do
        let x ← escaped? e
        let (cs, rest) ← readString n rest
        some (x :: cs, rest)
      | [] => none
    else if c < ' ' then none
    else do
      let (cs, rest) ← readString n rest
      some (c :: cs, rest)

/-- White space. -/
def skipSpace (cs : List Char) : List Char :=
  cs.dropWhile fun c => c = ' ' || c = '\t' || c = '\n' || c = '\r'

/-- The value of decimal digits. -/
def decimal (cs : List Char) : Nat := cs.foldl (fun n c => 10 * n + (c.toNat - '0'.toNat)) 0

/-- The digits of an integer part: a zero stands alone. -/
def integerPart (cs : List Char) : List Char × List Char :=
  match cs with
  | '0' :: rest => (['0'], rest)
  | _ => (cs.takeWhile Char.isDigit, cs.dropWhile Char.isDigit)

/-- The digits after a decimal point, if there are any. -/
def fraction (cs : List Char) : List Char × List Char :=
  match cs with
  | '.' :: rest =>
    if rest.takeWhile Char.isDigit = [] then ([], cs)
    else (rest.takeWhile Char.isDigit, rest.dropWhile Char.isDigit)
  | _ => ([], cs)

/-- A sign: negative, and what follows. -/
def sign (cs : List Char) : Bool × List Char :=
  match cs with
  | '-' :: rest => (true, rest)
  | '+' :: rest => (false, rest)
  | _ => (false, cs)

/-- The exponent, if there is one. -/
def exponent (cs : List Char) : Option Int × List Char :=
  match cs with
  | c :: rest =>
    let digits := (sign rest).2.takeWhile Char.isDigit
    if (c = 'e' ∨ c = 'E') ∧ digits ≠ [] then
      (some (if (sign rest).1 then -(decimal digits : Int) else decimal digits),
        (sign rest).2.dropWhile Char.isDigit)
    else (none, cs)
  | [] => (none, [])

/-- The float with these digits before and after the point and this exponent. -/
def float (negative : Bool) (digits : List Char) (scale : Nat) (exponent : Int) : Json :=
  let mantissa : Int := if negative then -(decimal digits : Int) else decimal digits
  if exponent ≤ scale then .float mantissa ((scale : Int) - exponent).toNat
  else .float (mantissa * 10 ^ (exponent - scale).toNat) 0

/-- A number. -/
def readNumber (cs : List Char) : Option (Json × List Char) :=
  let negative := cs.head? = some '-'
  let (digits, rest) := integerPart (if negative then cs.drop 1 else cs)
  if digits = [] then none
  else
    let (places, rest) := fraction rest
    match places, exponent rest with
    | [], (none, rest) =>
      some (.int (if negative then -(decimal digits : Int) else decimal digits), rest)
    | places, (e, rest) =>
      some (float negative (digits ++ places) places.length (e.getD 0), rest)

/-- A field of a dictionary is set. -/
def setField (key : String) (value : Json) : List (String × Json) → List (String × Json)
  | [] => [(key, value)]
  | (k, v) :: fields =>
    if k = key then (k, value) :: fields else (k, v) :: setField key value fields

mutual

/-- A value, with a bound on the depth and length of the text. -/
def readValue : Nat → List Char → Option (Json × List Char)
  | 0, _ => none
  | n + 1, '"' :: rest =>
    (readString (n + 1) rest).map fun (cs, rest) => (.str (String.ofList cs), rest)
  | n + 1, '{' :: rest =>
    match skipSpace rest with
    | '}' :: rest => some (.obj [], rest)
    | rest => (readFields n [] rest).map fun (fields, rest) => (.obj fields, rest)
  | n + 1, '[' :: rest =>
    match skipSpace rest with
    | ']' :: rest => some (.arr [], rest)
    | rest => (readItems n rest).map fun (items, rest) => (.arr items, rest)
  | _ + 1, 'n' :: 'u' :: 'l' :: 'l' :: rest => some (.null, rest)
  | _ + 1, 't' :: 'r' :: 'u' :: 'e' :: rest => some (.bool true, rest)
  | _ + 1, 'f' :: 'a' :: 'l' :: 's' :: 'e' :: rest => some (.bool false, rest)
  | _ + 1, cs => readNumber cs

/-- The fields of an object; of fields with one name the last counts. -/
def readFields : Nat → List (String × Json) → List Char →
    Option (List (String × Json) × List Char)
  | n + 1, fields, '"' :: rest => do
    let (name, rest) ← readString (n + 1) rest
    match skipSpace rest with
    | ':' :: rest =>
      let (value, rest) ← readValue n (skipSpace rest)
      let fields := setField (String.ofList name) value fields
      match skipSpace rest with
      | '}' :: rest => some (fields, rest)
      | ',' :: rest => readFields n fields (skipSpace rest)
      | _ => none
    | _ => none
  | _, _, _ => none

/-- The items of an array. -/
def readItems : Nat → List Char → Option (List Json × List Char)
  | 0, _ => none
  | n + 1, cs => do
    let (item, rest) ← readValue n cs
    match skipSpace rest with
    | ']' :: rest => some ([item], rest)
    | ',' :: rest =>
      let (items, rest) ← readItems n (skipSpace rest)
      some (item :: items, rest)
    | _ => none

end

/-- `json.loads`. -/
def loads (cs : List Char) : Option Json :=
  match readValue (2 * cs.length + 2) (skipSpace cs) with
  | some (value, rest) => if skipSpace rest = [] then some value else none
  | none => none

/-! ## Reading what was written -/

theorem hexValue?_hexDigit : ∀ d < 16, hexValue? (hexDigit d) = some d := by decide

theorem hexQuad?_digits {n : Nat} (h : n < 65536) :
    hexQuad? (hexDigit (n / 4096 % 16)) (hexDigit (n / 256 % 16)) (hexDigit (n / 16 % 16))
      (hexDigit (n % 16)) = some n := by
  have hsum : n / 4096 % 16 * 4096 + n / 256 % 16 * 256 + n / 16 % 16 * 16 + n % 16 = n := by
    omega
  simp only [hexQuad?, hexValue?_hexDigit _ (Nat.mod_lt _ (by decide : 0 < 16)),
    Option.bind_eq_bind, Option.bind_some, hsum]

/-- A code point below the second plane is no surrogate. -/
theorem scalar?_toNat (c : Char) : scalar? c.toNat = some c := by
  have hvalid : c.toNat < 55296 ∨ 57343 < c.toNat ∧ c.toNat < 1114112 := c.valid
  rw [scalar?, if_neg (by omega), Char.ofNat_toNat]

theorem scalar?_high {k : Nat} (h : k < 1024) : scalar? (55296 + k) = none := by
  rw [scalar?, if_pos (by omega)]

theorem surrogatePair?_toNat {c : Char} (h : 65536 ≤ c.toNat) :
    surrogatePair? (55296 + (c.toNat - 65536) / 1024) (56320 + (c.toNat - 65536) % 1024) =
      some c := by
  have hvalid : c.toNat < 55296 ∨ 57343 < c.toNat ∧ c.toNat < 1114112 := c.valid
  have hcode : 65536 + (55296 + (c.toNat - 65536) / 1024 - 55296) * 1024 +
      (56320 + (c.toNat - 65536) % 1024 - 56320) = c.toNat := by omega
  rw [surrogatePair?, if_pos (by omega), hcode, Char.ofNat_toNat]

section Escapes
variable (n : Nat) (rest : List Char)

-- the branches are reached by reduction: the equations of `readString` take long to derive

theorem readString_unicodeEscape {c : Char} (h : c.toNat < 65536) :
    readString (n + 1) (unicodeEscape c.toNat ++ rest) =
      (readString n rest).map fun (cs, rest) => (c :: cs, rest) := by
  change (hexQuad? _ _ _ _).bind _ = _
  rw [hexQuad?_digits h, Option.bind_some, scalar?_toNat]
  change (readString n rest).bind _ = _
  cases readString n rest <;> rfl

theorem readString_pair {high low : Nat} {c : Char} (hhigh : high < 65536) (hlow : low < 65536)
    (hscalar : scalar? high = none) (hpair : surrogatePair? high low = some c) :
    readString (n + 1) (unicodeEscape high ++ unicodeEscape low ++ rest) =
      (readString n rest).map fun (cs, rest) => (c :: cs, rest) := by
  change (hexQuad? _ _ _ _).bind _ = _
  rw [hexQuad?_digits hhigh, Option.bind_some, hscalar]
  change (hexQuad? _ _ _ _).bind _ = _
  rw [hexQuad?_digits hlow, Option.bind_some, hpair]
  change (readString n rest).bind _ = _
  cases readString n rest <;> rfl

theorem readString_short {e x : Char} (he : e ≠ 'u') (hx : escaped? e = some x) :
    readString (n + 1) ('\\' :: e :: rest) =
      (readString n rest).map fun (cs, rest) => (x :: cs, rest) := by
  conv => lhs; whnf
  split
  next heq => exact absurd (List.cons.inj heq).1 he
  next heq =>
    obtain ⟨rfl, rfl⟩ := List.cons.inj heq
    rw [hx]
    change (readString n rest).bind _ = _
    cases readString n rest <;> rfl
  next heq => cases heq

theorem readString_plain_char {c : Char} (hplain : isPlain c = true) :
    readString (n + 1) (c :: rest) =
      (readString n rest).map fun (cs, rest) => (c :: cs, rest) := by
  simp only [isPlain, Bool.and_eq_true, decide_eq_true_eq] at hplain
  change (if _ then _ else if _ then _ else if _ then _ else _) = _
  rw [if_neg hplain.1.2, if_neg hplain.2, if_neg (Char.not_lt.mpr hplain.1.1.1)]
  cases readString n rest <;> rfl

/-- A character that was written is read. -/
theorem readString_escapeChar (c : Char) :
    readString (n + 1) (escapeChar c ++ rest) =
      (readString n rest).map fun (cs, rest) => (c :: cs, rest) := by
  have hvalid : c.toNat < 55296 ∨ 57343 < c.toNat ∧ c.toNat < 1114112 := c.valid
  rcases escapeChar_cases c with ⟨hplain, h⟩ | ⟨p, hp, rfl, h⟩ | ⟨hcode, h⟩ | ⟨hcode, h⟩
  · rw [h]
    exact readString_plain_char n rest hplain
  · have hletter : ∀ p ∈ letterEscapes, p.2 ≠ 'u' ∧ escaped? p.2 = some p.1 := by decide
    rw [h]
    exact readString_short n rest (hletter p hp).1 (hletter p hp).2
  · rw [h]
    exact readString_unicodeEscape n rest hcode
  · rw [h]
    exact readString_pair n rest (by omega) (by omega) (scalar?_high (by omega))
      (surrogatePair?_toNat hcode)

end Escapes

/-- A string that was written is read up to its closing quote. -/
theorem readString_escaped (cs rest : List Char) :
    ∀ {n : Nat}, cs.length < n →
      readString n (cs.flatMap escapeChar ++ '"' :: rest) = some (cs, rest) := by
  induction cs with
  | nil =>
    intro n hn
    obtain ⟨n, rfl⟩ := Nat.exists_eq_add_of_lt hn
    rfl
  | cons c cs ih =>
    intro n hn
    rw [List.length_cons] at hn
    obtain ⟨n, rfl⟩ : ∃ m, n = m + 1 := ⟨n - 1, by omega⟩
    rw [List.flatMap_cons, List.append_assoc, readString_escapeChar, ih (by omega)]
    rfl

/-- A plain string is read up to its closing quote. -/
theorem readString_plain (cs : List Char) (h : ∀ c ∈ cs, isPlain c = true) (rest : List Char)
    {n : Nat} (hn : cs.length < n) : readString n (cs ++ '"' :: rest) = some (cs, rest) := by
  rw [← readString_escaped cs rest hn, flatMap_escapeChar h]

end QueryCraft.JsonText
