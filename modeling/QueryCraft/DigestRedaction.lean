import QueryCraft.AuditRedaction
import QueryCraft.AuditRetention
import QueryCraft.DigestText
import QueryCraft.RegexWords

/-! # Digests under redaction

The hashes of the audit rows pass the redaction twice: as the last retained hash and as the link of
the first survivor in the context of a purge marker.  A digest is decoded, and decoded again, before
it is inspected, so its survival depends on what its decoded forms hold.

Fourteen of the fifteen patterns need characters that none of the forms has, or neighbours that do
not meet in them.  The other one asks for `=`, `+`, `-`, `@` or `|` after blanks and control
characters, and some digests are decoded to that (`isSensitiveString_iff`): they do not survive.
-/
namespace QueryCraft

/-- The digest is decoded to a text that starts with a formula. -/
structure ReadsAsFormula (h : List Char) : Prop where
  spells : spellsFormula h = true
  text : ∃ text, Base64.decode h = some (Utf8.bytes text)

/-! ## Classes that list their characters -/

theorem toUpper_of_not_ascii {c : Char} (h : ¬ c.toNat < 128) : c.toUpper = c := by
  refine dif_neg fun hlower => h ?_
  have hle : c.toNat ≤ 'z'.toNat := hlower.2
  exact Nat.lt_of_le_of_lt hle (by decide)

/-- A character without its case is without it in upper case, too. -/
theorem foldCase_toUpper_foldCase (c : Char) :
    foldCase (foldCase c).toUpper = foldCase c ∧ foldCase (foldCase c) = foldCase c := by
  by_cases hc : c.toNat < 128
  · refine of_toNat_lt (p := fun c => foldCase (foldCase c).toUpper = foldCase c ∧
      foldCase (foldCase c) = foldCase c) ?_ hc
    decide +kernel
  · by_cases hspecial : c ∈ ['\u0130', '\u0131', '\u017f', '\u212a']
    · have hall : ∀ c ∈ ['\u0130', '\u0131', '\u017f', '\u212a'],
          foldCase (foldCase c).toUpper = foldCase c ∧ foldCase (foldCase c) = foldCase c :=
        List.all_iff_forall_prop.mp (by decide)
      exact hall c hspecial
    · simp only [List.mem_cons, List.not_mem_nil, or_false, not_or] at hspecial
      obtain ⟨h1, h2, h3, h4⟩ := hspecial
      have hfold : foldCase c = c := by
        rw [foldCase, if_neg (not_or.mpr ⟨h1, h2⟩), if_neg h3, if_neg h4, toLower_of_not_ascii hc]
      rw [hfold, toUpper_of_not_ascii hc, hfold]
      exact ⟨rfl, rfl⟩

/-- What a class with one character takes is that character up to its case. -/
theorem foldCase_of_inRange {ignoreCase : Bool} {x c : Char}
    (h : inRange ignoreCase x x c = true) : foldCase c = foldCase x := by
  simp only [inRange, Bool.or_eq_true, Bool.and_eq_true, decide_eq_true_eq] at h
  obtain ⟨hupper, hlower⟩ := foldCase_toUpper_foldCase c
  rcases h with ⟨hle, hge⟩ | ⟨-, ⟨hle, hge⟩ | ⟨hle, hge⟩⟩
  · rw [Char.le_antisymm hge hle]
  · rw [← Char.le_antisymm hge hle, hlower]
  · rw [← Char.le_antisymm hge hle, hupper]

/-- The character that an item consists of. -/
def ClassItem.listed? : ClassItem → Option Char
  | .range low high => if low = high then some low else none
  | _ => none

/-- The class consists of single characters, and `p` holds of them without their case. -/
def CharClass.lists (p : Char → Bool) (k : CharClass) : Bool :=
  !k.negated && k.items.all fun item => item.listed?.any fun x => p (foldCase x)

/-- The item is a decimal digit or a single character of ASCII. -/
def ClassItem.isPlain : ClassItem → Bool
  | .range low high => low == high && decide (low.toNat < 128)
  | .digit => true
  | _ => false

/-- The class consists of such items. -/
def CharClass.isPlain (k : CharClass) : Bool := !k.negated && k.items.all ClassItem.isPlain

section Classes
variable {isAlnum : Char → Bool} {ignoreCase : Bool} {k : CharClass} {c : Char}

/-- A character that a class takes is one of an item. -/
theorem CharClass.exists_item (hneg : k.negated = false)
    (h : k.test isAlnum ignoreCase c = true) :
    ∃ item ∈ k.items, item.test isAlnum ignoreCase c = true := by
  rw [CharClass.test, hneg] at h
  exact List.any_eq_true.mp (by simpa using h)

theorem ClassItem.foldCase_of_listed {item : ClassItem} {x : Char} (hx : item.listed? = some x)
    (h : item.test isAlnum ignoreCase c = true) : foldCase c = foldCase x := by
  cases item with
  | range low high =>
    rw [ClassItem.listed?] at hx
    split_ifs at hx with hsame
    obtain rfl := Option.some.inj hx
    subst hsame
    exact foldCase_of_inRange h
  | _ => cases hx

theorem CharClass.foldCase_of_lists {p : Char → Bool} (hk : k.lists p = true)
    (h : k.test isAlnum ignoreCase c = true) : p (foldCase c) = true := by
  rw [CharClass.lists, Bool.and_eq_true, Bool.not_eq_true', List.all_eq_true] at hk
  obtain ⟨item, hitem, htest⟩ := CharClass.exists_item hk.1 h
  have hp := hk.2 item hitem
  cases hx : item.listed? with
  | none =>
    rw [hx] at hp
    cases hp
  | some x =>
    rw [hx] at hp
    rw [ClassItem.foldCase_of_listed hx htest]
    exact hp

/-- A plain class has no character of Latin-1 outside ASCII. -/
theorem CharClass.test_latin (hk : k.isPlain = true) (hc : 0x80 ≤ c.toNat ∧ c.toNat < 0x100) :
    k.test isAlnum ignoreCase c = false := by
  have hlatin : 0x80 ≤ c.toNat → isDecimal c = false ∧ foldCase c = c := by
    refine of_toNat_lt (p := fun c => 0x80 ≤ c.toNat → isDecimal c = false ∧ foldCase c = c) ?_ hc.2
    decide +kernel
  obtain ⟨hdecimal, hfold⟩ := hlatin hc.1
  rw [CharClass.isPlain, Bool.and_eq_true, Bool.not_eq_true', List.all_eq_true] at hk
  rw [Bool.eq_false_iff]
  intro h
  obtain ⟨item, hitem, htest⟩ := CharClass.exists_item hk.1 h
  have hplain := hk.2 item hitem
  cases item with
  | range low high =>
    rw [ClassItem.isPlain, Bool.and_eq_true, beq_iff_eq, decide_eq_true_eq] at hplain
    obtain ⟨rfl, hlow⟩ := hplain
    have hsmall : (foldCase low).toNat < 128 := by
      refine of_toNat_lt (p := fun c => (foldCase c).toNat < 128) ?_ hlow
      decide +kernel
    rw [← foldCase_of_inRange htest, hfold] at hsmall
    omega
  | digit =>
    rw [ClassItem.test, hdecimal] at htest
    cases htest
  | _ => cases hplain

end Classes

/-! ## The patterns but one -/

/-- The patterns after the first one. -/
def otherPatterns : List Pattern := sensitiveValuePatterns.tail

/-- The class has no characters but some of the letters. -/
def amongLetters (letters : List Char) (k : CharClass) : Bool := k.lists letters.contains

/-- The classes do not meet in the second decoded text: one has characters of the last place of a
group only, or the other inner letters, and what would stand beside them is not in the other. -/
def apartTwice (k l : CharClass) : Bool :=
  (amongLetters lastLetters k && l.isPlain) ||
    (k.lists (fun c => !(['f', 'g'].contains c)) && amongLetters innerLetters l)

/-- The letters that a digest lacks. -/
def lackingDigest : List Char := "gijklmnopqrstuvwxyz.".toList

section Patterns
variable {isAlnum : Char → Bool} {text : List Char}

/-- The patterns do not match a text that avoids what they need. -/
theorem search_otherPatterns {absent : CharClass → Bool} {apart : CharClass → CharClass → Bool}
    (hneeds : otherPatterns.all (fun p => p.regex.needs absent apart) = true)
    (havoids : ∀ ignoreCase,
      Regex.Avoids (CharClass.test isAlnum ignoreCase) absent apart text) :
    ∀ p ∈ otherPatterns, p.search isAlnum text = false :=
  fun p hp => Regex.search_eq_false (List.all_eq_true.mp hneeds p hp) (havoids p.ignoreCase)

/-- Then the first pattern decides. -/
theorem any_sensitiveValuePatterns (hother : ∀ p ∈ otherPatterns, p.search isAlnum text = false) :
    sensitiveValuePatterns.any (·.search isAlnum text) =
      Pattern.formulaStart.search isAlnum text := by
  have hpatterns : sensitiveValuePatterns = .formulaStart :: otherPatterns := rfl
  rw [hpatterns, List.any_cons, List.any_eq_false.mpr fun p hp => by simp [hother p hp],
    Bool.or_false]

theorem test_amongLetters {letters : List Char} (htext : ∀ c ∈ text, foldCase c ∉ letters)
    (ignoreCase : Bool) (k : CharClass) (hk : amongLetters letters k = true) :
    ∀ c ∈ text, k.test isAlnum ignoreCase c = false := by
  intro c hc
  rw [Bool.eq_false_iff]
  intro htest
  exact htext c hc (List.contains_iff_mem.mp (CharClass.foldCase_of_lists hk htest))

theorem avoids_of_lacking {letters : List Char} (htext : ∀ c ∈ text, foldCase c ∉ letters)
    (ignoreCase : Bool) : Regex.Avoids (CharClass.test isAlnum ignoreCase) (amongLetters letters)
      (fun _ _ => false) text :=
  ⟨test_amongLetters htext ignoreCase, by rintro k l ⟨⟩⟩

/-- What the patterns need: letters that a digest lacks, and that its decoded form does; of the
second form, neighbours that do not meet there, too. -/
theorem otherPatterns_needs :
    otherPatterns.all (fun p => p.regex.needs (amongLetters lackingDigest) fun _ _ => false) = true ∧
    otherPatterns.all (fun p => p.regex.needs (amongLetters lackingOnce) fun _ _ => false) = true ∧
    otherPatterns.all (fun p => p.regex.needs (amongLetters lackingTwice) apartTwice) = true := by
  decide +kernel

theorem IsDigest.search_otherPatterns {h : List Char} (hd : IsDigest h) :
    ∀ p ∈ otherPatterns, p.search isAlnum h = false := by
  have hlacking : ∀ c ∈ hexDigits, foldCase c ∉ lackingDigest :=
    List.all_iff_forall_prop.mp (by decide)
  exact QueryCraft.search_otherPatterns otherPatterns_needs.1
    (avoids_of_lacking fun c hc => hlacking c (hd.digits c hc))

theorem IsDigestText.search_otherPatterns (ht : IsDigestText text) :
    ∀ p ∈ otherPatterns, p.search isAlnum text = false :=
  QueryCraft.search_otherPatterns otherPatterns_needs.2.1 (avoids_of_lacking ht.foldCase_not_mem)

theorem IsTwiceDecoded.search_otherPatterns (ht : IsTwiceDecoded text) :
    ∀ p ∈ otherPatterns, p.search isAlnum text = false := by
  refine QueryCraft.search_otherPatterns otherPatterns_needs.2.2 fun ignoreCase =>
    ⟨test_amongLetters ht.foldCase_not_mem ignoreCase, ?_⟩
  intro k l hkl c d hcd hc
  rw [Bool.eq_false_iff]
  intro hd
  rw [apartTwice, Bool.or_eq_true, Bool.and_eq_true, Bool.and_eq_true] at hkl
  rcases hkl with ⟨hk, hl⟩ | ⟨hk, hl⟩
  · have hlast := List.contains_iff_mem.mp (CharClass.foldCase_of_lists hk hc)
    rw [CharClass.test_latin hl (ht.latin_of_lastLetters hcd hlast)] at hd
    cases hd
  · have hinner := List.contains_iff_mem.mp (CharClass.foldCase_of_lists hl hd)
    have hbefore := ht.of_innerLetters hcd hinner
    have hother := CharClass.foldCase_of_lists hk hc
    rw [List.contains_iff_mem.mpr hbefore] at hother
    cases hother

end Patterns

/-! ## The first pattern -/

section Formulas
variable {isAlnum : Char → Bool} {text : List Char}

/-- The class of what the first pattern skips. -/
def skippedClass : CharClass where
  items := [.space] ++ Pattern.chars "\ufeff" ++ [.range (Char.ofNat 0) (Char.ofNat 0x1f)] ++
    Pattern.chars "\x7f"

/-- The class of what it looks for. -/
def formulaClass : CharClass where
  items := Pattern.chars "=+-@|"

theorem inRange_iff {low high c : Char} : inRange false low high c = true ↔
    low.toNat ≤ c.toNat ∧ c.toNat ≤ high.toNat := by
  rw [inRange, Bool.false_and, Bool.or_false, Bool.and_eq_true, decide_eq_true_eq,
    decide_eq_true_eq]
  rfl

theorem test_skippedClass {c : Char} :
    skippedClass.test isAlnum false c = true ↔ c.toNat ∈ skippedCodes := by
  have hspace : isSpace c = true ↔ c.toNat ∈ spaceCodes := List.contains_iff_mem
  have hitems : skippedClass.items = [.space, .range '\ufeff' '\ufeff',
    .range (Char.ofNat 0) (Char.ofNat 0x1f), .range '\x7f' '\x7f'] := rfl
  have hfeff : '\ufeff'.toNat = 0xfeff := by decide
  have h7f : '\x7f'.toNat = 0x7f := by decide
  have h0 : (Char.ofNat 0).toNat = 0 := by decide
  have h1f : (Char.ofNat 0x1f).toNat = 0x1f := by decide
  have hpositive : skippedClass.negated = false := rfl
  rw [CharClass.test, hitems, hpositive, Bool.false_bne]
  simp only [List.any_cons, List.any_nil, Bool.or_eq_true, Bool.or_false, ClassItem.test,
    inRange_iff, hspace, hfeff, h7f, h0, h1f, skippedCodes, List.mem_append, List.mem_cons,
    List.mem_range]
  refine or_congr Iff.rfl ?_
  omega

theorem test_formulaClass {c : Char} :
    formulaClass.test isAlnum false c = true ↔ c.toNat ∈ formulaCodes := by
  have hitems : formulaClass.items = [0x3d, 0x2b, 0x2d, 0x40, 0x7c].map
    fun n => .range (Char.ofNat n) (Char.ofNat n) := rfl
  have hcodes : ∀ n ∈ formulaCodes, (Char.ofNat n).toNat = n := by decide
  have hpositive : formulaClass.negated = false := rfl
  rw [CharClass.test, hitems, hpositive, Bool.false_bne, List.any_map, List.any_eq_true]
  simp only [Function.comp_apply, ClassItem.test, inRange_iff]
  constructor
  · rintro ⟨n, hn, hle, hge⟩
    rw [Nat.le_antisymm hge hle, hcodes n hn]
    exact hn
  · intro hc
    refine ⟨c.toNat, hc, ?_⟩
    rw [Char.ofNat_toNat]
    exact ⟨Nat.le_refl _, Nat.le_refl _⟩

/-- Where the first pattern matches, by code points. -/
theorem search_formulaStart : Pattern.formulaStart.search isAlnum text = true ↔
    ∃ u c v, text = u ++ c :: v ∧ (∀ d ∈ u, d.toNat ∈ skippedCodes) ∧ c.toNat ∈ formulaCodes := by
  have hsearch : Pattern.formulaStart.search isAlnum text = true ↔ ∃ u c v, text = u ++ c :: v ∧
      (∀ d ∈ u, skippedClass.test isAlnum false d = true) ∧
      formulaClass.test isAlnum false c = true :=
    Regex.search_start_iff (k := skippedClass) (l := formulaClass)
  simp only [test_skippedClass, test_formulaClass] at hsearch
  exact hsearch

theorem IsDigest.search_formulaStart {h : List Char} (hd : IsDigest h) :
    Pattern.formulaStart.search isAlnum h = false := by
  have hdigit : ∀ c ∈ hexDigits, c.toNat ∉ formulaCodes :=
    List.all_iff_forall_prop.mp (by decide)
  rw [Bool.eq_false_iff]
  intro hfound
  obtain ⟨u, c, v, rfl, -, hc⟩ := QueryCraft.search_formulaStart.mp hfound
  exact hdigit c (hd.digits c (by simp)) hc

/-- A text of a digest starts a formula when its bytes do. -/
theorem IsDigestText.search_formulaStart (ht : IsDigestText text) :
    Pattern.formulaStart.search isAlnum text = formulaBytes (Utf8.bytes text) := by
  have hsmall : ∀ n ∈ formulaCodes, n < 128 := by decide
  rw [Bool.eq_iff_iff, QueryCraft.search_formulaStart, formulaBytes_iff]
  constructor
  · rintro ⟨u, c, v, rfl, hu, hc⟩
    have hascii : ∀ d ∈ u, d.toNat < 128 := by
      intro d hd
      obtain ⟨u, u', rfl⟩ := List.append_of_mem hd
      rw [List.append_assoc, List.cons_append] at ht
      exact (ht.of_skipped (hu d hd)).1
    refine ⟨u.map Char.toNat, c.toNat, Utf8.bytes v, ?_, ?_, hc⟩
    · rw [Utf8.bytes_append, Utf8.bytes_cons, Utf8.bytes_of_ascii hascii,
        Utf8.charBytes_of_ascii (hsmall _ hc)]
      rfl
    · rintro b hb
      obtain ⟨d, hd, rfl⟩ := List.mem_map.mp hb
      exact ⟨hu d hd, hascii d hd⟩
  · rintro ⟨u, b, v, hbytes, hu, hb⟩
    have hcode : ∀ n < 128, (Char.ofNat n).toNat = n := by decide
    obtain ⟨text', rfl, htext'⟩ := Utf8.eq_map_of_bytes hbytes fun b hb => (hu b hb).2
    obtain ⟨v', rfl, -⟩ := Utf8.exists_cons_of_bytes htext' (hsmall b hb)
    refine ⟨u.map Char.ofNat, Char.ofNat b, v', rfl, ?_, ?_⟩
    · intro d hd
      obtain ⟨n, hn, rfl⟩ := List.mem_map.mp hd
      rw [hcode n (hu n hn).2]
      exact (hu n hn).1
    · rw [hcode b (hsmall b hb)]
      exact hb

/-- No group of the second decoded text begins with anything that the first pattern takes. -/
theorem IsTwiceDecoded.search_formulaStart (ht : IsTwiceDecoded text) :
    Pattern.formulaStart.search isAlnum text = false := by
  have hfirst : ∀ n ∈ skippedCodes ++ formulaCodes,
      ¬ Fits (cycle 4 twiceGroup) (Utf8.charBytes (Char.ofNat n)) := by
    decide +kernel
  rw [Bool.eq_false_iff]
  intro hfound
  obtain ⟨u, c, v, rfl, hu, hc⟩ := QueryCraft.search_formulaStart.mp hfound
  have hstart : ∀ d w, u ++ c :: v = d :: w → d.toNat ∉ skippedCodes ++ formulaCodes := by
    intro d w hsplit hd
    have hfits := ht.fits
    rw [hsplit, Utf8.bytes_cons] at hfits
    refine hfirst d.toNat hd ?_
    rw [Char.ofNat_toNat]
    exact hfits.left
  cases u with
  | nil => exact hstart c v rfl (List.mem_append_right _ hc)
  | cons d u => exact hstart d _ rfl (List.mem_append_left _ (hu d List.mem_cons_self))

end Formulas

/-! ## The inspection of a digest -/

namespace IsDigest
variable {h text : List Char} (hd : IsDigest h)
include hd

theorem isUnescaped : TextTables.IsUnescaped h := by
  have hdigits : '%' ∉ hexDigits ∧ '&' ∉ hexDigits := by decide
  have hlength : h.length ≤ maxDecodeLength := by
    rw [hd.length]
    decide
  exact ⟨hlength, fun hc => hdigits.1 (hd.digits _ hc), fun hc => hdigits.2 (hd.digits _ hc)⟩

theorem decodeBase64_iff :
    decodeBase64 h = some text ↔ Base64.decode h = some (Utf8.bytes text) := by
  obtain ⟨bs, hbs, -, hlt, -⟩ := hd.exists_bytes
  rw [hd.decodeBase64_eq_some_iff hbs hlt, hbs, Option.some.injEq]

theorem isDigestText (htext : Base64.decode h = some (Utf8.bytes text)) :
    IsDigestText text ∧ TextTables.IsUnescaped text ∧ text ≠ [] := by
  obtain ⟨bs, hbs, hlength, -, hfits⟩ := hd.exists_bytes
  obtain rfl : bs = Utf8.bytes text := Option.some.inj (hbs.symm.trans htext)
  have ht : IsDigestText text := ⟨hfits⟩
  have hshort := Utf8.length_le_bytes text
  have hmax : 48 ≤ maxDecodeLength := by decide
  have hescapes : foldCase '%' ∈ lackingOnce ∧ foldCase '&' ∈ lackingOnce := by decide
  refine ⟨ht, ⟨by omega, fun hc => ht.foldCase_not_mem _ hc hescapes.1,
    fun hc => ht.foldCase_not_mem _ hc hescapes.2⟩, ?_⟩
  rintro rfl
  cases hlength

/-- A digest is sensitive exactly when it reads as a formula. -/
theorem isSensitiveString_iff (tables : TextTables) : ∃ sensitive,
    tables.isSensitiveString (String.ofList h) = some sensitive ∧
      (sensitive = true ↔ ReadsAsFormula h) := by
  obtain ⟨variants, hvariants, hmem⟩ := tables.exists_decodedVariants hd.isUnescaped
    fun u hu => (hd.isDigestText (hd.decodeBase64_iff.mp hu)).2.1
  refine ⟨_, by rw [TextTables.isSensitiveString, String.toList_ofList, hvariants]; rfl, ?_⟩
  rw [List.any_eq_true]
  constructor
  · rintro ⟨t, ht, hmatch⟩
    rcases (hmem t).mp ht with rfl | ⟨-, hfirst | ⟨u, hu, hsecond⟩⟩
    · rw [any_sensitiveValuePatterns hd.search_otherPatterns, hd.search_formulaStart] at hmatch
      cases hmatch
    · have hbytes := hd.decodeBase64_iff.mp hfirst
      have hdigest := (hd.isDigestText hbytes).1
      rw [any_sensitiveValuePatterns hdigest.search_otherPatterns, hdigest.search_formulaStart,
        hd.formulaBytes_decode hbytes] at hmatch
      exact ⟨hmatch, t, hbytes⟩
    · have htwice := hd.isTwiceDecoded hu hsecond
      rw [any_sensitiveValuePatterns htwice.search_otherPatterns, htwice.search_formulaStart]
        at hmatch
      cases hmatch
  · rintro ⟨hspells, text, htext⟩
    obtain ⟨ht, -, hne⟩ := hd.isDigestText htext
    refine ⟨text, (hmem text).mpr (.inr ⟨hne, .inl (hd.decodeBase64_iff.mpr htext)⟩), ?_⟩
    rw [any_sensitiveValuePatterns ht.search_otherPatterns, ht.search_formulaStart,
      hd.formulaBytes_decode htext, hspells]

end IsDigest

/-! ## Hashes of the chain -/

/-- What stands in the columns for hashes: a digest, or the link of the first row. -/
def IsChainHash (hash : String) : Prop := hash = genesis ∨ IsDigest hash.toList

theorem not_readsAsFormula_genesis : ¬ ReadsAsFormula genesis.toList := by
  intro h
  exact absurd h.1 (by decide)

/-- The row's hash is a digest, and its link is one of the chain. -/
structure AuditLogEntry.HasDigests (e : AuditLogEntry) : Prop where
  rowHash : IsDigest e.rowHash.toList
  prevHash : IsChainHash e.prevHash

/-- The row hash is a digest. -/
def AuditEnv.HashesDigests (env : AuditEnv) : Prop :=
  ∀ payload prevHash, IsDigest (env.computeRowHash payload prevHash).toList

/-- The redaction is `redact_audit_value` with these tables, where that returns. -/
def AuditEnv.RedactsBy (env : AuditEnv) (tables : TextTables) : Prop :=
  ∀ v w, tables.redactAuditValue v = some w → env.redactAuditValue v = w

namespace TextTables
variable (tables : TextTables)

theorem redactAuditValue_str {s : String} {sensitive : Bool}
    (h : tables.isSensitiveString s = some sensitive) :
    tables.redactAuditValue (.str s) = some (.str (if sensitive then redacted else s)) := by
  rw [redactAuditValue, h, Option.map_some, apply_ite Json.str]

theorem isSensitiveString_genesis : tables.isSensitiveString genesis = some false := by
  have hunescaped : IsUnescaped genesis.toList := ⟨by decide, by decide, by decide⟩
  have hplain : sensitiveValuePatterns.any (·.search Char.isAlphanum genesis.toList) = false := by
    decide +kernel
  rw [tables.isSensitiveString_of_unescaped hunescaped (by decide +kernel) (by simp [genesis]),
    hplain]

/-- A hash is redacted exactly when it reads as a formula. -/
theorem redactAuditValue_hash {hash : String} (h : IsChainHash hash) :
    ∃ kept, tables.redactAuditValue (.str hash) = some (.str kept) ∧
      (kept = hash ↔ ¬ ReadsAsFormula hash.toList) := by
  rcases h with rfl | hd
  · refine ⟨genesis, tables.redactAuditValue_str tables.isSensitiveString_genesis, ?_⟩
    exact iff_of_true rfl not_readsAsFormula_genesis
  · obtain ⟨sensitive, hsensitive, hiff⟩ := hd.isSensitiveString_iff tables
    rw [String.ofList_toList] at hsensitive
    have hother : redacted ≠ hash := by
      rintro rfl
      exact absurd hd.length (by decide)
    refine ⟨_, tables.redactAuditValue_str hsensitive, ?_⟩
    rw [← hiff]
    cases sensitive with
    | true => exact iff_of_false hother (by simp)
    | false => exact iff_of_true rfl (by simp)

/-- Whether a key of ASCII is sensitive does not depend on the tables. -/
theorem isSensitiveKey_ascii {key : String} (h : ∀ c ∈ key.toList, c.toNat < 128) :
    tables.isSensitiveKey key = asciiTables.isSensitiveKey key := by
  rw [isSensitiveKey, tables.lower_ascii h]
  rfl

/-- The keys of a marker's context. -/
def markerKeys : List String :=
  ["purged_from_seq", "purged_to_seq", "purged_count", "retention_months", "last_retained_hash",
    "last_retained_seq", "first_surviving_seq", "first_surviving_prev_hash"]

theorem isSensitiveKey_markerKeys : ∀ key ∈ markerKeys, tables.isSensitiveKey key = false := by
  have hascii : ∀ key ∈ markerKeys, key.toList.all (·.toNat < 128) = true := by decide
  have hplain : ∀ key ∈ markerKeys, asciiTables.isSensitiveKey key = false := by decide +kernel
  intro key hkey
  rw [tables.isSensitiveKey_ascii (List.all_iff_forall_prop.mp (hascii key hkey)),
    hplain key hkey]

/-- The context of a marker survives exactly when its hashes do. -/
theorem redactAuditValue_context {b : PurgeBoundary} (h : ∀ hash ∈ b.hashes, IsChainHash hash) :
    ∃ v, tables.redactAuditValue b.context = some v ∧
      (v = b.context ↔ ∀ hash ∈ b.hashes, ¬ ReadsAsFormula hash.toList) := by
  have hkeys := tables.isSensitiveKey_markerKeys
  simp only [markerKeys, List.forall_mem_cons] at hkeys
  obtain ⟨last, hlast, hlastIff⟩ := tables.redactAuditValue_hash (h _ List.mem_cons_self)
  have hint : ∀ n : Int, tables.redactAuditValue (.int n) = some (.int n) := fun _ => rfl
  have hseq : tables.redactAuditValue ((b.firstSurviving.map fun s => Json.int s.1).getD .null) =
      some ((b.firstSurviving.map fun s => Json.int s.1).getD .null) := by
    cases b.firstSurviving <;> rfl
  obtain ⟨link, hlink, hlinkIff⟩ : ∃ link, tables.redactAuditValue
      ((b.firstSurviving.map fun s => Json.str s.2).getD .null) = some link ∧
        (link = (b.firstSurviving.map fun s => Json.str s.2).getD .null ↔
          ∀ hash ∈ (b.firstSurviving.map (·.2)).toList, ¬ ReadsAsFormula hash.toList) := by
    cases hsurvivor : b.firstSurviving with
    | none => exact ⟨.null, rfl, by simp⟩
    | some survivor =>
      obtain ⟨kept, hkept, hiff⟩ := tables.redactAuditValue_hash (h survivor.2 (by
        simp [PurgeBoundary.hashes, hsurvivor]))
      exact ⟨.str kept, hkept, by simpa using hiff⟩
  refine ⟨.obj
    [("first_surviving_prev_hash", link),
     ("first_surviving_seq", (b.firstSurviving.map (fun s => Json.int s.1)).getD .null),
     ("last_retained_hash", .str last),
     ("last_retained_seq", .int b.lastRetainedSeq),
     ("purged_count", .int b.purgedCount),
     ("purged_from_seq", .int b.purgedFromSeq),
     ("purged_to_seq", .int b.purgedToSeq),
     ("retention_months", .int b.retentionMonths)], ?_, ?_⟩
  · rw [PurgeBoundary.context, redactAuditValue]
    simp only [redactFields, hkeys, Bool.false_eq_true, if_false, hint, hlast, hseq, hlink,
      Option.bind_some, Option.map_some]
  · rw [PurgeBoundary.hashes, List.forall_mem_cons, ← hlinkIff, ← hlastIff, PurgeBoundary.context]
    simp [and_comm]

end TextTables

/-! ## Purges -/

namespace AuditTable
variable {env : AuditEnv} {tables : TextTables} {T T' : AuditTable} {b : PurgeBoundary}

/-- The marker keeps the boundary exactly when none of its hashes reads as a formula. -/
theorem keepsMarker_iff (hredacts : env.RedactsBy tables)
    (h : ∀ hash ∈ b.hashes, IsChainHash hash) :
    env.KeepsMarker b ↔ ∀ hash ∈ b.hashes, ¬ ReadsAsFormula hash.toList := by
  obtain ⟨v, hv, hiff⟩ := tables.redactAuditValue_context h
  rw [AuditEnv.KeepsMarker, hredacts _ _ hv]
  exact hiff

/-- The markers of a chain of digests are kept exactly when no row hash reads as a formula. -/
theorem keepsMarkers_iff (hredacts : env.RedactsBy tables) (hdigests : env.HashesDigests) :
    env.KeepsMarkers ↔ ∀ hash, env.IsRowHash hash → ¬ ReadsAsFormula hash.toList := by
  have hchain : ∀ hash, env.IsRowHash hash → IsChainHash hash := by
    rintro hash ⟨payload, prevHash, rfl⟩
    exact .inr (hdigests payload prevHash)
  constructor
  · intro hkeeps hash hhash
    -- a boundary after which nothing survives
    let b : PurgeBoundary := ⟨1, 1, 1, 0, hash, 1, none⟩
    have honly : ∀ other ∈ b.hashes, other = hash := fun _ => List.mem_singleton.mp
    have hb : ∀ other ∈ b.hashes, env.IsRowHash other := fun other hother =>
      honly other hother ▸ hhash
    exact (keepsMarker_iff hredacts fun other hother => hchain other (hb other hother)).mp
      (hkeeps b hb) hash List.mem_cons_self
  · intro hreads b hb
    exact (keepsMarker_iff hredacts fun hash hhash => hchain hash (hb hash hhash)).mpr
      fun hash hhash => hreads hash (hb hash hhash)

/-- A boundary records hashes of the table. -/
theorem isChainHash_of_boundary {cutoff : DateTime} {r : Int}
    (hT : ∀ e ∈ T.rows, e.HasDigests)
    (hb : purgeBoundary? (T.expired cutoff) (T.firstSurvivor? cutoff) r = some b) :
    ∀ hash ∈ b.hashes, IsChainHash hash := by
  obtain ⟨first, last, -, hlast, rfl⟩ := purgeBoundary?_spec hb
  intro hash hhash
  rcases List.mem_cons.mp hhash with rfl | hhash
  · exact .inr (hT last (List.mem_filter.mp (List.mem_of_getLast? hlast)).1).rowHash
  · simp only [Option.map_map, Option.mem_toList, Option.map_eq_some_iff,
      Function.comp_apply] at hhash
    obtain ⟨survivor, hsurvivor, rfl⟩ := hhash
    exact (hT survivor (List.mem_of_find?_eq_some hsurvivor)).prevHash

/-- What is logged has digests, too. -/
theorem hasDigests_log (hdigests : env.HashesDigests) (hT : ∀ e ∈ T.rows, e.HasDigests)
    {now : DateTime} {req : LogRequest} (hlog : T.log env now req = some T') :
    ∀ e ∈ T'.rows, e.HasDigests := by
  obtain ⟨T₁, e, hlog₁, he, hrows⟩ := log_spec env T now req
  obtain rfl := Option.some.inj (hlog₁.symm.trans hlog)
  have hnew : e.HasDigests := by
    refine ⟨he.rowHash ▸ hdigests _ _, ?_⟩
    by_cases hfirst : T.nextSequence = 1
    · exact .inl (he.first hfirst)
    · rcases List.eq_nil_or_concat T.rows with hnil | ⟨front, last, hsplit⟩
      · exact absurd (by simp [nextSequence, lastSequence?, hnil]) hfirst
      · rw [List.concat_eq_append] at hsplit
        rw [he.linked front last hsplit hfirst]
        exact .inr (hT last (by simp [hsplit])).rowHash
  rw [hrows, List.forall_mem_append, List.forall_mem_singleton]
  exact ⟨hT, hnew⟩

theorem hasDigests_run (hdigests : env.HashesDigests) (hT : ∀ e ∈ T.rows, e.HasDigests)
    {c : Call} (hrun : c.run env T = some T') : ∀ e ∈ T'.rows, e.HasDigests := by
  cases c with
  | log now req => exact hasDigests_log hdigests hT hrun
  | purge now nowMarker r =>
    obtain ⟨cutoff, -, hpurge⟩ := Option.bind_eq_some_iff.mp hrun
    cases hb : purgeBoundary? (T.expired cutoff) (T.firstSurvivor? cutoff) r with
    | none =>
      rw [hb] at hpurge
      obtain rfl := Option.some.inj hpurge
      exact hT
    | some b =>
      rw [hb] at hpurge
      obtain ⟨T₁, hlog, rfl⟩ := Option.map_eq_some_iff.mp hpurge
      intro e he
      exact hasDigests_log hdigests hT hlog e (List.mem_filter.mp he).1

/-- The rows of every run have digests. -/
theorem runCalls_hasDigests (hdigests : env.HashesDigests) (hT : ∀ e ∈ T.rows, e.HasDigests)
    {cs : List Call} (hrun : runCalls env T cs = some T') : ∀ e ∈ T'.rows, e.HasDigests := by
  induction cs generalizing T with
  | nil =>
    obtain rfl := Option.some.inj hrun
    exact hT
  | cons c cs ih =>
    obtain ⟨T₁, hfirst, hrest⟩ := Option.bind_eq_some_iff.mp hrun
    exact ih (hasDigests_run hdigests hT hfirst) hrest

/-- The marker that is stored for a boundary. -/
theorem log_marker_iff (hredacts : env.RedactsBy tables)
    (h : ∀ hash ∈ b.hashes, IsChainHash hash) (now : DateTime) :
    ∃ T' m, T.log env now b.request = some T' ∧ T'.rows = T.rows ++ [m] ∧
      (m.context = b.context ↔ ∀ hash ∈ b.hashes, ¬ ReadsAsFormula hash.toList) := by
  obtain ⟨T', m, hlog, hm, hrows⟩ := log_spec env T now b.request
  refine ⟨T', m, hlog, hrows, ?_⟩
  rw [hm.context]
  exact keepsMarker_iff hredacts h

/-- **Which digests survive the redaction**, alone and in the marker of a purge.  What is asked of
the table holds in every run. -/
theorem digests_survive_iff (tables : TextTables) :
    (∀ h : String, IsDigest h.toList →
      (tables.redactAuditValue (.str h) = some (.str h) ↔ ¬ ReadsAsFormula h.toList)) ∧
    (∀ (env : AuditEnv) (T : AuditTable) (cutoff now : DateTime) (r : Int) (b : PurgeBoundary),
      env.RedactsBy tables → (∀ e ∈ T.rows, e.HasDigests) →
      purgeBoundary? (T.expired cutoff) (T.firstSurvivor? cutoff) r = some b →
      ∃ T' m, T.log env now b.request = some T' ∧ T'.rows = T.rows ++ [m] ∧
        (m.context = b.context ↔ ∀ hash ∈ b.hashes, ¬ ReadsAsFormula hash.toList)) ∧
    ∀ (env : AuditEnv) (cs : List Call) (T : AuditTable), env.HashesDigests →
      runCalls env AuditTable.empty cs = some T → ∀ e ∈ T.rows, e.HasDigests := by
  refine ⟨?_, ?_, ?_⟩
  · intro h hd
    obtain ⟨kept, hkept, hiff⟩ := tables.redactAuditValue_hash (.inr hd)
    rw [hkept, ← hiff, Option.some.injEq, Json.str.injEq]
  · intro env T cutoff now r b hredacts hT hb
    exact log_marker_iff hredacts (isChainHash_of_boundary hT hb) now
  · intro env cs T hdigests hrun
    exact runCalls_hasDigests hdigests (by simp) hrun

/-! ### Two digests -/

/-- The digest of the empty text. -/
def emptyDigest : String := "e3b0c44298fc1c149afbf4c8996fb92427ae41e4649b934ca495991b7852b855"

/-- A digest that is decoded to delete characters and `=`. -/
def formulaDigest : String := "f389f389f389f389f389f389f389f389f389f389f389f389f389f389f389f389"

theorem isDigest_emptyDigest : IsDigest emptyDigest.toList := by decide +kernel

theorem isDigest_formulaDigest : IsDigest formulaDigest.toList := by decide +kernel

theorem not_readsAsFormula_emptyDigest : ¬ ReadsAsFormula emptyDigest.toList := by
  intro h
  exact absurd h.1 (by decide)

theorem readsAsFormula_formulaDigest : ReadsAsFormula formulaDigest.toList := by
  refine ⟨by decide +kernel, (List.replicate 16 ['\x7f', '\x7f', '=']).flatten, ?_⟩
  decide +kernel

/-- Every row has the same hash. -/
def sameHash (hash : String) : AuditEnv where
  sha256 _ := hash
  redactAuditValue v := (asciiTables.redactAuditValue v).getD v

theorem sameHash_redactsBy (hash : String) : (sameHash hash).RedactsBy asciiTables := by
  intro v w h
  show (asciiTables.redactAuditValue v).getD v = w
  rw [h]
  rfl

/-- The first row. -/
def firstRow (hash : String) : AuditLogEntry where
  sequenceNumber := 1
  timestamp := januaryNoon 0
  actorId := none
  actorIdentity := none
  actionType := AuditActionType.querySubmit.value
  resourceType := none
  resourceId := none
  outcome := "success"
  context := .obj []
  prevHash := genesis
  rowHash := hash

/-- The table with the first row only. -/
def firstRowTable (hash : String) : AuditTable := ⟨[firstRow hash], List.pairwise_singleton _ _⟩

theorem firstRowTable_hasDigests {hash : String} (hd : IsDigest hash.toList) :
    ∀ e ∈ (firstRowTable hash).rows, e.HasDigests :=
  List.forall_mem_singleton.mpr ⟨hd, .inl rfl⟩

/-- What a purge of that row records. -/
def firstRowBoundary (hash : String) : PurgeBoundary := ⟨1, 1, 1, 0, hash, 1, none⟩

theorem purgeBoundary?_firstRowTable (hash : String) :
    purgeBoundary? ((firstRowTable hash).expired (januaryNoon 1))
      ((firstRowTable hash).firstSurvivor? (januaryNoon 1)) 0 = some (firstRowBoundary hash) := by
  have hold : januaryNoon 0 < januaryNoon 1 ∧ ¬ januaryNoon 1 ≤ januaryNoon 0 := by decide
  have hexpired : (firstRowTable hash).expired (januaryNoon 1) = [firstRow hash] :=
    List.filter_cons_of_pos (decide_eq_true hold.1)
  have hsurvivor : (firstRowTable hash).firstSurvivor? (januaryNoon 1) = none :=
    List.find?_cons_of_neg fun h => hold.2 (of_decide_eq_true h)
  rw [hexpired, hsurvivor]
  rfl

/-- The digest of the empty text survives, also in the marker of a purge. -/
theorem emptyDigest_survives :
    asciiTables.redactAuditValue (.str emptyDigest) = some (.str emptyDigest) ∧
    (∃ T' m, (firstRowTable emptyDigest).log (sameHash emptyDigest) (januaryNoon 2)
        (firstRowBoundary emptyDigest).request = some T' ∧
      T'.rows = (firstRowTable emptyDigest).rows ++ [m] ∧
      m.context = (firstRowBoundary emptyDigest).context) ∧
    ∀ e ∈ AuditTable.empty.rows, e.HasDigests := by
  obtain ⟨hstrings, hpurges, hruns⟩ := digests_survive_iff asciiTables
  have hd : IsDigest emptyDigest.toList := isDigest_emptyDigest
  obtain ⟨T', m, hlog, hrows, hcontext⟩ := hpurges (sameHash emptyDigest)
    (firstRowTable emptyDigest) (januaryNoon 1) (januaryNoon 2) 0 (firstRowBoundary emptyDigest)
    (sameHash_redactsBy emptyDigest) (firstRowTable_hasDigests hd)
    (purgeBoundary?_firstRowTable emptyDigest)
  exact ⟨(hstrings emptyDigest hd).mpr not_readsAsFormula_emptyDigest,
    ⟨T', m, hlog, hrows,
      hcontext.mpr (List.forall_mem_singleton.mpr not_readsAsFormula_emptyDigest)⟩,
    hruns (sameHash emptyDigest) [] AuditTable.empty (fun _ _ => hd) rfl⟩

/-- **Not every digest survives the redaction**, alone or in the marker of a purge. -/
theorem formulaDigest_redacted :
    (¬ ∀ (tables : TextTables) (h : String), IsDigest h.toList →
      tables.redactAuditValue (.str h) = some (.str h)) ∧
    ¬ ∀ (tables : TextTables) (env : AuditEnv) (T : AuditTable) (cutoff now : DateTime) (r : Int)
      (b : PurgeBoundary), env.RedactsBy tables → (∀ e ∈ T.rows, e.HasDigests) →
      purgeBoundary? (T.expired cutoff) (T.firstSurvivor? cutoff) r = some b →
      ∃ T' m, T.log env now b.request = some T' ∧ T'.rows = T.rows ++ [m] ∧
        m.context = b.context := by
  have hd : IsDigest formulaDigest.toList := isDigest_formulaDigest
  constructor
  · intro h
    obtain ⟨kept, hkept, hiff⟩ := asciiTables.redactAuditValue_hash (.inr hd)
    rw [h asciiTables formulaDigest hd, Option.some.injEq, Json.str.injEq] at hkept
    exact hiff.mp hkept.symm readsAsFormula_formulaDigest
  · intro h
    have hredacts := sameHash_redactsBy formulaDigest
    have hrows := firstRowTable_hasDigests hd
    have hb := purgeBoundary?_firstRowTable formulaDigest
    obtain ⟨T', m, hlog, hrows', hcontext⟩ :=
      h asciiTables (sameHash formulaDigest) (firstRowTable formulaDigest) (januaryNoon 1)
        (januaryNoon 2) 0 (firstRowBoundary formulaDigest) hredacts hrows hb
    obtain ⟨T₁, m₁, hlog₁, hrows₁, hiff⟩ := log_marker_iff hredacts
      (isChainHash_of_boundary hrows hb) (januaryNoon 2)
    obtain rfl := Option.some.inj (hlog₁.symm.trans hlog)
    obtain ⟨rfl, -⟩ := List.cons.inj (List.append_cancel_left (hrows₁.symm.trans hrows'))
    exact hiff.mp hcontext formulaDigest List.mem_cons_self readsAsFormula_formulaDigest

end AuditTable

end QueryCraft
