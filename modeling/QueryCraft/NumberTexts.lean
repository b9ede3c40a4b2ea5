import Mathlib.Data.List.DropRight
import QueryCraft.PrefixCodes
import QueryCraft.Timestamps

/-! # Numbers as Python prints them

`repr` of integers and of floats.  A float is given by the decimal that Python prints for it,
with one digit after the point at least and no zeros at the end beyond that (`ShortestFloat`);
such decimals have different texts (`floatText_inj`).
-/
namespace QueryCraft

/-- `repr` of an integer. -/
def intText (n : Int) : List Char :=
  (if n < 0 then ['-'] else []) ++ Nat.toDigits 10 n.natAbs

/-- A number as digits and an exponent, given its digits and the position of its decimal point. -/
def exponentText (digits : List Char) (point : Int) : List Char :=
  let significant := digits.rdropWhile (· = '0')
  let exponent := (point - 1).natAbs
  significant.take 1 ++ (if significant.length = 1 then [] else '.' :: significant.drop 1) ++
    'e' :: (if point ≤ 0 then '-' else '+') ::
      padded (max 2 (Nat.toDigits 10 exponent).length) exponent

/-- A decimal without its sign: with an exponent if it is below 0.0001 or at least 10^16. -/
def magnitudeText (n scale : Nat) : List Char :=
  let digits := Nat.toDigits 10 n
  let point : Int := digits.length - scale
  if n ≠ 0 ∧ (point ≤ -4 ∨ 16 < point) then exponentText digits point
  else Nat.toDigits 10 (n / 10 ^ scale) ++ '.' :: padded scale (n % 10 ^ scale)

/-- `repr` of a float. -/
def floatText (mantissa : Int) (scale : Nat) : List Char :=
  (if mantissa < 0 then ['-'] else []) ++ magnitudeText mantissa.natAbs scale

example : (floatText 125 1, floatText (-10) 1, floatText 12 5, floatText 15 6,
    floatText (10 ^ 23) 1) =
    ("12.5".toList, "-1.0".toList, "0.00012".toList, "1.5e-05".toList, "1e+22".toList) := by
  decide

/-- The decimal is written with as few digits after the point as there can be, but one. -/
def ShortestFloat (mantissa : Int) (scale : Nat) : Bool :=
  1 ≤ scale && (scale = 1 || mantissa % 10 ≠ 0)

/-! ## Digits -/

theorem toDigits_inj {n n' : Nat} (h : Nat.toDigits 10 n = Nat.toDigits 10 n') : n = n' := by
  have hvalue := congrArg (fun ds => Nat.ofDigitChars 10 ds 0) h
  simpa only [Nat.ofDigitChars_ten_toDigits] using hvalue

theorem isDigit_toDigits {n : Nat} : ∀ c ∈ Nat.toDigits 10 n, c.isDigit = true :=
  fun _ hc => Nat.isDigit_of_mem_toDigits (by decide) (by decide) hc

theorem isDigit_padded (width n : Nat) : ∀ c ∈ padded width n, c.isDigit = true := by
  have hdigit : ∀ d < 10, (Char.ofNat ('0'.toNat + d)).isDigit = true := by decide
  induction width generalizing n with
  | zero => simp [padded]
  | succ width ih =>
    intro c hc
    rcases List.mem_append.mp hc with hc | hc
    · exact ih (n / 10) c hc
    · rw [List.mem_singleton.mp hc]
      exact hdigit _ (Nat.mod_lt _ (by decide))

theorem lt_pow_length_toDigits (n : Nat) : n < 10 ^ (Nat.toDigits 10 n).length :=
  (Nat.length_toDigits_le_iff (by decide) Nat.length_toDigits_pos).mp le_rfl

/-- The digits without the zeros at the end, and these zeros. -/
theorem digits_eq_significant (ds : List Char) :
    ds = ds.rdropWhile (· = '0') ++
      List.replicate (ds.length - (ds.rdropWhile (· = '0')).length) '0' := by
  have hsplit := ds.rdropWhile_append_rtakeWhile (p := (· = '0'))
  have hlength := congrArg List.length hsplit
  rw [List.length_append] at hlength
  conv_lhs => rw [← hsplit]
  refine congrArg _ (List.eq_replicate_iff.mpr ⟨by omega, fun c hc => ?_⟩)
  simpa using List.mem_rtakeWhile_imp hc

theorem significant_eq_self {n : Nat} (h : n % 10 ≠ 0) :
    (Nat.toDigits 10 n).rdropWhile (· = '0') = Nat.toDigits 10 n := by
  have hdigit : ∀ d < 10, d ≠ 0 → ¬ Nat.digitChar d = '0' := by decide
  have hlast := hdigit (n % 10) (Nat.mod_lt _ (by decide)) h
  by_cases hn : n < 10
  · rw [Nat.toDigits_of_lt_base hn, List.rdropWhile_singleton,
      if_neg (by rw [Nat.mod_eq_of_lt hn] at hlast; simpa using hlast)]
  · rw [Nat.toDigits_of_base_le (by decide) (by omega)]
    exact List.rdropWhile_concat_neg _ _ _ (by simpa using hlast)

/-! ## Texts -/

/-- A sign can be told from digits. -/
theorem signed_inj {a b : Int} {x y : List Char} (hx : ∀ c ∈ x.head?, c.isDigit = true)
    (hy : ∀ c ∈ y.head?, c.isDigit = true)
    (h : (if a < 0 then ['-'] else []) ++ x = (if b < 0 then ['-'] else []) ++ y) :
    (a < 0 ↔ b < 0) ∧ x = y := by
  have hdash : ∀ z : List Char, (∀ c ∈ z.head?, c.isDigit = true) → ∀ w, '-' :: w ≠ z := by
    rintro z hz w rfl
    exact absurd (hz '-' rfl) (by decide)
  by_cases ha : a < 0
  · by_cases hb : b < 0
    · rw [if_pos ha, if_pos hb] at h
      exact ⟨iff_of_true ha hb, List.append_cancel_left h⟩
    · rw [if_pos ha, if_neg hb] at h
      exact absurd h (hdash y hy x)
  · by_cases hb : b < 0
    · rw [if_neg ha, if_pos hb] at h
      exact absurd h.symm (hdash x hx y)
    · rw [if_neg ha, if_neg hb] at h
      exact ⟨iff_of_false ha hb, h⟩

theorem head?_toDigits_append (n : Nat) (r : List Char) :
    ∀ c ∈ (Nat.toDigits 10 n ++ r).head?, c.isDigit = true := by
  intro c hc
  rw [List.head?_append_of_ne_nil _ Nat.toDigits_ne_nil] at hc
  exact isDigit_toDigits c (List.mem_of_mem_head? hc)

theorem intText_inj {n n' : Int} (h : intText n = intText n') : n = n' := by
  have hhead : ∀ m : Nat, ∀ c ∈ (Nat.toDigits 10 m).head?, c.isDigit = true :=
    fun m c hc => isDigit_toDigits c (List.mem_of_mem_head? hc)
  obtain ⟨hsign, hdigits⟩ := signed_inj (hhead _) (hhead _) h
  have habs := toDigits_inj hdigits
  omega

/-- The digits before and after the decimal point. -/
theorem positional_inj {n n' s s' : Nat}
    (h : Nat.toDigits 10 (n / 10 ^ s) ++ '.' :: padded s (n % 10 ^ s) =
      Nat.toDigits 10 (n' / 10 ^ s') ++ '.' :: padded s' (n' % 10 ^ s')) : n = n' ∧ s = s' := by
  have hpoint : ∀ (r : List Char), ∀ c ∈ ('.' :: r).head?, c.isDigit = false := by
    intro r c hc
    obtain rfl := Option.some.inj hc
    decide
  obtain ⟨hint, hrest⟩ :=
    PrefixCode.span_inj isDigit_toDigits isDigit_toDigits (hpoint _) (hpoint _) h
  have hplaces := List.tail_eq_of_cons_eq hrest
  obtain rfl : s = s' := by
    have hlength := congrArg List.length hplaces
    simpa using hlength
  have hpos : 0 < 10 ^ s := Nat.pow_pos (by decide)
  have hmod := padded_inj (Nat.mod_lt _ hpos) (Nat.mod_lt _ hpos) hplaces
  refine ⟨?_, rfl⟩
  rw [← Nat.div_add_mod n (10 ^ s), ← Nat.div_add_mod n' (10 ^ s), toDigits_inj hint, hmod]

/-- Digits with a decimal point after the first one. -/
theorem filter_mantissa {ds : List Char} (h : ∀ c ∈ ds, c.isDigit = true) :
    (ds.take 1 ++ (if ds.length = 1 then [] else '.' :: ds.drop 1)).filter Char.isDigit = ds := by
  have htake : (ds.take 1).filter Char.isDigit = ds.take 1 :=
    List.filter_eq_self.mpr fun c hc => h c (List.mem_of_mem_take hc)
  have hdrop : (ds.drop 1).filter Char.isDigit = ds.drop 1 :=
    List.filter_eq_self.mpr fun c hc => h c (List.mem_of_mem_drop hc)
  rw [List.filter_append, htake]
  split
  · rename_i hone
    rw [List.filter_nil, List.append_nil, List.take_of_length_le (by omega)]
  · rw [List.filter_cons_of_neg (by decide), hdrop, List.take_append_drop]

theorem padded_max_inj {w e e' : Nat}
    (h : padded (max w (Nat.toDigits 10 e).length) e =
      padded (max w (Nat.toDigits 10 e').length) e') : e = e' := by
  have hlength := congrArg List.length h
  rw [length_padded, length_padded] at hlength
  have hlt : ∀ n : Nat, n < 10 ^ max w (Nat.toDigits 10 n).length := fun n =>
    (lt_pow_length_toDigits n).trans_le (Nat.pow_le_pow_right (by decide) (le_max_right _ _))
  rw [← hlength] at h
  exact padded_inj (hlt e) (hlength ▸ hlt e') h

/-- The exponent starts at the first `e`. -/
theorem ne_e_of_mem_mantissa {ds : List Char} (h : ∀ c ∈ ds, c.isDigit = true) :
    ∀ c ∈ ds.take 1 ++ (if ds.length = 1 then [] else '.' :: ds.drop 1), c ≠ 'e' := by
  intro c hc
  have hne : c.isDigit = true → c ≠ 'e' := by
    rintro hdigit rfl
    exact absurd hdigit (by decide)
  rcases List.mem_append.mp hc with hc | hc
  · exact hne (h c (List.mem_of_mem_take hc))
  · split at hc
    · cases hc
    · rcases List.mem_cons.mp hc with rfl | hc
      · decide
      · exact hne (h c (List.mem_of_mem_drop hc))

theorem sign_inj {p q : Prop} [Decidable p] [Decidable q]
    (h : (if p then '-' else '+') = if q then '-' else '+') : p ↔ q := by
  by_cases hp : p
  · by_cases hq : q
    · exact iff_of_true hp hq
    · rw [if_pos hp, if_neg hq] at h
      exact absurd h (by decide)
  · by_cases hq : q
    · rw [if_neg hp, if_pos hq] at h
      exact absurd h (by decide)
    · exact iff_of_false hp hq

/-- The significant digits and the exponent. -/
theorem exponentText_inj {ds ds' : List Char} {point point' : Int}
    (hds : ∀ c ∈ ds, c.isDigit = true) (hds' : ∀ c ∈ ds', c.isDigit = true)
    (h : exponentText ds point = exponentText ds' point') :
    ds.rdropWhile (· = '0') = ds'.rdropWhile (· = '0') ∧ point = point' := by
  have hsig : ∀ {ds : List Char}, (∀ c ∈ ds, c.isDigit = true) →
      ∀ c ∈ ds.rdropWhile (· = '0'), c.isDigit = true :=
    fun hds c hc => hds c ((List.rdropWhile_prefix _ _).subset hc)
  have hstop : ∀ r : List Char, ∀ c ∈ ('e' :: r).head?, decide (c ≠ 'e') = false := by
    intro r c hc
    obtain rfl := Option.some.inj hc
    decide
  obtain ⟨hfront, hback⟩ := PrefixCode.span_inj (p := fun c => decide (c ≠ 'e'))
    (fun c hc => by simpa using ne_e_of_mem_mantissa (hsig hds) c hc)
    (fun c hc => by simpa using ne_e_of_mem_mantissa (hsig hds') c hc) (hstop _) (hstop _) h
  refine ⟨?_, ?_⟩
  · rw [← filter_mantissa (hsig hds), hfront, filter_mantissa (hsig hds')]
  · have htail := List.tail_eq_of_cons_eq hback
    have hsign : point ≤ 0 ↔ point' ≤ 0 := sign_inj (List.head_eq_of_cons_eq htail)
    have habs := padded_max_inj (List.tail_eq_of_cons_eq htail)
    omega

/-- Decimals of one number of significant digits and one position of the point are the same. -/
theorem eq_of_significant {n n' s s' : Nat} {point : Int} (hs : 1 ≤ s ∧ (s = 1 ∨ n % 10 ≠ 0))
    (hs' : 1 ≤ s' ∧ (s' = 1 ∨ n' % 10 ≠ 0))
    (hsig : (Nat.toDigits 10 n).rdropWhile (· = '0') = (Nat.toDigits 10 n').rdropWhile (· = '0'))
    (hpoint : ((Nat.toDigits 10 n).length : Int) - s = point)
    (hpoint' : ((Nat.toDigits 10 n').length : Int) - s' = point) : n = n' ∧ s = s' := by
  have hlength := congrArg List.length hsig
  have hle := (List.rdropWhile_prefix (· = '0') (Nat.toDigits 10 n)).length_le
  have hle' := (List.rdropWhile_prefix (· = '0') (Nat.toDigits 10 n')).length_le
  have hself : n % 10 ≠ 0 → ((Nat.toDigits 10 n).rdropWhile (· = '0')).length =
      (Nat.toDigits 10 n).length := fun h => by rw [significant_eq_self h]
  have hself' : n' % 10 ≠ 0 → ((Nat.toDigits 10 n').rdropWhile (· = '0')).length =
      (Nat.toDigits 10 n').length := fun h => by rw [significant_eq_self h]
  -- one of the two has no zeros at the end, or both have one digit after the point
  obtain rfl : s = s' := by
    rcases hs.2 with h1 | h1
    · rcases hs'.2 with h2 | h2
      · omega
      · have := hself' h2
        omega
    · have := hself h1
      rcases hs'.2 with h2 | h2
      · omega
      · have := hself' h2
        omega
  have hsame : (Nat.toDigits 10 n).length = (Nat.toDigits 10 n').length := by omega
  refine ⟨toDigits_inj ?_, rfl⟩
  rw [digits_eq_significant (Nat.toDigits 10 n), digits_eq_significant (Nat.toDigits 10 n'), hsig,
    hsame]

theorem magnitudeText_inj {n n' s s' : Nat} (hs : 1 ≤ s ∧ (s = 1 ∨ n % 10 ≠ 0))
    (hs' : 1 ≤ s' ∧ (s' = 1 ∨ n' % 10 ≠ 0)) (h : magnitudeText n s = magnitudeText n' s') :
    n = n' ∧ s = s' := by
  have hexponent : ∀ ds point, 'e' ∈ exponentText ds point := fun ds point => by
    simp [exponentText]
  have hpositional : ∀ m s : Nat,
      'e' ∉ Nat.toDigits 10 (m / 10 ^ s) ++ '.' :: padded s (m % 10 ^ s) := by
    intro m s hmem
    rcases List.mem_append.mp hmem with hmem | hmem
    · exact absurd (isDigit_toDigits _ hmem) (by decide)
    · rcases List.mem_cons.mp hmem with hmem | hmem
      · exact absurd hmem (by decide)
      · exact absurd (isDigit_padded _ _ _ hmem) (by decide)
  unfold magnitudeText at h
  dsimp only at h
  split at h
  · split at h
    · obtain ⟨hsig, hpoint⟩ := exponentText_inj isDigit_toDigits isDigit_toDigits h
      exact eq_of_significant hs hs' hsig hpoint rfl
    · exact absurd (h ▸ hexponent _ _) (hpositional n' s')
  · split at h
    · exact absurd (h.symm ▸ hexponent _ _) (hpositional n s)
    · exact positional_inj h

theorem head?_magnitudeText (n s : Nat) : ∀ c ∈ (magnitudeText n s).head?, c.isDigit = true := by
  unfold magnitudeText
  dsimp only
  split
  · rename_i hexponent
    intro c hc
    have hne : (Nat.toDigits 10 n).rdropWhile (· = '0') ≠ [] := by
      intro hnil
      have hzeros := digits_eq_significant (Nat.toDigits 10 n)
      rw [hnil, List.nil_append] at hzeros
      have hvalue := congrArg (fun ds => Nat.ofDigitChars 10 ds 0) hzeros
      rw [Nat.ofDigitChars_ten_toDigits, Nat.ofDigitChars_replicate_zero, Nat.mul_zero] at hvalue
      exact hexponent.1 hvalue
    obtain ⟨d, ds, hds⟩ := List.exists_cons_of_ne_nil hne
    have hd : d.isDigit = true := isDigit_toDigits d
      ((List.rdropWhile_prefix _ _).subset (hds ▸ List.mem_cons_self))
    rw [exponentText, hds] at hc
    obtain rfl : d = c := by simpa using hc
    exact hd
  · exact head?_toDigits_append _ _

/-- **Floats have different texts.** -/
theorem floatText_inj {m m' : Int} {s s' : Nat} (hs : ShortestFloat m s = true)
    (hs' : ShortestFloat m' s' = true) (h : floatText m s = floatText m' s') :
    m = m' ∧ s = s' := by
  have hshort : ∀ {m : Int} {s : Nat}, ShortestFloat m s = true →
      1 ≤ s ∧ (s = 1 ∨ m.natAbs % 10 ≠ 0) := by
    intro m s h
    simp only [ShortestFloat, Bool.and_eq_true, Bool.or_eq_true, decide_eq_true_eq] at h
    exact ⟨h.1, h.2.imp_right fun h => by omega⟩
  obtain ⟨hsign, hmagnitude⟩ :=
    signed_inj (head?_magnitudeText _ _) (head?_magnitudeText _ _) h
  obtain ⟨habs, hscale⟩ := magnitudeText_inj (hshort hs) (hshort hs') hmagnitude
  exact ⟨by omega, hscale⟩

/-! ## Characters -/

/-- The characters of numbers. -/
def isNumeric (c : Char) : Bool :=
  c.isDigit || c = '-' || c = '+' || c = '.' || c = 'e'

theorem isNumeric_of_isDigit {c : Char} (h : c.isDigit = true) : isNumeric c = true := by
  simp [isNumeric, h]

theorem isNumeric_intText (n : Int) : ∀ c ∈ intText n, isNumeric c = true := by
  intro c hc
  rcases List.mem_append.mp hc with hc | hc
  · split at hc
    · rw [List.mem_singleton.mp hc]
      decide
    · cases hc
  · exact isNumeric_of_isDigit (isDigit_toDigits c hc)

theorem isNumeric_floatText (m : Int) (s : Nat) : ∀ c ∈ floatText m s, isNumeric c = true := by
  intro c hc
  rcases List.mem_append.mp hc with hc | hc
  · split at hc
    · rw [List.mem_singleton.mp hc]
      decide
    · cases hc
  · unfold magnitudeText exponentText at hc
    dsimp only at hc
    have hsig : ∀ c ∈ (Nat.toDigits 10 m.natAbs).rdropWhile (· = '0'), c.isDigit = true :=
      fun c hc => isDigit_toDigits c ((List.rdropWhile_prefix _ _).subset hc)
    split at hc
    · simp only [List.mem_append, List.mem_cons] at hc
      rcases hc with (hc | hc) | rfl | rfl | hc
      · exact isNumeric_of_isDigit (hsig c (List.mem_of_mem_take hc))
      · split at hc
        · cases hc
        · rcases List.mem_cons.mp hc with rfl | hc
          · decide
          · exact isNumeric_of_isDigit (hsig c (List.mem_of_mem_drop hc))
      · decide
      · split
        · decide
        · decide
      · exact isNumeric_of_isDigit (isDigit_padded _ _ c hc)
    · simp only [List.mem_append, List.mem_cons] at hc
      rcases hc with hc | rfl | hc
      · exact isNumeric_of_isDigit (isDigit_toDigits c hc)
      · decide
      · exact isNumeric_of_isDigit (isDigit_padded _ _ c hc)

/-- A float has a decimal point or an exponent. -/
theorem mem_magnitudeText (n s : Nat) : '.' ∈ magnitudeText n s ∨ 'e' ∈ magnitudeText n s := by
  unfold magnitudeText
  dsimp only
  split
  · exact .inr (by simp [exponentText])
  · exact .inl (by simp)

theorem intText_ne_nil (n : Int) : intText n ≠ [] := fun h =>
  Nat.toDigits_ne_nil (List.append_eq_nil_iff.mp h).2

theorem floatText_ne_nil (m : Int) (s : Nat) : floatText m s ≠ [] := by
  intro h
  have hmem := mem_magnitudeText m.natAbs s
  rw [(List.append_eq_nil_iff.mp h).2] at hmem
  rcases hmem with hmem | hmem
  · cases hmem
  · cases hmem

/-- An integer has neither of them. -/
theorem intText_ne_floatText (n m : Int) (s : Nat) : intText n ≠ floatText m s := by
  intro h
  have hint : '.' ∉ intText n ∧ 'e' ∉ intText n := by
    have hall : ∀ c ∈ intText n, c = '-' ∨ c.isDigit = true := by
      intro c hc
      rcases List.mem_append.mp hc with hc | hc
      · split at hc
        · exact .inl (List.mem_singleton.mp hc)
        · cases hc
      · exact .inr (isDigit_toDigits c hc)
    exact ⟨fun hc => absurd (hall _ hc) (by decide), fun hc => absurd (hall _ hc) (by decide)⟩
  rw [h] at hint
  rcases mem_magnitudeText m.natAbs s with hc | hc
  · exact hint.1 (List.mem_append_right _ hc)
  · exact hint.2 (List.mem_append_right _ hc)

end QueryCraft
