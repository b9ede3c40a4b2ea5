import Mathlib.Data.List.Basic
import Mathlib.Data.List.Induction
import Mathlib.Data.Nat.Log
import Mathlib.Tactic.Ring

/-! # Decimals and their significant digits

A decimal is an integer mantissa and a number of digits after the point.  Printing with
a precision of `k` rounds the mantissa to its `k` leading digits, ties to even, and keeps
the scale, so that everything happens among natural numbers.

The decimal text of a natural number has no leading zero, and every text of digits without one
is the text of a number (`toDigits_ofDigitChars`).
-/
namespace QueryCraft

/-- `mantissa · 10^(-scale)`. -/
structure Decimal where
  mantissa : Int
  scale : Nat
deriving DecidableEq, Repr

/-- The quotient, rounded to the nearest integer, ties to even. -/
def roundHalfEven (n b : Nat) : Nat :=
  if 2 * (n % b) < b ∨ (2 * (n % b) = b ∧ (n / b) % 2 = 0) then n / b else n / b + 1

/-- The weight of the last of the `k` leading digits. -/
def lastPlace (k n : Nat) : Nat := 10 ^ (Nat.log 10 n + 1 - k)

/-- A natural number rounded to its `k` leading digits. -/
def roundSignificant (k n : Nat) : Nat := roundHalfEven n (lastPlace k n) * lastPlace k n

variable {k n b c e : Nat}

theorem roundHalfEven_le (n b : Nat) : roundHalfEven n b ≤ n / b + 1 := by
  unfold roundHalfEven
  split <;> omega

theorem le_roundHalfEven (n b : Nat) : n / b ≤ roundHalfEven n b := by
  unfold roundHalfEven
  split <;> omega

/-- A number below the middle between two quotients is not rounded up to the larger one. -/
theorem roundHalfEven_le_of_lt (hb : 0 < b) (h : 2 * n < (2 * c + 1) * b) :
    roundHalfEven n b ≤ c := by
  have hmul : (2 * c + 1) * b = 2 * (c * b) + b := by ring
  have hq : n / b ≤ c := by
    by_contra hlt
    have hle : (c + 1) * b ≤ n :=
      (Nat.mul_le_mul_right b (not_le.mp hlt)).trans (Nat.div_mul_le_self n b)
    rw [Nat.succ_mul] at hle
    omega
  rcases Nat.lt_or_eq_of_le hq with hlt | heq
  · exact (roundHalfEven_le n b).trans hlt
  · -- the last quotient: the remainder is below the middle
    have hdiv : b * (n / b) + n % b = n := Nat.div_add_mod n b
    rw [heq, Nat.mul_comm b c] at hdiv
    rw [roundHalfEven, if_pos (.inl (by omega))]
    exact hq

theorem lastPlace_pos (k n : Nat) : 0 < lastPlace k n := Nat.pow_pos (by decide)

/-- A number with at most `k` digits is not rounded. -/
theorem roundSignificant_of_lt (hk : 0 < k) (h : n < 10 ^ k) : roundSignificant k n = n := by
  have hlog : Nat.log 10 n < k := by
    rcases Nat.eq_zero_or_pos n with rfl | hn
    · simpa using hk
    · exact Nat.log_lt_of_lt_pow hn.ne' h
  have hplace : lastPlace k n = 1 := by
    rw [lastPlace, Nat.sub_eq_zero_of_le hlog, pow_zero]
  simp [roundSignificant, hplace, roundHalfEven, Nat.mod_one]

/-- Rounding does not lower the number of digits. -/
theorem le_roundSignificant (hk : 0 < k) (hke : k ≤ e) (h : 10 ^ e ≤ n) :
    10 ^ e ≤ roundSignificant k n := by
  have hn : n ≠ 0 := by
    have : 0 < 10 ^ e := Nat.pow_pos (by decide)
    omega
  have hlog : e ≤ Nat.log 10 n := Nat.le_log_of_pow_le (by decide) h
  have hpow : 10 ^ (k - 1) * lastPlace k n = 10 ^ Nat.log 10 n := by
    rw [lastPlace, ← pow_add]
    congr 1
    omega
  have hdiv : 10 ^ (k - 1) ≤ n / lastPlace k n := by
    rw [Nat.le_div_iff_mul_le (lastPlace_pos k n), hpow]
    exact Nat.pow_log_le_self 10 hn
  calc 10 ^ e ≤ 10 ^ Nat.log 10 n := Nat.pow_le_pow_right (by decide) hlog
    _ = 10 ^ (k - 1) * lastPlace k n := hpow.symm
    _ ≤ roundHalfEven n (lastPlace k n) * lastPlace k n :=
      Nat.mul_le_mul_right _ (hdiv.trans (le_roundHalfEven n _))

/-- Rounding goes up to the next power of ten at most. -/
theorem roundSignificant_le (hk : 0 < k) (h : n < 10 ^ e) : roundSignificant k n ≤ 10 ^ e := by
  by_cases hsmall : n < 10 ^ k
  · rw [roundSignificant_of_lt hk hsmall]
    exact h.le
  · have hn : n ≠ 0 := by
      have : 0 < 10 ^ k := Nat.pow_pos (by decide)
      omega
    have hlog : k ≤ Nat.log 10 n := Nat.le_log_of_pow_le (by decide) (not_lt.mp hsmall)
    have hpow : 10 ^ k * lastPlace k n = 10 ^ (Nat.log 10 n + 1) := by
      rw [lastPlace, ← pow_add]
      congr 1
      omega
    have hdiv : n / lastPlace k n < 10 ^ k := by
      rw [Nat.div_lt_iff_lt_mul (lastPlace_pos k n), hpow]
      exact Nat.lt_pow_succ_log_self (by decide) n
    calc roundSignificant k n ≤ 10 ^ k * lastPlace k n :=
          Nat.mul_le_mul_right _ ((roundHalfEven_le n _).trans hdiv)
      _ = 10 ^ (Nat.log 10 n + 1) := hpow
      _ ≤ 10 ^ e := Nat.pow_le_pow_right (by decide) (Nat.log_lt_of_lt_pow hn h)

/-- Rounding stays below a bound that has a `k`-digit number and more than half of its
last place below it. -/
theorem roundSignificant_lt {bound : Nat} (hk : 0 < k)
    (hlow : 10 ^ e < bound) (hhigh : bound ≤ 10 ^ (e + 1))
    (hc : c * 10 ^ (e + 1 - k) < bound) (hmiddle : 2 * bound ≤ (2 * c + 1) * 10 ^ (e + 1 - k))
    (h : n < bound) : roundSignificant k n < bound := by
  by_cases hsmall : n < 10 ^ e
  · exact (roundSignificant_le hk hsmall).trans_lt hlow
  · -- the number has as many digits as the bound
    have hlog : Nat.log 10 n = e :=
      Nat.log_eq_of_pow_le_of_lt_pow (not_lt.mp hsmall) (h.trans_le hhigh)
    rw [roundSignificant, lastPlace, hlog]
    have hround : roundHalfEven n (10 ^ (e + 1 - k)) ≤ c :=
      roundHalfEven_le_of_lt (Nat.pow_pos (by decide)) (by omega)
    exact (Nat.mul_le_mul_right _ hround).trans_lt hc

/-! ## Digits -/

theorem head?_toDigits (n : Nat) : (Nat.toDigits 10 n).head? = some '0' → n = 0 := by
  induction n using Nat.strong_induction_on with
  | _ n ih =>
    intro h
    rw [Nat.toDigits_eq_if (by decide)] at h
    split at h
    · next hlt =>
      have hall : ∀ d < 10, [Nat.digitChar d].head? = some '0' → d = 0 := by decide
      exact hall n hlt h
    · next hge =>
      rw [List.head?_append_of_ne_nil _ Nat.toDigits_ne_nil] at h
      have := ih (n / 10) (by omega) h
      omega

theorem digit_spec {c : Char} (h : c.isDigit = true) :
    c.toNat < 128 ∧ c.toNat - '0'.toNat < 10 ∧ Nat.digitChar (c.toNat - '0'.toNat) = c ∧
      (c.toNat - '0'.toNat = 0 → c = '0') := by
  simp only [Char.isDigit, Bool.and_eq_true, decide_eq_true_eq] at h
  have h1 : '0'.toNat ≤ c.toNat := h.1
  have h2 : c.toNat ≤ '9'.toNat := h.2
  have hall : ∀ n < 58, 48 ≤ n → (Char.ofNat n).toNat < 128 ∧ (Char.ofNat n).toNat - '0'.toNat < 10 ∧
      Nat.digitChar ((Char.ofNat n).toNat - '0'.toNat) = Char.ofNat n ∧
      ((Char.ofNat n).toNat - '0'.toNat = 0 → Char.ofNat n = '0') := by decide
  have := hall c.toNat (Nat.lt_of_le_of_lt h2 (by decide)) (Nat.le_trans (by decide) h1)
  rwa [Char.ofNat_toNat] at this

/-- A text of digits without a leading zero is the text of its number. -/
theorem toDigits_ofDigitChars {text : List Char} (hne : text ≠ [])
    (hdigits : ∀ c ∈ text, c.isDigit = true)
    (hzero : 1 < text.length → text.head? ≠ some '0') :
    Nat.toDigits 10 (Nat.ofDigitChars 10 text 0) = text := by
  induction text using List.reverseRecOn with
  | nil => exact absurd rfl hne
  | append_singleton init c ih =>
    obtain ⟨-, hlt, hchar, -⟩ := digit_spec (hdigits c (by simp))
    rw [Nat.ofDigitChars_append, Nat.ofDigitChars_cons, Nat.ofDigitChars_nil]
    by_cases hinit : init = []
    · subst hinit
      rw [Nat.ofDigitChars_nil, Nat.mul_zero, Nat.zero_add, Nat.toDigits_of_lt_base hlt, hchar]
      rfl
    · have hhead : init.head? ≠ some '0' := by
        have hlong : 1 < (init ++ [c]).length := by
          have := List.length_pos_of_ne_nil hinit
          simp only [List.length_append, List.length_singleton]
          omega
        have := hzero hlong
        rwa [List.head?_append_of_ne_nil _ hinit] at this
      have hrec := ih hinit (fun x hx => hdigits x (by simp [hx])) fun _ => hhead
      have hpos : 0 < Nat.ofDigitChars 10 init 0 := by
        by_contra hnot
        have hnil : Nat.ofDigitChars 10 init 0 = 0 := by omega
        rw [hnil, Nat.toDigits_zero] at hrec
        rw [← hrec] at hhead
        exact hhead rfl
      rw [← Nat.toDigits_append_toDigits (by decide) hpos hlt, hrec,
        Nat.toDigits_of_lt_base hlt, hchar]

end QueryCraft
