import QueryCraft.Calendar

/-! # Timestamps as text

`isoformat` of a timestamp in UTC, as the audit trail hashes it and the cursors carry it.  The
text says which instant it is (`DateTime.isoformat_inj`).
-/
namespace QueryCraft

/-- A number with leading zeros. -/
def padded : Nat → Nat → List Char
  | 0, _ => []
  | width + 1, n => padded width (n / 10) ++ [Char.ofNat ('0'.toNat + n % 10)]

/-- `isoformat` of a UTC datetime. -/
def DateTime.isoformat (t : DateTime) : List Char :=
  let seconds := t.microsecond / 1000000
  let fraction := t.microsecond % 1000000
  padded 4 t.year ++ '-' :: padded 2 t.month ++ '-' :: padded 2 t.day ++
    'T' :: padded 2 (seconds / 3600) ++ ':' :: padded 2 (seconds / 60 % 60) ++
    ':' :: padded 2 (seconds % 60) ++ (if fraction = 0 then [] else '.' :: padded 6 fraction) ++
    ['+', '0', '0', ':', '0', '0']

@[simp] theorem length_padded (width n : Nat) : (padded width n).length = width := by
  induction width generalizing n with
  | zero => rfl
  | succ width ih => simp [padded, ih]

theorem digit_inj : ∀ d < 10, ∀ d' < 10,
    Char.ofNat ('0'.toNat + d) = Char.ofNat ('0'.toNat + d') → d = d' := by decide

theorem padded_inj {width n n' : Nat} (hn : n < 10 ^ width) (hn' : n' < 10 ^ width)
    (h : padded width n = padded width n') : n = n' := by
  induction width generalizing n n' with
  | zero => omega
  | succ width ih =>
    rw [Nat.pow_succ] at hn hn'
    obtain ⟨hhigh, hlow⟩ := List.append_inj' h rfl
    have hdiv : n / 10 = n' / 10 := ih (by omega) (by omega) hhigh
    have hmod : n % 10 = n' % 10 := digit_inj _ (Nat.mod_lt _ (by decide)) _
      (Nat.mod_lt _ (by decide)) (List.head_eq_of_cons_eq hlow)
    omega

/-- The decimal point and six digits, or nothing for a whole second. -/
theorem fraction_inj {a b : Nat} (ha : a < 1000000) (hb : b < 1000000)
    (h : (if a = 0 then [] else '.' :: padded 6 a) = if b = 0 then [] else '.' :: padded 6 b) :
    a = b := by
  split at h
  · split at h
    · omega
    · cases h
  · split at h
    · cases h
    · exact padded_inj ha hb (List.tail_eq_of_cons_eq h)

/-- **Different instants have different texts.** -/
theorem DateTime.isoformat_inj {s t : DateTime} (h : s.isoformat = t.isoformat) : s = t := by
  have hs := s.microsecond_range
  have ht := t.microsecond_range
  have hsday := monthLength_le s.year s.month
  have htday := monthLength_le t.year t.month
  simp only [dayLength] at hs ht
  simp only [isoformat, List.append_assoc, List.cons_append] at h
  obtain ⟨hyear, h⟩ := List.append_inj h (by simp)
  obtain ⟨hmonth, h⟩ := List.append_inj (List.tail_eq_of_cons_eq h) (by simp)
  obtain ⟨hday, h⟩ := List.append_inj (List.tail_eq_of_cons_eq h) (by simp)
  obtain ⟨hhour, h⟩ := List.append_inj (List.tail_eq_of_cons_eq h) (by simp)
  obtain ⟨hminute, h⟩ := List.append_inj (List.tail_eq_of_cons_eq h) (by simp)
  obtain ⟨hsecond, h⟩ := List.append_inj (List.tail_eq_of_cons_eq h) (by simp)
  have hfraction := fraction_inj (Nat.mod_lt _ (by decide)) (Nat.mod_lt _ (by decide))
    (List.append_cancel_right h)
  have hhour := padded_inj (by omega) (by omega) hhour
  have hminute := padded_inj (by omega) (by omega) hminute
  have hsecond := padded_inj (by omega) (by omega) hsecond
  refine DateTime.ext (padded_inj ?_ ?_ hyear) (padded_inj ?_ ?_ hmonth)
    (padded_inj ?_ ?_ hday) (by omega)
  · have := s.year_range
    omega
  · have := t.year_range
    omega
  · have := s.month_range
    omega
  · have := t.month_range
    omega
  · have := s.day_range
    omega
  · have := t.day_range
    omega

end QueryCraft
