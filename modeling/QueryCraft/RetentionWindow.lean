import QueryCraft.Calendar

/-! # The retention window

The purge and the search of audit entries compute the start of the retention window each on its
own.  `retention_cutoffs` says that they agree, that a cutoff is not in the future, and that a
longer retention has an earlier cutoff.

As time goes by the cutoff moves forward, with one exception.  Days that the target month does
not have are clamped to its last day, but the time of day is kept: on 30 March at ten the cutoff
of one month is 28 February at ten, and on 31 March at five it is 28 February at five.
-/
namespace QueryCraft

theorem yearOf_range {n : Int} (h : 1 ≤ n / 12 ∧ n / 12 ≤ 9999) :
    1 ≤ (n / 12).toNat ∧ (n / 12).toNat ≤ 9999 := by
  omega

theorem monthOf_range (n : Int) : 1 ≤ (n % 12).toNat + 1 ∧ (n % 12).toNat + 1 ≤ 12 := by
  omega

theorem clampedDay_range {day : Nat} (h : 1 ≤ day) (year month : Nat) :
    1 ≤ min day (monthLength year month) ∧
      min day (monthLength year month) ≤ monthLength year month := by
  have hmonth := one_le_monthLength year month
  omega

/-- `AuditSearchService._retention_cutoff`, of an instant in UTC.  `none` stands for
`ValueError`, on a year that no `datetime` has. -/
def retentionCutoff (retentionMonths : Int) (current : DateTime) : Option DateTime :=
  let targetMonthIndex : Int := (current.monthIndex : Int) - retentionMonths
  let targetYear := (targetMonthIndex / 12).toNat
  let targetMonth := (targetMonthIndex % 12).toNat + 1
  if h : 1 ≤ targetMonthIndex / 12 ∧ targetMonthIndex / 12 ≤ 9999 then
    some
      { year := targetYear
        month := targetMonth
        day := min current.day (monthLength targetYear targetMonth)
        microsecond := current.microsecond
        year_range := yearOf_range h
        month_range := monthOf_range targetMonthIndex
        day_range := clampedDay_range current.day_range.1 targetYear targetMonth
        microsecond_range := current.microsecond_range }
  else none

/-- The year in which the cutoff lies. -/
def targetYear (retentionMonths : Int) (now : DateTime) : Int :=
  ((now.monthIndex : Int) - retentionMonths) / 12

/-- The length of the month in which the cutoff lies. -/
def targetMonthLength (retentionMonths : Int) (now : DateTime) : Nat :=
  monthLength (targetYear retentionMonths now).toNat
    ((((now.monthIndex : Int) - retentionMonths) % 12).toNat + 1)

/-- Two days of one month are clamped to the same day, and the later instant is earlier in its
day. -/
structure ClampedBack (retentionMonths : Int) (earlier later : DateTime) : Prop where
  month : earlier.monthIndex = later.monthIndex
  day : earlier.day < later.day
  clamped : targetMonthLength retentionMonths earlier ≤ earlier.day
  time : later.microsecond < earlier.microsecond

section Cutoff
variable {r r' : Int} {s t c d : DateTime}

theorem retentionCutoff_eq (hr : 0 ≤ r) (t : DateTime) :
    retentionCutoff r t = computeRetentionCutoff r t := by
  rw [computeRetentionCutoff, if_neg (Int.not_lt.mpr hr)]
  rfl

theorem targetYear_le (hr : 0 ≤ r) (t : DateTime) : targetYear r t ≤ 9999 := by
  have hyear := t.year_range
  have hmonth := t.month_range
  rw [targetYear, DateTime.monthIndex]
  omega

/-- There is a cutoff if the year exists. -/
theorem exists_cutoff (hr : 0 ≤ r) (hyear : 1 ≤ targetYear r t) :
    ∃ c, computeRetentionCutoff r t = some c := by
  rw [computeRetentionCutoff, if_neg (Int.not_lt.mpr hr)]
  exact ⟨_, dif_pos ⟨hyear, targetYear_le hr t⟩⟩

/-- The day of the cutoff. -/
theorem cutoff_day_eq (h : computeRetentionCutoff r t = some c) :
    c.day = min t.day (targetMonthLength r t) := by
  unfold computeRetentionCutoff at h
  split at h
  · cases h
  · dsimp only at h
    split at h
    · cases h
      rfl
    · cases h

/-- Instants are compared by month, day and time of day. -/
theorem DateTime.le_iff : s ≤ t ↔ s.monthIndex < t.monthIndex ∨ (s.monthIndex = t.monthIndex ∧
    (s.day < t.day ∨ (s.day = t.day ∧ s.microsecond ≤ t.microsecond))) := by
  have hs := s.day_range
  have hs' := monthLength_le s.year s.month
  have ht := t.day_range
  have ht' := monthLength_le t.year t.month
  have hm := s.microsecond_range
  have hm' := t.microsecond_range
  rw [DateTime.le_def, DateTime.ordinal, DateTime.ordinal]
  simp only [dayLength] at hm hm' ⊢
  omega

/-- A longer retention has an earlier cutoff. -/
theorem cutoff_antitone (hle : r ≤ r') (h : computeRetentionCutoff r t = some c)
    (h' : computeRetentionCutoff r' t = some d) : d ≤ c := by
  rcases eq_or_lt_of_le hle with rfl | hlt
  · rw [h] at h'
    cases h'
    exact Nat.le_refl _
  · obtain ⟨-, hmonth, -, -⟩ := computeRetentionCutoff_spec h
    obtain ⟨-, hmonth', -, -⟩ := computeRetentionCutoff_spec h'
    refine DateTime.le_iff.mpr (.inl ?_)
    omega

/-- The cutoff moves forward unless the days are clamped and the time of day goes back. -/
theorem cutoff_le_iff (hst : s ≤ t) (h : computeRetentionCutoff r s = some c)
    (h' : computeRetentionCutoff r t = some d) : c ≤ d ↔ ¬ ClampedBack r s t := by
  obtain ⟨-, hmonth, -, htime⟩ := computeRetentionCutoff_spec h
  obtain ⟨-, hmonth', -, htime'⟩ := computeRetentionCutoff_spec h'
  have hday := cutoff_day_eq h
  have hday' := cutoff_day_eq h'
  rw [DateTime.le_iff] at hst
  rw [DateTime.le_iff, htime, htime']
  constructor
  · rintro hle ⟨hsame, hlt, hclamped, hback⟩
    have hlength : targetMonthLength r t = targetMonthLength r s := by
      rw [targetMonthLength, targetMonthLength, targetYear, targetYear, hsame]
    omega
  · intro hnot
    by_cases hsame : s.monthIndex = t.monthIndex
    · have hlength : targetMonthLength r t = targetMonthLength r s := by
        rw [targetMonthLength, targetMonthLength, targetYear, targetYear, hsame]
      by_cases hback : s.day < t.day ∧ targetMonthLength r s ≤ s.day
      · have htimes : ¬ t.microsecond < s.microsecond :=
          fun hlt => hnot ⟨hsame, hback.1, hback.2, hlt⟩
        omega
      · omega
    · omega

end Cutoff

/-- **Retention cutoffs.**  The two functions return the same instant, which is not after now;
later it is not before it, unless the days are clamped and the time of day goes back; and with
a longer retention it is not after it. -/
theorem retention_cutoffs {r : Int} (hr : 0 ≤ r) (t : DateTime) (hyear : 1 ≤ targetYear r t) :
    ∃ c, computeRetentionCutoff r t = some c ∧ retentionCutoff r t = some c ∧ c ≤ t ∧
      (∀ t', t ≤ t' → ∃ c', computeRetentionCutoff r t' = some c' ∧
        (c ≤ c' ↔ ¬ ClampedBack r t t')) ∧
      ∀ r' c', r ≤ r' → computeRetentionCutoff r' t = some c' → c' ≤ c := by
  obtain ⟨c, hc⟩ := exists_cutoff hr hyear
  refine ⟨c, hc, by rw [retentionCutoff_eq hr, hc], computeRetentionCutoff_le hc, ?_, ?_⟩
  · intro t' ht
    have hyear' : 1 ≤ targetYear r t' := by
      rw [DateTime.le_iff] at ht
      rw [targetYear] at hyear ⊢
      omega
    obtain ⟨c', hc'⟩ := exists_cutoff hr hyear'
    exact ⟨c', hc', cutoff_le_iff ht hc hc'⟩
  · intro r' c' hle hc'
    exact cutoff_antitone hle hc hc'

/-- 30 March 2027 at ten. -/
def marchThirtyTen : DateTime :=
  ⟨2027, 3, 30, 36000000000, by decide, by decide, by decide, by decide⟩

/-- 31 March 2027 at five. -/
def marchLastFive : DateTime :=
  ⟨2027, 3, 31, 18000000000, by decide, by decide, by decide, by decide⟩

/-- Three months: December has both days, so the cutoff moves forward. -/
theorem cutoff_forward : ∃ c, computeRetentionCutoff 3 marchThirtyTen = some c ∧
    retentionCutoff 3 marchThirtyTen = some c ∧ c ≤ marchThirtyTen ∧
    ∃ c', computeRetentionCutoff 3 marchLastFive = some c' ∧ c ≤ c' := by
  obtain ⟨c, hc, hsearch, hle, hforward, -⟩ := retention_cutoffs (r := 3) (by decide)
    marchThirtyTen (by decide)
  obtain ⟨c', hc', hiff⟩ := hforward marchLastFive (by decide)
  exact ⟨c, hc, hsearch, hle, c', hc', hiff.mpr fun h => absurd h.clamped (by decide)⟩

/-- One month: the later instant has the earlier cutoff. -/
theorem cutoff_back : marchThirtyTen ≤ marchLastFive ∧
    ∃ c c', computeRetentionCutoff 1 marchThirtyTen = some c ∧
      computeRetentionCutoff 1 marchLastFive = some c' ∧ c' < c :=
  ⟨by decide, _, _, rfl, rfl, by decide⟩

end QueryCraft
