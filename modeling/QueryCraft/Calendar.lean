import Mathlib.Data.Nat.Basic
import Mathlib.Tactic.Linarith

/-! # UTC instants and the retention cutoff

Audit entries carry timezone-aware UTC timestamps, and retention is counted in
calendar months: `AuditService.compute_retention_cutoff` subtracts months from
an anchor and clamps the day to the length of the target month.  An instant is
kept here as its calendar fields, with the facts Python's `datetime` guarantees
about them, and is ordered by `ordinal`, which packs the fields into one number
in the order `datetime` compares them.
-/
namespace QueryCraft

/-- The Gregorian leap-year rule of `calendar.isleap`. -/
def isLeap (year : Nat) : Bool :=
  year % 4 == 0 && (year % 100 != 0 || year % 400 == 0)

/-- `calendar.monthrange(year, month)[1]`. -/
def monthLength (year month : Nat) : Nat :=
  if month = 2 then (if isLeap year then 29 else 28)
  else if month = 4 ∨ month = 6 ∨ month = 9 ∨ month = 11 then 30
  else 31

theorem one_le_monthLength (year month : Nat) : 1 ≤ monthLength year month := by
  unfold monthLength
  split_ifs <;> omega

theorem monthLength_le (year month : Nat) : monthLength year month ≤ 31 := by
  unfold monthLength
  split_ifs <;> omega

/-- Microseconds in a day. -/
abbrev dayLength : Nat := 86400000000

/-- A UTC `datetime`: a calendar day and the microseconds elapsed in it. -/
@[ext]
structure DateTime where
  year : Nat
  month : Nat
  day : Nat
  microsecond : Nat
  year_range : 1 ≤ year ∧ year ≤ 9999
  month_range : 1 ≤ month ∧ month ≤ 12
  day_range : 1 ≤ day ∧ day ≤ monthLength year month
  microsecond_range : microsecond < dayLength
deriving DecidableEq

namespace DateTime

/-- Months elapsed since year zero. -/
def monthIndex (t : DateTime) : Nat := t.year * 12 + (t.month - 1)

/-- The comparison key: the fields packed in the order `datetime` compares them.
Months are given 31 slots each, so this is not a count of elapsed time. -/
def ordinal (t : DateTime) : Nat :=
  (t.monthIndex * 31 + (t.day - 1)) * dayLength + t.microsecond

instance : LE DateTime := ⟨fun s t => s.ordinal ≤ t.ordinal⟩
instance : LT DateTime := ⟨fun s t => s.ordinal < t.ordinal⟩
instance (s t : DateTime) : Decidable (s ≤ t) := inferInstanceAs (Decidable (_ ≤ _))
instance (s t : DateTime) : Decidable (s < t) := inferInstanceAs (Decidable (_ < _))

theorem le_def {s t : DateTime} : s ≤ t ↔ s.ordinal ≤ t.ordinal := Iff.rfl

theorem not_lt {s t : DateTime} : ¬ s < t ↔ t ≤ s := Nat.not_lt

theorem le_trans {s t u : DateTime} (h : s ≤ t) (h' : t ≤ u) : s ≤ u := Nat.le_trans h h'

theorem lt_of_le_of_lt {s t u : DateTime} (h : s ≤ t) (h' : t < u) : s < u :=
  Nat.lt_of_le_of_lt h h'

end DateTime

/-- `AuditService.compute_retention_cutoff`: `retention_months` before the
anchor, the day clamped to the target month.  `none` stands for `ValueError`, on
negative retention or a year before `MINYEAR`. -/
def computeRetentionCutoff (retentionMonths : Int) (now : DateTime) : Option DateTime :=
  if retentionMonths < 0 then none
  else
    -- `divmod` by 12 rounds down, as Lean's integer division does
    let targetMonthIndex : Int := (now.monthIndex : Int) - retentionMonths
    let targetYear := (targetMonthIndex / 12).toNat
    let targetMonth := (targetMonthIndex % 12).toNat + 1
    if h : 1 ≤ targetMonthIndex / 12 ∧ targetMonthIndex / 12 ≤ 9999 then
      some
        { year := targetYear
          month := targetMonth
          day := min now.day (monthLength targetYear targetMonth)
          microsecond := now.microsecond
          year_range := by omega
          month_range := by omega
          day_range := by
            have h1 := one_le_monthLength targetYear targetMonth
            have h2 := now.day_range.1
            omega
          microsecond_range := now.microsecond_range }
    else none

/-- What a cutoff is: as many months earlier, never later in its month, and at
the same time of day. -/
theorem computeRetentionCutoff_spec {r : Int} {now cutoff : DateTime}
    (h : computeRetentionCutoff r now = some cutoff) :
    0 ≤ r ∧ (cutoff.monthIndex : Int) = now.monthIndex - r ∧
      cutoff.day = min now.day (monthLength cutoff.year cutoff.month) ∧
      cutoff.microsecond = now.microsecond := by
  unfold computeRetentionCutoff at h
  split at h
  · cases h
  rename_i hr
  dsimp only at h
  split at h
  · rename_i hy
    obtain rfl := Option.some.inj h
    refine ⟨by omega, ?_, rfl, rfl⟩
    simp only [DateTime.monthIndex]
    have := now.month_range
    simp only [DateTime.monthIndex] at hy
    omega
  · cases h

/-- A cutoff is never in the future of its anchor. -/
theorem computeRetentionCutoff_le {r : Int} {now cutoff : DateTime}
    (h : computeRetentionCutoff r now = some cutoff) : cutoff ≤ now := by
  obtain ⟨hr, hm, hd, hs⟩ := computeRetentionCutoff_spec h
  have h1 := cutoff.day_range
  have h2 := monthLength_le cutoff.year cutoff.month
  have h3 := cutoff.microsecond_range
  have h4 := now.day_range
  rw [DateTime.le_def, DateTime.ordinal, DateTime.ordinal, hs]
  have hday : cutoff.day ≤ now.day := by omega
  have key : cutoff.monthIndex * 31 + (cutoff.day - 1) ≤ now.monthIndex * 31 + (now.day - 1) := by
    omega
  exact Nat.add_le_add_right (Nat.mul_le_mul_right _ key) _

-- One month before 31 March 2026 is the last day of February.
example :
    (computeRetentionCutoff 1 ⟨2026, 3, 31, 5, by decide, by decide, by decide, by decide⟩).map
      (fun c => (c.year, c.month, c.day, c.microsecond)) = some (2026, 2, 28, 5) := by
  decide

end QueryCraft
