import DoubleEntry.Instant.Basic
import Mathlib.Order.Monotone.Basic
import Mathlib.Tactic.IntervalCases
import Mathlib.Tactic.SplitIfs

/-!
# The calendar

Dates are counted from March within eras of 400 years, so that a leap day is the last day of its
year.  Every day has one date (`Instant.exists_isDate`): the date is one of the calendar, gives the
day back, and dates are in the order of their days.

## Main definitions

* `Instant.yearStart`, `Instant.monthStart`: the days before a year of an era, and before a month of
  a year.
* `Instant.IsDate`: the parts of the date of a day.

## Main results

* `Instant.daysOfCivil_civilOfDays`: the date of a day gives the day back.
* `Instant.lt_iff_civil`: dates are in the order of their days.
-/

namespace DoubleEntry

namespace Instant

/-- Days of an era before a year. -/
def yearStart (y : Nat) : Nat := 365 * y + y / 4 - y / 100 + y / 400

/-- Days of a year before a month, counted from March. -/
def monthStart (m : Nat) : Nat := (153 * m + 2) / 5

/-- The days of an era before a day, without those that only leap years have. -/
def commonDays (n : Nat) : Nat := n - n / 1460 + n / 36524 - n / 146096

/-! ### Years of an era -/

theorem monotone_commonDays : Monotone commonDays := by
  refine monotone_nat_of_le_succ fun n => ?_
  unfold commonDays
  omega

theorem monotone_yearStart : Monotone yearStart := by
  refine monotone_nat_of_le_succ fun n => ?_
  unfold yearStart
  omega

/-- At both ends of a year, the common days tell the year. -/
theorem commonDays_ends : ∀ y < 400, 365 * y ≤ commonDays (yearStart y) ∧
    commonDays (yearStart (y + 1) - 1) < 365 * (y + 1) := by
  decide +kernel

/-- **The year of a day.**  What holds at both ends of a year holds in between. -/
theorem year_of_day {n : Nat} (h : n < 146097) :
    commonDays n / 365 < 400 ∧ yearStart (commonDays n / 365) ≤ n ∧
      n < yearStart (commonDays n / 365 + 1) := by
  have last : commonDays n ≤ commonDays 146096 := monotone_commonDays (by omega)
  have last_eq : commonDays 146096 = 145999 := by decide
  have hlt : commonDays n / 365 < 400 := by omega
  refine ⟨hlt, ?_, ?_⟩
  · -- a day before its year would be one of the year before
    by_contra hn
    obtain ⟨y, hy⟩ : ∃ y, commonDays n / 365 = y + 1 := by
      refine Nat.exists_eq_succ_of_ne_zero fun h0 => hn ?_
      rw [h0]
      exact Nat.zero_le n
    rw [hy] at hn
    have hle : commonDays n ≤ commonDays (yearStart (y + 1) - 1) :=
      monotone_commonDays (by omega)
    have := (commonDays_ends y (by omega)).2
    omega
  · by_contra hn
    by_cases hy : commonDays n / 365 + 1 < 400
    · have hle := monotone_commonDays (not_lt.1 hn)
      have := (commonDays_ends _ hy).1
      omega
    · have hend : yearStart (commonDays n / 365 + 1) = 146097 := by
        rw [show commonDays n / 365 + 1 = 400 by omega]
        rfl
      omega

/-! ### Dates -/

/-- The parts of the date of a day: the era, the year of the era, the month counted from March and
the days of the month before it. -/
structure IsDate (days era : Int) (y m d : Nat) : Prop where
  days_eq : days + 719468 = era * 146097 + (yearStart y + monthStart m + d : Nat)
  year_lt : y < 400
  month_lt : m < 12
  in_month : monthStart m + d < monthStart (m + 1)
  in_year : yearStart y + monthStart m + d < yearStart (y + 1)
  civil_eq : civilOfDays days =
    (if m < 10 then y + era * 400 else y + era * 400 + 1, if m < 10 then m + 3 else m - 9, d + 1)

theorem exists_isDate (days : Int) : ∃ era y m d, IsDate days era y m d := by
  obtain ⟨era, hera⟩ : ∃ era, era = (days + 719468) / 146097 := ⟨_, rfl⟩
  obtain ⟨n, hn⟩ : ∃ n, n = (days + 719468 - era * 146097).toNat := ⟨_, rfl⟩
  have hn_lt : n < 146097 := by omega
  obtain ⟨y, hy⟩ : ∃ y, y = commonDays n / 365 := ⟨_, rfl⟩
  obtain ⟨k, hk⟩ : ∃ k, k = n - yearStart y := ⟨_, rfl⟩
  obtain ⟨m, hm⟩ : ∃ m, m = (5 * k + 2) / 153 := ⟨_, rfl⟩
  obtain ⟨hy_lt, hstart, hend⟩ := year_of_day hn_lt
  rw [← hy] at hy_lt hstart hend
  have hciv : civilOfDays days =
      (if (if m < 10 then m + 3 else m - 9) ≤ 2 then (y : Int) + era * 400 + 1 else y + era * 400,
        if m < 10 then m + 3 else m - 9, k - monthStart m + 1) := by
    -- the years of an era are fewer than 400
    have hys : yearStart y = 365 * y + y / 4 - y / 100 := by
      unfold yearStart
      omega
    rw [hm, hk, hys, hy, hn, hera]
    rfl
  have hyear : yearStart (y + 1) ≤ yearStart y + 366 := by
    unfold yearStart
    omega
  have hmonth : monthStart m ≤ k ∧ k < monthStart (m + 1) := by
    unfold monthStart
    omega
  refine ⟨era, y, m, k - monthStart m, by omega, hy_lt, by omega, by omega, by omega, ?_⟩
  rw [hciv]
  split_ifs <;> first | rfl | omega

namespace IsDate

variable {days days' era era' : Int} {y y' m m' d d' : Nat}

theorem month_eq (h : IsDate days era y m d) :
    12 * (civilOfDays days).1 + (civilOfDays days).2.1 = 12 * (y + era * 400) + m + 3 := by
  have := h.month_lt
  rw [h.civil_eq]
  split_ifs <;> push_cast <;> omega

theorem month_bounds (h : IsDate days era y m d) :
    1 ≤ (civilOfDays days).2.1 ∧ (civilOfDays days).2.1 ≤ 12 := by
  have := h.month_lt
  rw [h.civil_eq]
  dsimp only
  split_ifs <;> omega

theorem lt_of_month_lt (h : IsDate days era y m d) (h' : IsDate days' era' y' m' d')
    (hlt : 12 * (y + era * 400) + m < 12 * (y' + era' * 400) + m') : days < days' := by
  have hd := h.days_eq
  have hd' := h'.days_eq
  have hm := h.month_lt
  have hm' := h'.month_lt
  have hy := h.year_lt
  have hy' := h'.year_lt
  have hin := h.in_year
  have hlast : yearStart (y + 1) ≤ 146097 := monotone_yearStart (by omega : y + 1 ≤ 400)
  obtain he | rfl | he := lt_trichotomy era era'
  · omega
  · obtain hyy | rfl | hyy := lt_trichotomy y y'
    · have : yearStart (y + 1) ≤ yearStart y' := monotone_yearStart hyy
      omega
    · have hmm : monthStart (m + 1) ≤ monthStart m' := by
        unfold monthStart
        omega
      have := h.in_month
      omega
    · omega
  · omega

theorem eq_of_month_eq (h : IsDate days era y m d) (h' : IsDate days' era' y' m' d')
    (heq : 12 * (y + era * 400) + m = 12 * (y' + era' * 400) + m') :
    era = era' ∧ y = y' ∧ m = m' := by
  have hm := h.month_lt
  have hm' := h'.month_lt
  have hy := h.year_lt
  have hy' := h'.year_lt
  refine ⟨?_, ?_, ?_⟩ <;> omega

theorem day_le (h : IsDate days era y m d) :
    d + 1 ≤ daysInMonth (civilOfDays days).1 (civilOfDays days).2.1 := by
  have hm := h.month_lt
  have hin := h.in_month
  by_cases h11 : m = 11
  · -- February: its length is what is left of the year
    subst h11
    have hyear := h.in_year
    rw [h.civil_eq]
    simp only [daysInMonth, isLeapYear, show ¬ 11 < 10 by decide, if_false,
      show 11 - 9 = 2 by decide, if_true]
    have hstart : monthStart 11 = 337 := rfl
    rw [hstart] at hyear
    unfold yearStart at hyear
    split_ifs with hleap
    · omega
    · simp only [Bool.and_eq_true, Bool.or_eq_true, beq_iff_eq, bne_iff_ne, ne_eq, not_and,
        not_or, not_not] at hleap
      omega
  · have hm11 : m < 11 := by omega
    rw [h.civil_eq]
    interval_cases m <;> simp [daysInMonth, monthStart] at hin ⊢ <;> omega

end IsDate

variable {a b : Int}

/-- **The date of a day gives the day back.** -/
theorem daysOfCivil_civilOfDays (days : Int) :
    daysOfCivil (civilOfDays days).1 (civilOfDays days).2.1 (civilOfDays days).2.2 = days := by
  obtain ⟨era, y, m, d, h⟩ := exists_isDate days
  have hd := h.days_eq
  have hm := h.month_lt
  have hy := h.year_lt
  have h400 : y / 400 = 0 := by omega
  rw [h.civil_eq]
  -- year, era and month are the ones that the date was made of
  have hera : (y + era * 400 : Int) / 400 = era := by omega
  have hyoe : (y + era * 400 - era * 400 : Int).toNat = y := by omega
  have hyear : (if (if m < 10 then m + 3 else m - 9) ≤ 2 then
      (if m < 10 then (y + era * 400 : Int) else y + era * 400 + 1) - 1
      else if m < 10 then (y + era * 400 : Int) else y + era * 400 + 1) = y + era * 400 := by
    split_ifs <;> omega
  have hmonth : (if (if m < 10 then m + 3 else m - 9) ≤ 2 then
      (if m < 10 then m + 3 else m - 9) + 9 else (if m < 10 then m + 3 else m - 9) - 3) = m := by
    split_ifs <;> omega
  simp only [daysOfCivil, hyear, hmonth, hera, hyoe]
  unfold yearStart monthStart at hd
  omega

/-- **Dates are in the order of their days.** -/
theorem lt_iff_civil :
    a < b ↔ (civilOfDays a).1 < (civilOfDays b).1 ∨ (civilOfDays a).1 = (civilOfDays b).1 ∧
      ((civilOfDays a).2.1 < (civilOfDays b).2.1 ∨ (civilOfDays a).2.1 = (civilOfDays b).2.1 ∧
        (civilOfDays a).2.2 < (civilOfDays b).2.2) := by
  obtain ⟨era, y, m, d, h⟩ := exists_isDate a
  obtain ⟨era', y', m', d', h'⟩ := exists_isDate b
  have hM := h.month_eq
  have hM' := h'.month_eq
  have hb := h.month_bounds
  have hb' := h'.month_bounds
  have hday : (civilOfDays a).2.2 = d + 1 := by rw [h.civil_eq]
  have hday' : (civilOfDays b).2.2 = d' + 1 := by rw [h'.civil_eq]
  obtain hlt | heq | hgt := lt_trichotomy (12 * (y + era * 400) + m : Int)
    (12 * (y' + era' * 400) + m')
  · have := h.lt_of_month_lt h' hlt
    omega
  · obtain ⟨rfl, rfl, rfl⟩ := h.eq_of_month_eq h' heq
    have hd := h.days_eq
    have hd' := h'.days_eq
    omega
  · have := h'.lt_of_month_lt h hgt
    omega

theorem civilOfDays_bounds (days : Int) :
    1 ≤ (civilOfDays days).2.1 ∧ (civilOfDays days).2.1 ≤ 12 ∧ 1 ≤ (civilOfDays days).2.2 ∧
      (civilOfDays days).2.2 ≤ daysInMonth (civilOfDays days).1 (civilOfDays days).2.1 := by
  obtain ⟨era, y, m, d, h⟩ := exists_isDate days
  have hday : (civilOfDays days).2.2 = d + 1 := by rw [h.civil_eq]
  rw [hday]
  exact ⟨h.month_bounds.1, h.month_bounds.2, Nat.le_add_left 1 d, h.day_le⟩

end Instant

end DoubleEntry
