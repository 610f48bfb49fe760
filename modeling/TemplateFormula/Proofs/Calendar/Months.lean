import Mathlib
import TemplateFormula.Calendar.Day

/-!
# Months and days

A day is found in its four hundred years by the century, the four years and the year from March in
which it lies. From this a date and its day are the same thing, and the months, counted through the
years, begin on days that ascend: a month has begun by a day if and only if it is no later than the
month of that day.
-/

namespace TemplateFormula.Calendar

/-- Where a day lies among the years from March: after `century` hundreds of years, `fours` times
four years and `single` years more. The last day of four such years is the leap day. -/
structure YearsFromMarch (z : Int) where
  era : Int
  century : Int
  fours : Int
  single : Int
  dayOfYear : Int
  sum_eq : z = 146097 * era + 36524 * century + 1461 * fours + 365 * single + dayOfYear
  century_ge : 0 ≤ century
  century_le : century ≤ 3
  fours_ge : 0 ≤ fours
  fours_le : fours ≤ 24
  single_ge : 0 ≤ single
  single_le : single ≤ 3
  dayOfYear_ge : 0 ≤ dayOfYear
  dayOfYear_le : dayOfYear ≤ 365
  leap : dayOfYear = 365 → single = 3 ∧ (fours = 24 → century = 3)

theorem exists_yearsFromMarch (z : Int) : Nonempty (YearsFromMarch z) := by
  have day : 0 ≤ z % 146097 ∧ z % 146097 < 146097 := by omega
  -- the last day of the four hundred years lies behind four full centuries
  obtain ⟨c, c_ge, c_le, hc⟩ : ∃ c, 0 ≤ c ∧ c ≤ 3 ∧
      (z % 146097 < 36524 * (c + 1) ∨ c = 3) ∧ 36524 * c ≤ z % 146097 := by
    by_cases last : z % 146097 = 146096
    · exact ⟨3, by omega⟩
    · exact ⟨z % 146097 / 36524, by omega⟩
  obtain ⟨f, s, split, f_ge, s_ge, s_lt⟩ : ∃ f s, z % 146097 - 36524 * c = 1461 * f + s ∧
      0 ≤ f ∧ 0 ≤ s ∧ s < 1461 :=
    ⟨(z % 146097 - 36524 * c) / 1461, (z % 146097 - 36524 * c) % 1461, by omega⟩
  obtain ⟨y, d, within, y_ge, y_le, d_ge, d_le, leap⟩ : ∃ y d, s = 365 * y + d ∧ 0 ≤ y ∧ y ≤ 3 ∧
      0 ≤ d ∧ d ≤ 365 ∧ (d = 365 → y = 3) := by
    by_cases last : s = 1460
    · exact ⟨3, 365, by omega⟩
    · exact ⟨s / 365, s % 365, by omega⟩
  exact ⟨⟨z / 146097, c, f, y, d, by omega, c_ge, c_le, f_ge, by omega, y_ge, y_le, d_ge, d_le,
    fun h => ⟨leap h, by omega⟩⟩⟩

namespace YearsFromMarch

variable {z : Int} (p : YearsFromMarch z)

def yearOfEra : Int := 100 * p.century + 4 * p.fours + p.single

def year : Int := 400 * p.era + p.yearOfEra

def dayOfEra : Int := 36524 * p.century + 1461 * p.fours + 365 * p.single + p.dayOfYear

theorem yearOfEra_eq : (p.dayOfEra - p.dayOfEra / 1460 + p.dayOfEra / 36524 -
    p.dayOfEra / 146096) / 365 = p.yearOfEra := by
  obtain ⟨era, c, f, y, d, sum_eq, c_ge, c_le, f_ge, f_le, y_ge, y_le, d_ge, d_le, leap⟩ := p
  simp only [dayOfEra, yearOfEra]
  generalize total : 36524 * c + 1461 * f + 365 * y + d = e
  have centuries : e / 36524 - e / 146096 = c := by
    by_cases last : e = 146096
    · omega
    · have within : 1461 * f + 365 * y + d < 36524 := by omega
      have before : e < 146096 := by omega
      omega
  have fours : e / 1460 = 25 * c + f + if 1460 ≤ 24 * c + f + 365 * y + d then 1 else 0 := by
    split <;> omega
  have regroup : e - e / 1460 + e / 36524 - e / 146096 = e - e / 1460 + c := by omega
  rw [regroup, fours]
  split <;> omega

theorem dayOfYear_eq : p.dayOfEra - (365 * p.yearOfEra + p.yearOfEra / 4 - p.yearOfEra / 100) =
    p.dayOfYear := by
  obtain ⟨era, c, f, y, d, sum_eq, c_ge, c_le, f_ge, f_le, y_ge, y_le, d_ge, d_le, leap⟩ := p
  simp only [dayOfEra, yearOfEra]
  omega

theorem era_eq : z / 146097 = p.era ∧ z % 146097 = p.dayOfEra := by
  obtain ⟨era, c, f, y, d, sum_eq, c_ge, c_le, f_ge, f_le, y_ge, y_le, d_ge, d_le, leap⟩ := p
  simp only [dayOfEra]
  omega

/-- The months that have passed since March. -/
def month : Int := (5 * p.dayOfYear + 2) / 153

theorem month_ge : 0 ≤ p.month := by
  have := p.dayOfYear_ge
  unfold month
  omega

theorem month_le : p.month ≤ 11 := by
  have := p.dayOfYear_le
  unfold month
  omega

/-- The days of the year before the month. -/
def daysBefore (month : Int) : Int := (153 * month + 2) / 5

theorem daysBefore_le : daysBefore p.month ≤ p.dayOfYear := by
  unfold daysBefore month
  omega

theorem lt_daysBefore : p.dayOfYear < daysBefore (p.month + 1) := by
  unfold daysBefore month
  omega

theorem civil_eq {n : Int} (p : YearsFromMarch (n + 719468)) :
    civil n =
      { year := p.year + if p.month < 10 then 0 else 1
        month := if p.month < 10 then p.month + 3 else p.month - 9
        day := p.dayOfYear - daysBefore p.month + 1 } := by
  have ge := p.month_ge
  have le := p.month_le
  simp only [civil, p.era_eq.1, p.era_eq.2, p.yearOfEra_eq, p.dayOfYear_eq, Civil.mk.injEq]
  change _ = _ ∧ (if p.month < 10 then p.month + 3 else p.month - 9) = _ ∧ _
  refine ⟨?_, rfl, rfl⟩
  change p.yearOfEra + p.era * 400 + (if (if p.month < 10 then p.month + 3 else p.month - 9) ≤ 2
    then 1 else 0) = _
  unfold year
  split <;> split <;> omega

theorem isLeapYear_iff (year : Int) : isLeapYear year = true ↔
    year % 4 = 0 ∧ (year % 100 ≠ 0 ∨ year % 400 = 0) := by
  simp [isLeapYear]

/-- A year from March with a leap day comes before a leap year. -/
theorem isLeapYear_of_leap (h : p.dayOfYear = 365) : isLeapYear (p.year + 1) = true := by
  obtain ⟨single, century⟩ := p.leap h
  have fours := p.fours_le
  have fours' := p.fours_ge
  have c := p.century_ge
  have c' := p.century_le
  rw [isLeapYear_iff, year, yearOfEra, single]
  omega

end YearsFromMarch

open YearsFromMarch (daysBefore isLeapYear_iff)

/-- The months but February have the same length in all years. -/
theorem monthLength_eq {m : Int} (ge : 0 ≤ m) (le : m ≤ 10) (year : Int) :
    monthLength year (if m < 10 then m + 3 else m - 9) = daysBefore (m + 1) - daysBefore m := by
  interval_cases m <;> rfl

/-- The day before the first of March, of a year from March. -/
def lastFebruary (year : Int) : Int := year * 365 + year / 4 - year / 100 + year / 400 - 719469

theorem dayNumber_late {month : Int} (late : 2 < month) (year day : Int) :
    dayNumber year month day = lastFebruary year + daysBefore (month - 3) + day := by
  simp only [dayNumber, if_neg (not_le.2 late), if_pos late, lastFebruary, daysBefore]
  omega

theorem dayNumber_early {month : Int} (early : month ≤ 2) (year day : Int) :
    dayNumber year month day = lastFebruary (year - 1) + daysBefore (month + 9) + day := by
  simp only [dayNumber, if_pos early, if_neg (not_lt.2 early), lastFebruary, daysBefore]
  omega

/-- The date exists. -/
structure Civil.Valid (c : Civil) : Prop where
  month_ge : 1 ≤ c.month
  month_le : c.month ≤ 12
  day_ge : 1 ≤ c.day
  day_le : c.day ≤ monthLength c.year c.month

theorem YearsFromMarch.day_eq {n : Int} (p : YearsFromMarch (n + 719468)) :
    lastFebruary p.year + p.dayOfYear + 1 = n := by
  obtain ⟨era, c, f, y, d, sum_eq, c_ge, c_le, f_ge, f_le, y_ge, y_le, d_ge, d_le, leap⟩ := p
  simp only [lastFebruary, year, yearOfEra]
  omega

theorem civil_valid (n : Int) : (civil n).Valid := by
  obtain ⟨p⟩ := exists_yearsFromMarch (n + 719468)
  have ge := p.month_ge
  have le := p.month_le
  have low := p.daysBefore_le
  have high := p.lt_daysBefore
  rw [p.civil_eq]
  refine ⟨?_, ?_, by dsimp only; omega, ?_⟩
  · dsimp only
    split <;> omega
  · dsimp only
    split <;> omega
  · dsimp only
    rcases lt_or_ge p.month 11 with before | february
    · rw [monthLength_eq ge (by omega)]
      omega
    · have last : p.month = 11 := by omega
      have days : daysBefore 11 = 337 := rfl
      have limit := p.dayOfYear_le
      rw [last, days, if_neg (by decide), if_neg (by decide)]
      by_cases leap : p.dayOfYear = 365
      · simp [monthLength, p.isLeapYear_of_leap leap, leap]
      · unfold monthLength
        split <;> omega

theorem dayNumber_civil (n : Int) :
    dayNumber (civil n).year (civil n).month (civil n).day = n := by
  obtain ⟨p⟩ := exists_yearsFromMarch (n + 719468)
  have ge := p.month_ge
  have le := p.month_le
  have day := p.day_eq
  rw [p.civil_eq]
  dsimp only
  by_cases first : p.month < 10
  · rw [if_pos first, if_pos first, dayNumber_late (by omega), Int.add_sub_cancel, Int.add_zero]
    omega
  · rw [if_neg first, if_neg first, dayNumber_early (by omega), Int.sub_add_cancel,
      Int.add_sub_cancel]
    omega

/-- The day on which a month begins, where the months are counted through the years. -/
def monthStart (t : Int) : Int := dayNumber (t / 12) (t % 12 + 1) 1

/-- The month of a day, counted through the years. -/
def monthOf (n : Int) : Int := (civil n).year * 12 + ((civil n).month - 1)

theorem monthStart_eq {year month : Int} (ge : 1 ≤ month) (le : month ≤ 12) :
    monthStart (year * 12 + (month - 1)) = dayNumber year month 1 := by
  have quotient : (year * 12 + (month - 1)) / 12 = year := by omega
  have rest : (year * 12 + (month - 1)) % 12 + 1 = month := by omega
  rw [monthStart, quotient, rest]

theorem lastFebruary_succ (year : Int) :
    lastFebruary year = lastFebruary (year - 1) + daysBefore 11 + monthLength year 2 := by
  have days : daysBefore 11 = 337 := rfl
  have february : monthLength year 2 = if isLeapYear year then 29 else 28 := rfl
  rw [days, february]
  unfold lastFebruary
  split
  · next leap =>
    rw [isLeapYear_iff] at leap
    omega
  · next common =>
    rw [isLeapYear_iff] at common
    omega

/-- The first day behind a month. -/
theorem dayNumber_next {month : Int} (ge : 1 ≤ month) (le : month ≤ 12) (year : Int) :
    dayNumber year month 1 + monthLength year month =
      if month = 12 then dayNumber (year + 1) 1 1 else dayNumber year (month + 1) 1 := by
  rcases lt_trichotomy month 2 with january | rfl | later
  · obtain rfl : month = 1 := by omega
    have length : monthLength year 1 = 31 := rfl
    rw [if_neg (by decide), dayNumber_early (by decide), dayNumber_early (by decide), length]
    simp only [daysBefore]
    omega
  · have length := lastFebruary_succ year
    rw [if_neg (by decide), dayNumber_early (by decide), dayNumber_late (by decide), length]
    simp only [daysBefore]
    omega
  · have length := monthLength_eq (m := month - 3) (by omega) (by omega) year
    rw [if_pos (by omega), sub_add_cancel] at length
    rw [dayNumber_late later, length]
    simp only [daysBefore]
    split
    · rw [dayNumber_early (by decide), Int.add_sub_cancel]
      simp only [daysBefore]
      omega
    · rw [dayNumber_late (by omega)]
      simp only [daysBefore]
      omega

theorem monthStart_succ (t : Int) :
    monthStart (t + 1) = monthStart t + monthLength (t / 12) (t % 12 + 1) := by
  rw [monthStart, monthStart, dayNumber_next (by omega) (by omega)]
  split
  · next last =>
    have quotient : (t + 1) / 12 = t / 12 + 1 := by omega
    have rest : (t + 1) % 12 = 0 := by omega
    rw [quotient, rest]
    rfl
  · next other =>
    have quotient : (t + 1) / 12 = t / 12 := by omega
    have rest : (t + 1) % 12 = t % 12 + 1 := by omega
    rw [quotient, rest]

theorem monthLength_pos (year month : Int) : 0 < monthLength year month := by
  unfold monthLength
  split
  · split <;> decide
  · split <;> decide

theorem strictMono_monthStart : StrictMono monthStart := by
  refine strictMono_int_of_lt_succ fun t => ?_
  rw [monthStart_succ]
  exact lt_add_of_pos_right _ (monthLength_pos _ _)

theorem monthLength_le (year month : Int) : monthLength year month ≤ 31 := by
  unfold monthLength
  split
  · split <;> decide
  · split <;> decide

theorem dayNumber_day (year month day : Int) :
    dayNumber year month day = dayNumber year month 1 + (day - 1) := by
  simp only [dayNumber]
  omega

/-- A day lies in its month. -/
theorem monthStart_monthOf (n : Int) :
    monthStart (monthOf n) ≤ n ∧ n < monthStart (monthOf n + 1) := by
  have ⟨month_ge, month_le, day_ge, day_le⟩ := civil_valid n
  have day := dayNumber_civil n
  rw [dayNumber_day] at day
  have quotient : monthOf n / 12 = (civil n).year := by unfold monthOf; omega
  have rest : monthOf n % 12 + 1 = (civil n).month := by unfold monthOf; omega
  rw [monthStart_succ, monthStart, quotient, rest]
  omega

/-- A month has begun by a day if it is no later than the month of the day. -/
theorem monthStart_le_iff (t n : Int) : monthStart t ≤ n ↔ t ≤ monthOf n := by
  obtain ⟨begun, ends⟩ := monthStart_monthOf n
  constructor
  · intro le
    exact Int.lt_add_one_iff.1 (strictMono_monthStart.lt_iff_lt.1 (le.trans_lt ends))
  · intro le
    exact (strictMono_monthStart.monotone le).trans begun

theorem monthOf_eq {t n : Int} (begun : monthStart t ≤ n) (ends : n < monthStart (t + 1)) :
    monthOf n = t := by
  rw [monthStart_le_iff] at begun
  rw [← not_le, monthStart_le_iff] at ends
  omega

/-- A date is that of its day. -/
theorem civil_dayNumber {c : Civil} (valid : c.Valid) :
    civil (dayNumber c.year c.month c.day) = c := by
  obtain ⟨year, month, day⟩ := c
  obtain ⟨month_ge, month_le, day_ge, day_le⟩ := valid
  dsimp only at *
  have quotient : (year * 12 + (month - 1)) / 12 = year := by omega
  have rest : (year * 12 + (month - 1)) % 12 + 1 = month := by omega
  have within : monthOf (dayNumber year month day) = year * 12 + (month - 1) := by
    apply monthOf_eq
    · rw [monthStart, quotient, rest, dayNumber_day year month day]
      omega
    · rw [monthStart_succ, monthStart, quotient, rest, dayNumber_day year month day]
      omega
  have ⟨low, high, _, _⟩ := civil_valid (dayNumber year month day)
  have same := dayNumber_civil (dayNumber year month day)
  unfold monthOf at within
  generalize civil (dayNumber year month day) = found at *
  obtain ⟨year', month', day'⟩ := found
  dsimp only at *
  obtain rfl : year' = year := by omega
  obtain rfl : month' = month := by omega
  rw [dayNumber_day, dayNumber_day year' month' day] at same
  obtain rfl : day' = day := by omega
  rfl

end TemplateFormula.Calendar
