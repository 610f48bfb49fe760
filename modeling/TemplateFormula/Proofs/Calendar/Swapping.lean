import TemplateFormula.Proofs.Calendar.Counting

/-!
# Counting in both directions

Units of a fixed length are counted alike in both directions. Months are counted by moving the start,
and a day that the other month lacks is cut to the last one there. So from the one date the last
month may be whole, while from the other it is not: this is so if one date is the last of its month
and the other lies on a day which that month lacks, and the time of day does not speak against it.
Larger units differ only if that month is the last of theirs.
-/

namespace TemplateFormula.Calendar.Stamp

variable {a b s t : Stamp} {unit : Unit} {c n : Int}

def daysInMonth (s : Stamp) : Int := monthLength s.date.year s.date.month

def dayTime (s : Stamp) : Int := s.second * 2000000000 + s.nano

theorem position_eq (s : Stamp) : s.position = s.day * 172800000000000 + s.dayTime := by
  unfold position clockSeconds dayTime
  ring

theorem dayTime_bounds (s : Stamp) : 0 ≤ s.dayTime ∧ s.dayTime < 172800000000000 := by
  have := s.second_lt
  have := s.nano_lt
  unfold dayTime
  omega

/-- The last month between two dates is whole if the earlier date is moved, and not if the later
one is. -/
def CutShort (early late : Stamp) : Prop :=
  late.daysInMonth < early.date.day ∧ late.date.day = late.daysInMonth ∧
      early.dayTime ≤ late.dayTime ∨
    early.daysInMonth < late.date.day ∧ early.date.day = early.daysInMonth ∧
      late.dayTime < early.dayTime

theorem day_le_daysInMonth (s : Stamp) : 1 ≤ s.date.day ∧ s.date.day ≤ s.daysInMonth :=
  ⟨(civil_valid s.day).day_ge, (civil_valid s.day).day_le⟩

theorem dayIn_eq (s : Stamp) (day : Int) :
    dayIn (monthOf s.day) day = monthStart (monthOf s.day) + (min day s.daysInMonth - 1) := by
  obtain ⟨year, month⟩ := monthOf_div_mod s.day
  rw [dayIn, year, month]
  rfl

theorem daysInMonth_congr (same : monthOf a.day = monthOf b.day) :
    a.daysInMonth = b.daysInMonth := by
  obtain ⟨year, month⟩ := monthOf_div_mod a.day
  obtain ⟨year', month'⟩ := monthOf_div_mod b.day
  unfold daysInMonth date
  rw [← year, ← month, ← year', ← month', same]

/-- A date moved into the month of another has the same day there, or the last one. -/
theorem day_moved (found : s.addMonths? (monthOf t.day - monthOf s.day) = some a) :
    a.day - t.day = min s.date.day t.daysInMonth - t.date.day ∧ a.dayTime = s.dayTime := by
  obtain ⟨day, second, nano⟩ := addMonths?_eq_some_iff.1 found
  have own := t.dayIn_monthOf
  have ⟨_, le⟩ := t.day_le_daysInMonth
  rw [add_sub_cancel, dayIn_eq] at day
  rw [dayIn_eq, min_eq_left le] at own
  refine ⟨by omega, ?_⟩
  rw [dayTime, dayTime, second, nano]

theorem wholeMonths_swap (le : a ≤ b) :
    ¬ CutShort a b ∧ wholeMonths b a = -wholeMonths a b ∨
      CutShort a b ∧ monthOf a.day < monthOf b.day ∧
        wholeMonths b a = monthOf b.day - monthOf a.day ∧
        wholeMonths a b = -(monthOf b.day - monthOf a.day - 1) := by
  obtain ⟨u, moved, forth⟩ := wholeMonths_cases a b
  obtain ⟨v, moved', back⟩ := wholeMonths_cases b a
  obtain ⟨day, time⟩ := day_moved moved
  obtain ⟨day', time'⟩ := day_moved moved'
  have ⟨_, early⟩ := a.day_le_daysInMonth
  have ⟨_, late⟩ := b.day_le_daysInMonth
  have := a.dayTime_bounds
  have := b.dayTime_bounds
  have passes : b < u → v < a := by
    rw [lt_iff, lt_iff, position_eq, position_eq, position_eq, position_eq]
    omega
  have short : CutShort a b ↔ u ≤ b ∧ v < a := by
    rw [lt_iff, le_iff, position_eq, position_eq, position_eq, position_eq]
    unfold CutShort
    omega
  have months : CutShort a b → monthOf a.day < monthOf b.day := by
    intro cut
    have ne : monthOf a.day ≠ monthOf b.day := by
      intro same
      have length := daysInMonth_congr same
      unfold CutShort at cut
      omega
    refine lt_of_le_of_ne (not_lt.1 fun gt => ?_) ne
    exact (lt_of_monthOf_lt gt).not_ge le
  obtain ⟨-, passed, count⟩ | ⟨gt, -⟩ | ⟨reached, -, count⟩ := forth
  · obtain ⟨gt, -⟩ | ⟨-, -, count'⟩ | ⟨-, reached, -⟩ := back
    · exact absurd le gt.not_ge
    · exact .inl ⟨fun cut => (short.1 cut).1.not_gt passed, by omega⟩
    · exact absurd (reached le) (passes passed).not_ge
  · exact absurd le gt.not_ge
  · obtain ⟨gt, -⟩ | ⟨-, passed, count'⟩ | ⟨-, reached', count'⟩ := back
    · exact absurd le gt.not_ge
    · have cut := short.2 ⟨reached le, passed⟩
      exact .inr ⟨cut, months cut, count, by omega⟩
    · exact .inl ⟨fun cut => (short.1 cut).2.not_ge (reached' le), by omega⟩

theorem nanosSince_swap (a b : Stamp) : a.nanosSince b = -b.nanosSince a := by
  unfold nanosSince
  dsimp only
  rcases lt_trichotomy a.second b.second with lt | same | gt
  · simp only [lt, lt.not_gt, false_and, true_and, if_false]
    split <;> ring
  · simp only [same, lt_irrefl, false_and, if_false]
    ring
  · simp only [gt, gt.not_gt, false_and, true_and, if_false]
    split <;> ring

/-- One less makes a positive quotient smaller only if nothing is left over. -/
theorem tdiv_sub_one_eq_iff (pos : 0 < c) (n_pos : 0 < n) :
    (n - 1).tdiv c = n.tdiv c ↔ ¬ c ∣ n := by
  rw [Int.tdiv_eq_ediv_of_nonneg (by omega), Int.tdiv_eq_ediv_of_nonneg n_pos.le]
  have whole := Int.mul_ediv_add_emod n c
  have rest_ge := Int.emod_nonneg n pos.ne'
  have rest_lt := Int.emod_lt_of_pos n pos
  rw [Int.ediv_eq_iff_of_pos pos, Int.dvd_iff_emod_eq_zero, Int.mul_comm (n / c)]
  omega

theorem difference_swap_of_le (le : a ≤ b) (unit : Unit) :
    b.difference a unit = -a.difference b unit ↔ ∀ c, unit.months? = some c →
      ¬ (c ∣ monthOf b.day - monthOf a.day ∧ CutShort a b) := by
  obtain ⟨size, pos, lt, fixed, unmonthly⟩ | ⟨c, pos, unfixed, monthly⟩ := unit_cases unit
  · refine iff_of_true ?_ fun c monthly => ?_
    · simp only [difference, fixed, millisSince]
      rw [nanosSince_swap, Int.neg_tdiv, Int.neg_tdiv]
    · rw [unmonthly] at monthly
      cases monthly
  · have only (P : Int → Prop) : (∀ d, unit.months? = some d → P d) ↔ P c :=
      ⟨fun all => all c monthly, fun here d same => Option.some.inj (monthly.symm.trans same) ▸ here⟩
    rw [only]
    simp only [difference, unfixed, monthly]
    obtain ⟨uncut, count⟩ | ⟨cut, months, count, count'⟩ := wholeMonths_swap le
    · refine iff_of_true ?_ fun h => uncut h.2
      rw [count, Int.neg_tdiv]
    · rw [count, count', Int.neg_tdiv, Int.neg_neg, eq_comm, tdiv_sub_one_eq_iff pos (by omega)]
      exact not_congr (and_iff_left cut).symm

/-- The difference of two dates changes its sign with their roles, but for units of months, and there
just if one date is cut short in the month of the other and the months between them are whole
units. -/
theorem difference_swap_iff (a b : Stamp) (unit : Unit) :
    a.difference b unit = -b.difference a unit ↔ ∀ c, unit.months? = some c →
      ¬ (c ∣ monthOf b.day - monthOf a.day ∧ CutShort (min a b) (max a b)) := by
  rcases le_total a b with le | le
  · rw [min_eq_left le, max_eq_right le, ← difference_swap_of_le le]
    omega
  · rw [min_eq_right le, max_eq_left le]
    simp only [dvd_sub_comm]
    exact difference_swap_of_le le unit

/-- The leap day of 2024. -/
def leapMorning : Stamp := (ofParts? 2024 2 29 0 0 0 0).get (by decide)

/-- The last day of the February after. -/
def nextFebruary : Stamp := (ofParts? 2025 2 28 0 0 0 0).get (by decide)

/-- A year from the leap day leads to the end of the next February, but a year back from there does
not lead to the leap day. -/
theorem years_not_swapped : leapMorning.isLeapSecond = false ∧
    nextFebruary.isLeapSecond = false ∧
    nextFebruary.difference leapMorning .year ≠ -leapMorning.difference nextFebruary .year := by
  decide

end TemplateFormula.Calendar.Stamp
