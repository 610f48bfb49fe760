import TemplateFormula.Proofs.Calendar.Periods
import TemplateFormula.Proofs.Number.Integers

/-!
# Counting whole units

A date moves by whole steps, nanoseconds or months, in the order of the steps, and between two
numbers of steps that lead to dates all do. A count of steps is taken toward another date: it does
not pass that date, and one step more does. To count in larger steps of the same kind is to truncate
the count toward zero. So the units, which truncate nanoseconds twice or months once, are counted.
-/

namespace TemplateFormula.Calendar

/-- The dates that whole steps from one date lead to. -/
structure Steps (start : Stamp) (move : Int → Option Stamp) : Prop where
  none_moved : move 0 = some start
  lt_of_lt : ∀ {j k : Int} {t u : Stamp}, move j = some t → move k = some u → j < k → t < u
  between : ∀ {i j k : Int} {t u : Stamp}, move i = some t → move k = some u → i ≤ j → j ≤ k →
    ∃ v, move j = some v

/-- So many steps lead toward a date without passing it, and one more passes it. -/
structure Counted (move : Int → Option Stamp) (start stop : Stamp) (n : Int) : Prop where
  forward : start ≤ stop →
    0 ≤ n ∧ (∃ t, move n = some t ∧ t ≤ stop) ∧ ∀ t, move (n + 1) = some t → stop < t
  backward : stop ≤ start →
    n ≤ 0 ∧ (∃ t, move n = some t ∧ stop ≤ t) ∧ ∀ t, move (n - 1) = some t → t < stop

variable {move : Int → Option Stamp} {start stop t u : Stamp} {j k n c : Int}

namespace Steps

theorem le_of_le (steps : Steps start move) (here : move j = some t) (there : move k = some u)
    (le : j ≤ k) : t ≤ u := by
  rcases le.lt_or_eq with lt | rfl
  · exact (steps.lt_of_lt here there lt).le
  · exact (Option.some.inj (here.symm.trans there)).le

theorem le_of_not_lt (steps : Steps start move) (here : move j = some t) (there : move k = some u)
    (le : t ≤ u) : j ≤ k := by
  by_contra gt
  exact (steps.lt_of_lt there here (not_le.1 gt)).not_ge le

/-- Steps of several at once. -/
theorem scale (steps : Steps start move) (pos : 0 < c) : Steps start fun n => move (n * c) where
  none_moved := (congrArg move (Int.zero_mul c)).trans steps.none_moved
  lt_of_lt here there lt := steps.lt_of_lt here there (Int.mul_lt_mul_of_pos_right lt pos)
  between here there le le' := steps.between here there
    (Int.mul_le_mul_of_nonneg_right le pos.le) (Int.mul_le_mul_of_nonneg_right le' pos.le)

end Steps

/-- What truncation toward zero leaves of a positive number, and what one more would be. -/
theorem tdiv_bounds (ge : 0 ≤ n) (pos : 0 < c) :
    0 ≤ n.tdiv c ∧ n.tdiv c * c ≤ n ∧ n + 1 ≤ (n.tdiv c + 1) * c := by
  rw [Int.tdiv_eq_ediv_of_nonneg ge]
  exact ⟨Int.ediv_nonneg ge pos.le, Int.ediv_mul_le n pos.ne', Int.lt_ediv_add_one_mul_self n pos⟩

namespace Counted

/-- A count of larger steps is the count of the steps, truncated. -/
theorem scale (steps : Steps start move) (h : Counted move start stop n) (pos : 0 < c) :
    Counted (fun n => move (n * c)) start stop (n.tdiv c) where
  forward le := by
    obtain ⟨ge, ⟨t, here, reached⟩, passed⟩ := h.forward le
    obtain ⟨start_ge, low, high⟩ := tdiv_bounds ge pos
    obtain ⟨u, moved⟩ := steps.between steps.none_moved here (Int.mul_nonneg start_ge pos.le) low
    refine ⟨start_ge, ⟨u, moved, (steps.le_of_le moved here low).trans reached⟩, ?_⟩
    intro v more
    obtain ⟨w, next⟩ := steps.between here more (Int.le_add_of_nonneg_right Int.one_nonneg) high
    exact (passed w next).trans_le (steps.le_of_le next more high)
  backward le := by
    obtain ⟨ge, ⟨t, here, reached⟩, passed⟩ := h.backward le
    obtain ⟨start_ge, low, high⟩ := tdiv_bounds (Int.neg_nonneg.2 ge) pos
    rw [Int.neg_tdiv] at start_ge low high
    rw [Int.neg_mul] at low
    have high' : (n.tdiv c - 1) * c ≤ n - 1 := by
      have opposite : (-n.tdiv c + 1) * c = -((n.tdiv c - 1) * c) := by ring
      omega
    have below : n.tdiv c * c ≤ 0 :=
      Int.mul_nonpos_of_nonpos_of_nonneg (Int.neg_nonneg.1 start_ge) pos.le
    obtain ⟨u, moved⟩ := steps.between here steps.none_moved (by omega) below
    refine ⟨Int.neg_nonneg.1 start_ge,
      ⟨u, moved, reached.trans (steps.le_of_le here moved (by omega))⟩, ?_⟩
    intro v more
    obtain ⟨w, next⟩ := steps.between more here high' (by omega)
    exact (steps.le_of_le more next high').trans_lt (passed w next)

theorem reached (h : Counted move start stop n) : ∃ t, move n = some t := by
  rcases le_total start stop with le | le
  · obtain ⟨-, ⟨t, here, -⟩, -⟩ := h.forward le
    exact ⟨t, here⟩
  · obtain ⟨-, ⟨t, here, -⟩, -⟩ := h.backward le
    exact ⟨t, here⟩

/-- A date that steps lead to is counted by their number. -/
theorem unique (steps : Steps start move) (h : Counted move start stop n)
    (there : move k = some stop) : n = k := by
  rcases le_total start stop with le | le
  · obtain ⟨ge, ⟨t, here, reached⟩, passed⟩ := h.forward le
    have low := steps.le_of_not_lt here there reached
    by_contra different
    obtain ⟨u, next⟩ := steps.between here there (Int.le_add_of_nonneg_right Int.one_nonneg)
      (by omega)
    exact (steps.le_of_le next there (by omega)).not_gt (passed u next)
  · obtain ⟨ge, ⟨t, here, reached⟩, passed⟩ := h.backward le
    have high := steps.le_of_not_lt there here reached
    by_contra different
    obtain ⟨u, next⟩ := steps.between there here (j := n - 1) (by omega) (by omega)
    exact (steps.le_of_le there next (by omega)).not_gt (passed u next)

end Counted

namespace Stamp

/-- Nanoseconds on the wall clock, which a leap second runs ahead of. -/
def moment (s : Stamp) : Int := s.clockSeconds * billion + s.nano

def ofMoment? (n : Int) : Option Stamp := ofClock? (n / billion) (n % billion).toNat

variable {s a b : Stamp}

theorem lt_iff_moment (ha : a.isLeapSecond = false) (hb : b.isLeapSecond = false) :
    a < b ↔ a.moment < b.moment := by
  have := nano_lt_of_usual ha
  have := nano_lt_of_usual hb
  rw [lt_iff]
  unfold position moment billion
  omega

theorem le_iff_moment (ha : a.isLeapSecond = false) (hb : b.isLeapSecond = false) :
    a ≤ b ↔ a.moment ≤ b.moment := by
  rw [← not_lt, ← not_lt, lt_iff_moment hb ha]

theorem ofMoment?_eq_some_iff : ofMoment? n = some t ↔ t.isLeapSecond = false ∧ t.moment = n := by
  constructor
  · intro found
    obtain ⟨within, made⟩ := Option.dite_none_right_eq_some.1 found
    obtain rfl := Option.some.inj made
    constructor
    · refine decide_eq_false (Nat.not_le.2 ?_)
      change (n % billion).toNat < 1000000000
      unfold billion
      omega
    · simp only [moment, clockSeconds, billion]
      omega
  · rintro ⟨usual, rfl⟩
    have small := nano_lt_of_usual usual
    have quotient : t.moment / billion = t.clockSeconds := by
      unfold moment billion
      omega
    have rest : (t.moment % billion).toNat = t.nano := by
      unfold moment billion
      omega
    rw [ofMoment?, quotient, rest, ofClock?_clockSeconds]
    exact t.make?_self

theorem nanosSince_eq (ha : a.isLeapSecond = false) (hb : b.isLeapSecond = false) :
    a.nanosSince b = a.moment - b.moment := by
  simp only [nanosSince, ha, hb, Bool.false_eq_true, and_false, if_false]
  unfold moment
  ring

theorem addMillis?_eq_ofMoment? (usual : s.isLeapSecond = false) (millis : Int) :
    s.addMillis? millis = ofMoment? (s.moment + millis * 1000000) := by
  have split := Int.mul_tdiv_add_tmod millis 1000
  have sum : s.moment + millis * 1000000 =
      (s.nano + millis.tmod 1000 * 1000000) + (s.clockSeconds + millis.tdiv 1000) * billion := by
    unfold moment billion
    omega
  rw [addMillis?, usual, if_neg Bool.false_ne_true, carry?, ofMoment?, sum,
    Int.add_mul_ediv_right _ _ (by decide), Int.add_mul_emod_self_right]
  congr 1
  omega

theorem moment_steps (usual : start.isLeapSecond = false) :
    Steps start fun n => ofMoment? (start.moment + n) where
  none_moved := ofMoment?_eq_some_iff.2 ⟨usual, (Int.add_zero _).symm⟩
  lt_of_lt here there lt := by
    obtain ⟨ht, moved⟩ := ofMoment?_eq_some_iff.1 here
    obtain ⟨hu, moved'⟩ := ofMoment?_eq_some_iff.1 there
    rw [lt_iff_moment ht hu]
    omega
  between {i j k t u} here there le le' := by
    obtain ⟨ht, moved⟩ := ofMoment?_eq_some_iff.1 here
    obtain ⟨hu, moved'⟩ := ofMoment?_eq_some_iff.1 there
    have first := t.firstDay_le
    have last := u.le_lastDay
    have second := u.second_lt
    have small := nano_lt_of_usual hu
    obtain ⟨v, found, -⟩ := ofClock?_eq_some ((start.moment + j) / billion)
      ((start.moment + j) % billion).toNat
      (by unfold moment clockSeconds billion at *; omega)
      (by unfold moment clockSeconds billion at *; omega) (by unfold billion; omega)
    exact ⟨v, found⟩

/-- The distance in nanoseconds is a count of them. -/
theorem moment_counted (hs : start.isLeapSecond = false) (ht : stop.isLeapSecond = false) :
    Counted (fun n => ofMoment? (start.moment + n)) start stop (stop.nanosSince start) := by
  have apart := nanosSince_eq ht hs
  have reached : ofMoment? (start.moment + stop.nanosSince start) = some stop :=
    ofMoment?_eq_some_iff.2 ⟨ht, by omega⟩
  refine ⟨fun le => ⟨?_, ⟨stop, reached, le_rfl⟩, fun t more => ?_⟩,
    fun le => ⟨?_, ⟨stop, reached, le_rfl⟩, fun t more => ?_⟩⟩
  · rw [le_iff_moment hs ht] at le
    omega
  · obtain ⟨usual, moved⟩ := ofMoment?_eq_some_iff.1 more
    rw [lt_iff_moment ht usual]
    omega
  · rw [le_iff_moment ht hs] at le
    omega
  · obtain ⟨usual, moved⟩ := ofMoment?_eq_some_iff.1 more
    rw [lt_iff_moment usual ht]
    omega

/-- The same day in a month counted through the years, or its last day. -/
def dayIn (month day : Int) : Int :=
  monthStart month + (min day (monthLength (month / 12) (month % 12 + 1)) - 1)

theorem dayIn_bounds (month : Int) {day : Int} (pos : 1 ≤ day) :
    monthStart month ≤ dayIn month day ∧ dayIn month day < monthStart (month + 1) := by
  have length := monthLength_pos (month / 12) (month % 12 + 1)
  rw [monthStart_succ]
  unfold dayIn
  omega

theorem addMonths?_eq (s : Stamp) (months : Int) :
    s.addMonths? months = make? (dayIn (monthOf s.day + months) s.date.day) s.second s.nano := by
  rw [addMonths?, dayIn, monthStart, ← dayNumber_day]
  rfl

theorem addMonths?_eq_some_iff : s.addMonths? k = some t ↔
    t.day = dayIn (monthOf s.day + k) s.date.day ∧ t.second = s.second ∧ t.nano = s.nano := by
  rw [addMonths?_eq]
  constructor
  · intro found
    obtain ⟨within, made⟩ := Option.dite_none_right_eq_some.1 found
    obtain rfl := Option.some.inj made
    exact ⟨rfl, rfl, rfl⟩
  · rintro ⟨day, second, nano⟩
    rw [← day, ← second, ← nano, make?_self]

theorem monthOf_moved (found : s.addMonths? k = some t) : monthOf t.day = monthOf s.day + k := by
  have first := (civil_valid s.day).day_ge
  have bounds := dayIn_bounds (monthOf s.day + k) first
  rw [(addMonths?_eq_some_iff.1 found).1]
  exact monthOf_eq bounds.1 bounds.2

theorem monthOf_div_mod (day : Int) :
    monthOf day / 12 = (civil day).year ∧ monthOf day % 12 + 1 = (civil day).month := by
  have ⟨ge, le, _, _⟩ := civil_valid day
  unfold monthOf
  omega

theorem dayIn_monthOf (s : Stamp) : dayIn (monthOf s.day) s.date.day = s.day := by
  have day := dayNumber_civil s.day
  obtain ⟨year, month⟩ := monthOf_div_mod s.day
  rw [dayIn, monthStart, year, month, min_eq_left (a := s.date.day) (civil_valid s.day).day_le,
    ← dayNumber_day]
  exact day

/-- A date in an earlier month is earlier. -/
theorem lt_of_monthOf_lt (lt : monthOf a.day < monthOf b.day) : a < b := by
  have later := (monthStart_le_iff (monthOf b.day) a.day).not.2 (not_le.2 lt)
  have begun := (monthStart_monthOf b.day).1
  have := a.second_lt
  have := a.nano_lt
  rw [lt_iff]
  unfold position clockSeconds
  omega

/-- The supported years are whole years. -/
theorem monthOf_bounds (s : Stamp) :
    -262143 * 12 ≤ monthOf s.day ∧ monthOf s.day < 262143 * 12 := by
  have first : firstDay = monthStart (-262143 * 12) := by decide
  have behind : lastDay + 1 = monthStart (262143 * 12) := by decide
  have begun := s.firstDay_le
  have ends := (Int.lt_add_one_iff.2 s.le_lastDay).not_ge
  rw [first, monthStart_le_iff] at begun
  rw [behind, monthStart_le_iff] at ends
  exact ⟨begun, not_le.1 ends⟩

/-- A month between those of two dates lies within the supported years. -/
theorem exists_addMonths? (ge : monthOf a.day ≤ monthOf s.day + k)
    (le : monthOf s.day + k ≤ monthOf b.day) : ∃ t, s.addMonths? k = some t := by
  have first : firstDay = monthStart (-262143 * 12) := by decide
  have behind : lastDay + 1 = monthStart (262143 * 12) := by decide
  have low := strictMono_monthStart.monotone (a.monthOf_bounds.1.trans ge)
  have high := strictMono_monthStart.monotone (Int.add_one_le_of_lt (le.trans_lt b.monthOf_bounds.2))
  obtain ⟨after, before⟩ := dayIn_bounds (monthOf s.day + k) (civil_valid s.day).day_ge
  rw [addMonths?_eq]
  exact ⟨_, dif_pos ⟨first ▸ low.trans after, Int.lt_add_one_iff.1 (behind ▸ before.trans_le high),
    s.second_lt, s.nano_lt, s.leap⟩⟩

theorem month_steps (start : Stamp) : Steps start start.addMonths? where
  none_moved := addMonths?_eq_some_iff.2
    ⟨by rw [Int.add_zero, dayIn_monthOf], rfl, rfl⟩
  lt_of_lt here there lt := by
    apply lt_of_monthOf_lt
    rw [monthOf_moved here, monthOf_moved there]
    omega
  between here there le le' := by
    apply exists_addMonths?
    · rw [monthOf_moved here]
      exact Int.add_le_add_left le _
    · rw [monthOf_moved there]
      exact Int.add_le_add_left le' _

/-- The start moved into the month of the stop decides about the last month. -/
theorem wholeMonths_cases (start stop : Stamp) :
    ∃ anchor, start.addMonths? (monthOf stop.day - monthOf start.day) = some anchor ∧
      (start < stop ∧ stop < anchor ∧
          wholeMonths stop start = monthOf stop.day - monthOf start.day - 1 ∨
        stop < start ∧ anchor < stop ∧
          wholeMonths stop start = monthOf stop.day - monthOf start.day + 1 ∨
        (start ≤ stop → anchor ≤ stop) ∧ (stop ≤ start → stop ≤ anchor) ∧
          wholeMonths stop start = monthOf stop.day - monthOf start.day) := by
  have within : monthOf start.day + (monthOf stop.day - monthOf start.day) = monthOf stop.day := by
    omega
  obtain ⟨anchor, moved⟩ := exists_addMonths? (s := start) within.ge within.le
  have stays (same : start = stop) : anchor = stop := by
    have still := (month_steps start).none_moved
    rw [← same, Int.sub_self, still] at moved
    exact (Option.some.inj moved).symm.trans same
  have apart : (stop.date.year - start.date.year) * 12 + (stop.date.month - start.date.month) =
      monthOf stop.day - monthOf start.day := by
    unfold monthOf date
    omega
  refine ⟨anchor, moved, ?_⟩
  unfold wholeMonths
  rw [apart]
  dsimp only
  rw [moved]
  dsimp only
  split
  · next passed => exact .inl ⟨passed.1, passed.2, rfl⟩
  · next reached =>
    split
    · next passed => exact .inr (.inl ⟨passed.1, passed.2, rfl⟩)
    · next reached' =>
      refine .inr (.inr ⟨fun le => ?_, fun le => ?_, rfl⟩)
      · rcases le.lt_or_eq with lt | same
        · exact not_lt.1 fun gt => reached ⟨lt, gt⟩
        · exact (stays same).le
      · rcases le.lt_or_eq with lt | same
        · exact not_lt.1 fun gt => reached' ⟨lt, gt⟩
        · exact (stays same.symm).ge

theorem month_counted (start stop : Stamp) :
    Counted start.addMonths? start stop (wholeMonths stop start) := by
  obtain ⟨anchor, moved, months⟩ := wholeMonths_cases start stop
  generalize apart : monthOf stop.day - monthOf start.day = n at *
  -- a month short of the stop, and a month behind it
  have before {k : Int} {t : Stamp} (there : start.addMonths? k = some t) (lt : k < n) :
      t < stop := lt_of_monthOf_lt (by rw [monthOf_moved there]; omega)
  have behind {k : Int} {t : Stamp} (there : start.addMonths? k = some t) (gt : n < k) :
      stop < t := lt_of_monthOf_lt (by rw [monthOf_moved there]; omega)
  have anchored {t : Stamp} (there : start.addMonths? n = some t) : anchor = t :=
    Option.some.inj (moved.symm.trans there)
  constructor
  · intro le
    have ge : 0 ≤ n := by
      by_contra lt
      exact (lt_of_monthOf_lt (by omega)).not_ge le
    obtain ⟨-, passed, count⟩ | ⟨lt, -⟩ | ⟨reached, -, count⟩ := months
    · have pos : n ≠ 0 := by
        rintro rfl
        exact passed.not_ge (anchored (month_steps start).none_moved ▸ le)
      obtain ⟨t, there⟩ := exists_addMonths? (s := start) (k := n - 1) (a := start) (b := stop)
        (by omega) (by omega)
      rw [count]
      refine ⟨by omega, ⟨t, there, (before there (by omega)).le⟩, fun u more => ?_⟩
      rw [Int.sub_add_cancel] at more
      exact anchored more ▸ passed
    · exact absurd le lt.not_ge
    · rw [count]
      exact ⟨ge, ⟨anchor, moved, reached le⟩, fun u more => behind more (by omega)⟩
  · intro le
    have ge : n ≤ 0 := by
      by_contra lt
      exact (lt_of_monthOf_lt (by omega)).not_ge le
    obtain ⟨lt, -⟩ | ⟨-, passed, count⟩ | ⟨-, reached, count⟩ := months
    · exact absurd le lt.not_ge
    · have pos : n ≠ 0 := by
        rintro rfl
        exact passed.not_ge (anchored (month_steps start).none_moved ▸ le)
      obtain ⟨t, there⟩ := exists_addMonths? (s := start) (k := n + 1) (a := stop) (b := start)
        (by omega) (by omega)
      rw [count]
      refine ⟨by omega, ⟨t, there, (behind there (by omega)).le⟩, fun u more => ?_⟩
      rw [Int.add_sub_cancel] at more
      exact anchored more ▸ passed
    · rw [count]
      exact ⟨ge, ⟨anchor, moved, reached le⟩, fun u more => before more (by omega)⟩

theorem millis_steps (usual : start.isLeapSecond = false) : Steps start start.addMillis? := by
  have scaled := (moment_steps usual).scale (c := 1000000) (by decide)
  simp only [← addMillis?_eq_ofMoment? usual] at scaled
  exact scaled

theorem millis_counted (hs : start.isLeapSecond = false) (ht : stop.isLeapSecond = false) :
    Counted start.addMillis? start stop (stop.millisSince start) := by
  have scaled := (moment_counted hs ht).scale (moment_steps hs) (c := 1000000) (by decide)
  simp only [← addMillis?_eq_ofMoment? hs] at scaled
  exact scaled

variable {unit : Unit}

/-- The length of a unit is a small number of milliseconds, or a small number of months. -/
theorem unit_cases (unit : Unit) :
    (∃ c : Nat, 0 < c ∧ c < 2 ^ 53 ∧ unit.millis? = some (c : Int) ∧ unit.months? = none) ∨
      ∃ c : Int, 0 < c ∧ unit.millis? = none ∧ unit.months? = some c := by
  cases unit with
  | week => exact .inl ⟨604800000, by decide, by decide, rfl, rfl⟩
  | day => exact .inl ⟨86400000, by decide, by decide, rfl, rfl⟩
  | hour => exact .inl ⟨3600000, by decide, by decide, rfl, rfl⟩
  | minute => exact .inl ⟨60000, by decide, by decide, rfl, rfl⟩
  | second => exact .inl ⟨1000, by decide, by decide, rfl, rfl⟩
  | millisecond => exact .inl ⟨1, by decide, by decide, rfl, rfl⟩
  | year => exact .inr ⟨12, by decide, rfl, rfl⟩
  | quarter => exact .inr ⟨3, by decide, rfl, rfl⟩
  | month => exact .inr ⟨1, by decide, rfl, rfl⟩

/-- No date lies further from another than the supported years are long. -/
theorem natAbs_lt_of_addMonths? (pos : 0 < c) (found : s.addMonths? (k * c) = some t) :
    k.natAbs < 10000000 := by
  have here := s.monthOf_bounds
  have there := t.monthOf_bounds
  have moved := monthOf_moved found
  have larger : k.natAbs ≤ (k * c).natAbs := by
    rw [Int.natAbs_mul]
    exact Nat.le_mul_of_pos_right _ (Int.natAbs_pos.2 pos.ne')
  omega

/-- A double that stands for a number of months, however large, moves a date as the number does. -/
theorem add?_months (monthly : unit.months? = some c) (pos : 0 < c) (s : Stamp) (k : Int) :
    s.add? (Float.ofInt k) unit = s.addMonths? (k * c) := by
  have stands := Number.stands_ofInt k
  have read : s.add? (Float.ofInt k) unit =
      (Number.integer? .towardZero (Float.ofInt k)).bind fun n => s.addMonths? (n * c) := by
    simp only [add?, monthly]
  rw [read]
  by_cases small : k.natAbs < 2 ^ 53
  · rw [stands.integer small, Option.bind_some]
  · have nowhere : s.addMonths? (k * c) = none :=
      Option.eq_none_iff_forall_ne_some.2 fun t found => by
        have := natAbs_lt_of_addMonths? pos found
        omega
    rw [nowhere, Option.bind_eq_none_iff]
    intro i found
    refine Option.eq_none_iff_forall_ne_some.2 fun t there => ?_
    have near := natAbs_lt_of_addMonths? pos there
    have above := stands.above
    have below := stands.below
    rcases lt_or_ge k 0 with negative | positive
    · have := below (by omega) _ i found
      omega
    · have := above (by omega) _ i found
      omega

variable {size : Nat}

theorem add?_millis (fixed : unit.millis? = some (size : Int)) (unmonthly : unit.months? = none)
    (pos : 0 < size) (lt : size < 2 ^ 53) (small : (k * size).natAbs < 2 ^ 53) (s : Stamp) :
    s.add? (Float.ofInt k) unit = s.addMillis? (k * size) := by
  have smaller : k.natAbs ≤ (k * size).natAbs := by
    rw [Int.natAbs_mul]
    exact Nat.le_mul_of_pos_right _ pos
  simp only [add?, unmonthly, fixed]
  rw [if_pos ((Number.stands_ofInt k).finite (smaller.trans_lt small)),
    (Number.stands_mul k pos lt).integer small, Option.bind_some]

/-- An amount that may be rounded moves a date by `2 ^ 53` milliseconds at least. -/
theorem far_of_add? (fixed : unit.millis? = some (size : Int)) (unmonthly : unit.months? = none)
    (pos : 0 < size) (lt : size < 2 ^ 53) (usual : s.isLeapSecond = false)
    (found : s.add? (Float.ofInt k) unit = some t) :
    t.isLeapSecond = false ∧
      (2 ^ 53 ≤ k * size → s.moment + 2 ^ 53 * 1000000 ≤ t.moment) ∧
      (k * size ≤ -2 ^ 53 → t.moment ≤ s.moment - 2 ^ 53 * 1000000) := by
  have stands := Number.stands_mul k pos lt
  simp only [add?, unmonthly, fixed] at found
  obtain ⟨-, found⟩ := Option.ite_none_right_eq_some.1 found
  obtain ⟨i, amount, moved⟩ := Option.bind_eq_some_iff.1 found
  rw [addMillis?_eq_ofMoment? usual] at moved
  obtain ⟨usual', distance⟩ := ofMoment?_eq_some_iff.1 moved
  refine ⟨usual', fun ge => ?_, fun le => ?_⟩
  · have := stands.above ge _ i amount
    omega
  · have := stands.below le _ i amount
    omega

/-- Truncation makes no number larger. -/
theorem natAbs_tdiv_mul_le (n c : Int) : (n.tdiv c * c).natAbs ≤ n.natAbs := by
  rw [Int.natAbs_mul, Int.natAbs_tdiv]
  exact Nat.div_mul_le_self _ _

section fixed

variable (fixed : unit.millis? = some (size : Int)) (unmonthly : unit.months? = none)
  (pos : 0 < size) (lt : size < 2 ^ 53) (hs : start.isLeapSecond = false)

include fixed pos hs in
theorem millis_difference (ht : stop.isLeapSecond = false) :
    Counted (fun n => start.addMillis? (n * size)) start stop (stop.difference start unit) := by
  simp only [difference, fixed]
  exact (millis_counted hs ht).scale (millis_steps hs) (Int.natCast_pos.2 pos)

include fixed in
theorem natAbs_millis (near : (stop.nanosSince start).natAbs < 2 ^ 53 * 1000000) :
    (stop.difference start unit * size).natAbs < 2 ^ 53 := by
  simp only [difference, fixed]
  refine (natAbs_tdiv_mul_le _ _).trans_lt ?_
  rw [millisSince, Int.natAbs_tdiv]
  exact Nat.div_lt_of_lt_mul (Nat.mul_comm _ _ ▸ near)

include fixed unmonthly pos lt hs in
/-- Below `2 ^ 53` milliseconds no amount is rounded, and one unit more passes the stop even if its
amount is. -/
theorem fixed_counted (ht : stop.isLeapSecond = false)
    (near : (stop.nanosSince start).natAbs < 2 ^ 53 * 1000000) :
    Counted (fun n => start.add? (Float.ofInt n) unit) start stop
      (stop.difference start unit) := by
  have counted := millis_difference fixed pos hs ht
  have apart := nanosSince_eq ht hs
  have small := natAbs_millis fixed near
  generalize stop.difference start unit = n at *
  have same := add?_millis fixed unmonthly pos lt small start
  constructor
  · intro le
    obtain ⟨ge, reached, passed⟩ := counted.forward le
    refine ⟨ge, same ▸ reached, fun t more => ?_⟩
    by_cases unrounded : ((n + 1) * size).natAbs < 2 ^ 53
    · exact passed t ((add?_millis fixed unmonthly pos lt unrounded start).symm.trans more)
    · obtain ⟨usual, far, -⟩ := far_of_add? fixed unmonthly pos lt hs more
      have positive : 0 ≤ (n + 1) * size := Int.mul_nonneg (by omega) (Int.natCast_nonneg _)
      have := far (by omega)
      rw [lt_iff_moment ht usual]
      omega
  · intro le
    obtain ⟨ge, reached, passed⟩ := counted.backward le
    refine ⟨ge, same ▸ reached, fun t more => ?_⟩
    by_cases unrounded : ((n - 1) * size).natAbs < 2 ^ 53
    · exact passed t ((add?_millis fixed unmonthly pos lt unrounded start).symm.trans more)
    · obtain ⟨usual, -, far⟩ := far_of_add? fixed unmonthly pos lt hs more
      have negative : (n - 1) * size ≤ 0 :=
        Int.mul_nonpos_of_nonpos_of_nonneg (by omega) (Int.natCast_nonneg _)
      have := far (by omega)
      rw [lt_iff_moment usual ht]
      omega

include fixed unmonthly pos lt hs in
theorem fixed_difference (near : (stop.nanosSince start).natAbs < 2 ^ 53 * 1000000)
    (there : start.add? (Float.ofInt k) unit = some stop) : stop.difference start unit = k := by
  by_cases small : (k * size).natAbs < 2 ^ 53
  · rw [add?_millis fixed unmonthly pos lt small] at there
    have ht := (ofMoment?_eq_some_iff.1 (addMillis?_eq_ofMoment? hs _ ▸ there)).1
    exact (millis_difference fixed pos hs ht).unique
      ((millis_steps hs).scale (Int.natCast_pos.2 pos)) there
  · obtain ⟨ht, above, below⟩ := far_of_add? fixed unmonthly pos lt hs there
    have apart := nanosSince_eq ht hs
    omega

end fixed

section monthly

variable (unfixed : unit.millis? = none) (monthly : unit.months? = some c) (pos : 0 < c)

include monthly pos in
theorem monthly_steps (start : Stamp) : Steps start fun n => start.add? (Float.ofInt n) unit := by
  simp only [add?_months monthly pos]
  exact (month_steps start).scale pos

include unfixed monthly pos in
theorem monthly_counted (start stop : Stamp) :
    Counted (fun n => start.add? (Float.ofInt n) unit) start stop
      (stop.difference start unit) := by
  simp only [add?_months monthly pos, difference, unfixed, monthly]
  exact (month_counted start stop).scale (month_steps start) pos

end monthly

/-- The difference of two dates counts whole units in a number that is a double exactly: the start
moved by it exists and does not pass the stop, and moved by one unit more it passes the stop, if it
exists. A date that a number of units leads to differs from the start by that number. -/
theorem difference_counted (unit : Unit) :
    (∀ start stop : Stamp, start.isLeapSecond = false → stop.isLeapSecond = false →
      (stop.nanosSince start).natAbs < 2 ^ 53 * 1000000 →
      (stop.difference start unit).natAbs < 2 ^ 53 ∧
      Counted (fun n => start.add? (Float.ofInt n) unit) start stop
        (stop.difference start unit)) ∧
    ∀ (start stop : Stamp) (k : Int), start.isLeapSecond = false →
      (stop.nanosSince start).natAbs < 2 ^ 53 * 1000000 →
      start.add? (Float.ofInt k) unit = some stop → stop.difference start unit = k := by
  obtain ⟨size, pos, lt, fixed, unmonthly⟩ | ⟨c, pos, unfixed, monthly⟩ := unit_cases unit
  · refine ⟨fun start stop hs ht near => ⟨?_, fixed_counted fixed unmonthly pos lt hs ht near⟩,
      fun start stop k hs near there => fixed_difference fixed unmonthly pos lt hs near there⟩
    have small := natAbs_millis fixed near
    rw [Int.natAbs_mul] at small
    exact (Nat.le_mul_of_pos_right _ pos).trans_lt small
  · have counted := monthly_counted unfixed monthly pos
    refine ⟨fun start stop _ _ _ => ⟨?_, counted start stop⟩,
      fun start stop k _ _ there => (counted start stop).unique (monthly_steps monthly pos start)
        there⟩
    obtain ⟨t, there⟩ := (counted start stop).reached
    rw [add?_months monthly pos] at there
    exact (natAbs_lt_of_addMonths? pos there).trans (by decide)

/-- The last day of a January, at noon. -/
def januaryNoon : Stamp := (ofParts? 2023 1 31 12 0 0 0).get (by decide)

/-- A second before noon on the leap day of the next year. -/
def leapNoon : Stamp := (ofParts? 2024 2 29 11 59 59 0).get (by decide)

/-- What a month makes of that noon in January. -/
def februaryNoon : Stamp := (ofParts? 2023 2 28 12 0 0 0).get (by decide)

theorem difference_counted_february :
    januaryNoon.isLeapSecond = false ∧ leapNoon.isLeapSecond = false ∧
      (leapNoon.nanosSince januaryNoon).natAbs < 2 ^ 53 * 1000000 ∧
      leapNoon.difference januaryNoon .month = 12 ∧
      (∃ t, januaryNoon.add? (Float.ofInt 12) .month = some t ∧ t ≤ leapNoon) ∧
      januaryNoon.add? (Float.ofInt 1) .month = some februaryNoon ∧
      februaryNoon.difference januaryNoon .month = 1 := by
  have hs : januaryNoon.isLeapSecond = false := by decide
  have ht : leapNoon.isLeapSecond = false := by decide
  have near : (leapNoon.nanosSince januaryNoon).natAbs < 2 ^ 53 * 1000000 := by decide
  have count : leapNoon.difference januaryNoon .month = 12 := by decide
  have le : januaryNoon ≤ leapNoon := by decide
  have counted := ((difference_counted .month).1 januaryNoon leapNoon hs ht near).2
  rw [count] at counted
  have moved : januaryNoon.add? (Float.ofInt 1) .month = some februaryNoon := by decide
  have differs := (difference_counted .month).2 januaryNoon februaryNoon 1 hs (by decide) moved
  exact ⟨hs, ht, near, count, (counted.forward le).2.1, moved, differs⟩

end Stamp

end TemplateFormula.Calendar
