import TemplateFormula.Calendar.Period
import TemplateFormula.Proofs.Calendar.Months
import TemplateFormula.Proofs.Number.Order

/-!
# Periods as a division of time

The seconds of the wall clock are divided into periods, which are numbered: a period has begun by a
second if and only if its number is no greater than that of the second. Every unit above the
millisecond is such a division, the start of a period is the first second of it, and its end lies a
millisecond before the next period.
-/

namespace TemplateFormula.Calendar

/-- Numbers with a last digit compare by what stands before it first. -/
theorem compare_digits {k x y : Int} (a b : Int) (hx : 0 ≤ x ∧ x < k) (hy : 0 ≤ y ∧ y < k) :
    compare (a * k + x) (b * k + y) = (compare a b).then (compare x y) := by
  have apart {c d u v : Int} (lt : c < d) (hu : u < k) (hv : 0 ≤ v) : c * k + u < d * k + v := by
    have := Int.mul_le_mul_of_nonneg_right (Int.add_one_le_of_lt lt) (hx.1.trans hx.2.le)
    rw [Int.add_mul, Int.one_mul] at this
    omega
  rcases lt_trichotomy a b with lt | rfl | gt
  · rw [compare_lt_iff_lt.2 lt, compare_lt_iff_lt.2 (apart lt hx.2 hy.1)]
    rfl
  · rw [compare_eq_iff_eq.2 rfl]
    rcases lt_trichotomy x y with lt | rfl | gt
    · rw [compare_lt_iff_lt.2 lt, compare_lt_iff_lt.2 (by omega)]
      rfl
    · rw [compare_eq_iff_eq.2 rfl, compare_eq_iff_eq.2 rfl]
      rfl
    · rw [compare_gt_iff_gt.2 gt, compare_gt_iff_gt.2 (by omega)]
      rfl
  · rw [compare_gt_iff_gt.2 gt, compare_gt_iff_gt.2 (apart gt hy.2 hx.1)]
    rfl

namespace Stamp

variable (s : Stamp) {a b : Stamp}

/-- A place on the line of all dates. A leap second makes room for two thousand million
nanoseconds. -/
def position : Int := s.clockSeconds * 2000000000 + s.nano

theorem order_eq (a b : Stamp) : a.order b = compare a.position b.position := by
  have := a.second_lt
  have := b.second_lt
  have := a.nano_lt
  have := b.nano_lt
  unfold position clockSeconds
  rw [compare_digits _ _ (by omega) (by omega), compare_digits _ _ (by omega) (by omega),
    Number.compare_cast, Number.compare_cast, Ordering.then_assoc]
  rfl

theorem lt_iff : a < b ↔ a.position < b.position := by
  change a.order b = .lt ↔ _
  rw [order_eq, compare_lt_iff_lt]

theorem le_iff : a ≤ b ↔ a.position ≤ b.position := by
  change a.order b ≠ .gt ↔ _
  rw [order_eq, compare_le_iff_le]

theorem eq_of_clock (clock : a.clockSeconds = b.clockSeconds) (nano : a.nano = b.nano) : a = b := by
  obtain ⟨day, second, _, _, _, lt, _, _⟩ := a
  obtain ⟨day', second', _, _, _, lt', _, _⟩ := b
  simp only [clockSeconds] at clock
  obtain rfl : day = day' := by omega
  obtain rfl : second = second' := by omega
  obtain rfl := nano
  rfl

theorem position_inj : a.position = b.position ↔ a = b := by
  refine ⟨fun same => ?_, congrArg _⟩
  have := a.nano_lt
  have := b.nano_lt
  unfold position at same
  exact eq_of_clock (by omega) (by omega)

instance : LinearOrder Stamp where
  le_refl _ := le_iff.2 le_rfl
  le_trans _ _ _ ab bc := le_iff.2 ((le_iff.1 ab).trans (le_iff.1 bc))
  le_antisymm _ _ ab ba := position_inj.1 ((le_iff.1 ab).antisymm (le_iff.1 ba))
  le_total a b := (le_total a.position b.position).imp le_iff.2 le_iff.2
  lt_iff_le_not_ge a b := by
    rw [lt_iff, le_iff, le_iff]
    exact lt_iff_le_not_ge
  toDecidableLE := inferInstance
  toDecidableLT := inferInstance
  toDecidableEq := inferInstance

end Stamp

/-- Periods of the wall clock, numbered in their order. -/
structure Division where
  /-- The first second of a period. -/
  begins : Int → Int
  /-- The period in which a second lies. -/
  number : Int → Int
  begins_le_iff : ∀ k t, begins k ≤ t ↔ k ≤ number t

namespace Division

variable (d : Division) {t : Int}

theorem begins_number_le (t : Int) : d.begins (d.number t) ≤ t :=
  (d.begins_le_iff _ _).2 le_rfl

theorem lt_begins_succ (t : Int) : t < d.begins (d.number t + 1) := by
  rw [← not_le, d.begins_le_iff]
  omega

theorem number_begins (t : Int) : d.number (d.begins (d.number t)) = d.number t := by
  apply le_antisymm
  · have le := d.begins_number_le (d.begins (d.number t))
    exact (d.begins_le_iff _ _).1 (le.trans (d.begins_number_le t))
  · exact (d.begins_le_iff _ _).1 le_rfl

/-- Periods of so many seconds, of which number zero begins at `offset`. -/
def ofSeconds (size offset : Int) (pos : 0 < size) : Division where
  begins k := k * size + offset
  number t := (t - offset) / size
  begins_le_iff k t := by
    rw [Int.le_ediv_iff_mul_le pos]
    omega

/-- Periods of so many months. -/
def ofMonths (count : Int) (pos : 0 < count) : Division where
  begins k := monthStart (k * count) * 86400
  number t := monthOf (t / 86400) / count
  begins_le_iff k t := by
    rw [Int.le_ediv_iff_mul_le pos, ← monthStart_le_iff, Int.le_ediv_iff_mul_le (by decide)]

theorem months_begins {count : Int} (pos : 0 < count) (k : Int) :
    (ofMonths count pos).begins k = monthStart (k * count) * 86400 := rfl

theorem seconds_begins {size : Int} (pos : 0 < size) (t : Int) :
    (ofSeconds size 0 pos).begins ((ofSeconds size 0 pos).number t) = t / size * size := by
  rw [ofSeconds]
  dsimp only
  rw [Int.sub_zero, Int.add_zero]

end Division

/-- The periods of a unit; a week begins on a Sunday. A millisecond is no period of seconds. -/
def Unit.division? : Unit → Option Division
  | .year => some (.ofMonths 12 (by decide))
  | .quarter => some (.ofMonths 3 (by decide))
  | .month => some (.ofMonths 1 (by decide))
  | .week => some (.ofSeconds 604800 (-345600) (by decide))
  | .day => some (.ofSeconds 86400 0 (by decide))
  | .hour => some (.ofSeconds 3600 0 (by decide))
  | .minute => some (.ofSeconds 60 0 (by decide))
  | .second => some (.ofSeconds 1 0 (by decide))
  | .millisecond => none

theorem Unit.eq_millisecond {unit : Unit} (division : unit.division? = none) :
    unit = .millisecond := by
  cases unit with
  | millisecond => rfl
  | _ => cases division

namespace Stamp

variable (s : Stamp)

theorem clockSeconds_div : s.clockSeconds / 86400 = s.day := by
  have := s.second_lt
  unfold clockSeconds
  omega

theorem nano_lt_of_usual {s : Stamp} (usual : s.isLeapSecond = false) : s.nano < 1000000000 :=
  Nat.not_le.1 (of_decide_eq_false usual)

theorem ofClock?_clockSeconds (s : Stamp) (nano : Nat) :
    ofClock? s.clockSeconds nano = make? s.day s.second nano := by
  have second := s.second_lt
  have within : (s.clockSeconds % 86400).toNat = s.second := by
    unfold clockSeconds
    omega
  rw [ofClock?, clockSeconds_div, within]

/-- The date of a second of the wall clock, if it exists. -/
theorem ofClock?_eq_some (seconds : Int) (nano : Nat) (ge : firstDay * 86400 ≤ seconds)
    (lt : seconds < (lastDay + 1) * 86400) (small : nano < 1000000000) :
    ∃ t : Stamp, ofClock? seconds nano = some t ∧ t.clockSeconds = seconds ∧ t.nano = nano := by
  have within : firstDay ≤ seconds / 86400 ∧ seconds / 86400 ≤ lastDay ∧
      (seconds % 86400).toNat < 86400 ∧ nano < 2000000000 ∧
      (1000000000 ≤ nano → (seconds % 86400).toNat % 60 = 59) := by
    unfold firstDay lastDay at *
    omega
  refine ⟨_, dif_pos within, ?_, rfl⟩
  simp only [clockSeconds]
  omega

theorem ofClock?_eq_none {seconds : Int} (ge : (lastDay + 1) * 86400 ≤ seconds) (nano : Nat) :
    ofClock? seconds nano = none := by
  refine dif_neg fun within => ?_
  have := within.2.1
  unfold lastDay at *
  omega

/-- The period around the date begins within the supported years, as all but a week do. -/
def Begins (s : Stamp) (unit : Unit) : Prop := unit = .week → firstDay ≤ s.day - weekday s.day

variable {s} {unit : Unit} {d : Division}

/-- The week of a day begins on a Sunday. -/
theorem week_begins (s : Stamp) : (s.clockSeconds - -345600) / 604800 * 604800 + -345600 =
    (s.day - weekday s.day) * 86400 := by
  have := s.second_lt
  unfold clockSeconds weekday
  omega

theorem months_number {count : Int} (pos : 0 < count) (s : Stamp) :
    (Division.ofMonths count pos).number s.clockSeconds = monthOf s.day / count :=
  congrArg (monthOf · / count) s.clockSeconds_div

theorem Begins.le (h : s.Begins unit) (division : unit.division? = some d) :
    firstDay * 86400 ≤ d.begins (d.number s.clockSeconds) := by
  have ge := s.firstDay_le
  have clock : firstDay * 86400 ≤ s.clockSeconds := by
    unfold clockSeconds
    omega
  have first : firstDay = monthStart (-262143 * 12) := by decide
  have months (count k : Int) (pos : 0 < count) (multiple : -262143 * 12 = k * count) :
      firstDay * 86400 ≤ (Division.ofMonths count pos).begins
        ((Division.ofMonths count pos).number s.clockSeconds) := by
    rw [first, monthStart_le_iff, multiple, ← Int.le_ediv_iff_mul_le pos] at ge
    rw [first, multiple]
    refine Int.mul_le_mul_of_nonneg_right (strictMono_monthStart.monotone ?_) (by decide)
    rw [months_number]
    exact Int.mul_le_mul_of_nonneg_right ge pos.le
  cases unit with
  | year => exact Option.some.inj division ▸ months 12 (-262143) (by decide) rfl
  | quarter => exact Option.some.inj division ▸ months 3 (-262143 * 4) (by decide) rfl
  | month => exact Option.some.inj division ▸ months 1 (-262143 * 12) (by decide) rfl
  | week =>
    obtain rfl := Option.some.inj division
    have sunday := h rfl
    simp only [Division.ofSeconds, week_begins]
    exact Int.mul_le_mul_of_nonneg_right sunday (by decide)
  | millisecond => cases division
  | _ =>
    obtain rfl := Option.some.inj division
    simp only [Division.ofSeconds]
    unfold firstDay at *
    omega

theorem atMidnight_of_le {day : Int} (ge : firstDay ≤ day) (le : day ≤ s.day) :
    (s.atMidnight day).clockSeconds = day * 86400 ∧ (s.atMidnight day).nano = 0 := by
  have last := s.le_lastDay
  have found : make? day 0 0 = some ⟨day, 0, 0, ge, by omega, by decide, by decide, nofun⟩ :=
    dif_pos ⟨ge, by omega, by decide, by decide, nofun⟩
  rw [atMidnight, found]
  exact ⟨Int.add_zero _, rfl⟩

/-- A size of seconds that divides the day. -/
theorem clearBelow_clock (size : Nat) (divides : 86400 % size = 0) (s : Stamp) :
    (s.clearBelow size).clockSeconds = s.clockSeconds / size * size ∧
      (s.clearBelow size).nano = 0 := by
  have found : make? s.day (s.second - s.second % size) 0 =
      some ⟨s.day, s.second - s.second % size, 0, s.firstDay_le, s.le_lastDay,
        (Nat.sub_le _ _).trans_lt s.second_lt, by decide, nofun⟩ :=
    dif_pos ⟨s.firstDay_le, s.le_lastDay, (Nat.sub_le _ _).trans_lt s.second_lt, by decide, nofun⟩
  rw [clearBelow, found]
  refine ⟨?_, rfl⟩
  obtain ⟨n, whole⟩ := Nat.dvd_of_mod_eq_zero divides
  have pos : (size : Int) ≠ 0 := by
    rintro zero
    obtain rfl : size = 0 := Int.ofNat_eq_zero.1 zero
    simp at whole
  have day : s.day * 86400 = s.day * n * size := by
    have whole' : (86400 : Int) = size * n := congrArg Nat.cast whole
    rw [whole']
    ring
  have below := Nat.div_add_mod s.second size
  have kept : ((s.second - s.second % size : Nat) : Int) = (s.second / size : Nat) * size := by
    rw [← Nat.cast_mul, Nat.mul_comm]
    exact congrArg Nat.cast (by omega)
  simp only [Option.getD_some, clockSeconds]
  rw [kept, day, Int.add_comm, Int.add_comm (s.day * n * size), Int.add_mul_ediv_right _ _ pos,
    Int.add_mul, Int.natCast_ediv]

/-- The start of a period is its first second. -/
theorem Begins.startOf (h : s.Begins unit) (division : unit.division? = some d) :
    (s.startOf unit).clockSeconds = d.begins (d.number s.clockSeconds) ∧
      (s.startOf unit).nano = 0 := by
  have ge := h.le division
  have le := d.begins_number_le s.clockSeconds
  -- a period that begins at a midnight
  have midnight {day : Int} (same : day * 86400 = d.begins (d.number s.clockSeconds)) :
      (s.atMidnight day).clockSeconds = d.begins (d.number s.clockSeconds) ∧
        (s.atMidnight day).nano = 0 := by
    have := s.clockSeconds_div
    exact same ▸ atMidnight_of_le (by omega) (by omega)
  have ⟨month_ge, month_le, _, _⟩ := civil_valid s.day
  have months {count month : Int} (pos : 0 < count) (ge : 1 ≤ month) (le : month ≤ 12)
      (same : monthOf s.day / count * count = s.date.year * 12 + (month - 1)) :
      dayNumber s.date.year month 1 * 86400 =
        (Division.ofMonths count pos).begins
          ((Division.ofMonths count pos).number s.clockSeconds) := by
    rw [months_number, Division.months_begins, same, monthStart_eq ge le]
  cases unit with
  | year =>
    obtain rfl := Option.some.inj division
    refine midnight (months _ (by decide) (by decide) ?_)
    unfold monthOf date
    omega
  | quarter =>
    obtain rfl := Option.some.inj division
    refine midnight (months _ ?_ ?_ ?_)
    · unfold date
      omega
    · unfold date
      omega
    · unfold monthOf date
      omega
  | month =>
    obtain rfl := Option.some.inj division
    refine midnight (months _ month_ge month_le ?_)
    unfold monthOf date
    omega
  | week =>
    obtain rfl := Option.some.inj division
    exact midnight s.week_begins.symm
  | day =>
    obtain rfl := Option.some.inj division
    rw [Division.seconds_begins, clockSeconds_div]
    exact ⟨Int.add_zero _, rfl⟩
  | hour =>
    obtain rfl := Option.some.inj division
    rw [Division.seconds_begins]
    exact clearBelow_clock 3600 (by decide) s
  | minute =>
    obtain rfl := Option.some.inj division
    rw [Division.seconds_begins]
    exact clearBelow_clock 60 (by decide) s
  | second =>
    obtain rfl := Option.some.inj division
    rw [Division.seconds_begins]
    exact clearBelow_clock 1 (by decide) s
  | millisecond => cases division

theorem civil_monthStart (t : Int) : civil (monthStart t) = ⟨t / 12, t % 12 + 1, 1⟩ :=
  civil_dayNumber (c := ⟨t / 12, t % 12 + 1, 1⟩)
    ⟨by dsimp only; omega, by dsimp only; omega, le_rfl, monthLength_pos _ _⟩

/-- The first of a month moves to the first of another. -/
theorem addMonths?_first {t : Int} (clock : s.clockSeconds = monthStart t * 86400)
    (nano : s.nano = 0) (months : Int) :
    s.addMonths? months = ofClock? (monthStart (t + months) * 86400) 0 := by
  have day : s.day = monthStart t := by
    have := s.clockSeconds_div
    omega
  have second : s.second = 0 := by
    unfold clockSeconds at clock
    omega
  have total : t / 12 * 12 + (t % 12 + 1 - 1) + months = t + months := by omega
  have short (year month : Int) : min 1 (monthLength year month) = 1 :=
    min_eq_left (monthLength_pos year month)
  rw [addMonths?, date, day, civil_monthStart, second, nano, ofClock?]
  simp only [total, short]
  rw [Int.mul_ediv_cancel _ (by decide), Int.mul_emod_left]
  rfl

/-- A whole second moves by whole seconds. -/
theorem addMillis?_seconds (nano : s.nano = 0) (seconds : Int) :
    s.addMillis? (seconds * 1000) = ofClock? (s.clockSeconds + seconds) 0 := by
  have usual : s.isLeapSecond = false := by
    rw [isLeapSecond, nano]
    rfl
  rw [addMillis?, usual, nano, Int.mul_tdiv_cancel _ (by decide), Int.mul_tmod_left]
  simp [carry?]

theorem addMillis?_back (usual : s.isLeapSecond = false) :
    s.addMillis? (-1) = ofClock? (s.clockSeconds + (s.nano - 1000000 : Int) / billion)
      ((s.nano - 1000000 : Int) % billion).toNat := by
  have seconds : Int.tdiv (-1) 1000 = 0 := rfl
  have fraction : Int.tmod (-1) 1000 * 1000000 = -1000000 := rfl
  rw [addMillis?, usual, seconds, fraction, if_neg Bool.false_ne_true, carry?, Int.add_zero]
  rfl

/-- The last millisecond before a whole second. -/
theorem addMillis?_back_whole (nano : s.nano = 0) :
    s.addMillis? (-1) = ofClock? (s.clockSeconds - 1) 999000000 := by
  have usual : s.isLeapSecond = false := by
    rw [isLeapSecond, nano]
    rfl
  rw [addMillis?_back usual, nano]
  rfl

theorem add?_one {millis : Int} (unmonthly : unit.months? = none)
    (fixed : unit.millis? = some millis)
    (whole : Number.integer? .halfAway (1 * Float.ofInt millis) = some millis) (s : Stamp) :
    s.add? 1 unit = s.addMillis? millis := by
  have finite : (1 : Float).isFinite = true := by decide
  simp only [add?, unmonthly, fixed]
  rw [if_pos finite, whole, Option.bind_some]

/-- The period that follows begins behind the last second of this one, if that exists. -/
theorem Begins.next (h : s.Begins unit) (division : unit.division? = some d) :
    (s.startOf unit).add? 1 unit = ofClock? (d.begins (d.number s.clockSeconds + 1)) 0 := by
  obtain ⟨clock, nano⟩ := h.startOf division
  have one : Number.integer? .towardZero 1 = some 1 := by decide
  have months {count : Int} (pos : 0 < count)
      (clock : (s.startOf unit).clockSeconds = (Division.ofMonths count pos).begins
        ((Division.ofMonths count pos).number s.clockSeconds)) :
      (Number.integer? .towardZero 1).bind (fun n => (s.startOf unit).addMonths? (n * count)) =
        ofClock? ((Division.ofMonths count pos).begins
          ((Division.ofMonths count pos).number s.clockSeconds + 1)) 0 := by
    rw [Division.months_begins] at clock ⊢
    rw [one, Option.bind_some, Int.one_mul, addMonths?_first clock nano, Int.add_mul, Int.one_mul]
  have seconds {size offset : Int} (pos : 0 < size)
      (clock : (s.startOf unit).clockSeconds = (Division.ofSeconds size offset pos).begins
        ((Division.ofSeconds size offset pos).number s.clockSeconds)) :
      (s.startOf unit).addMillis? (size * 1000) =
        ofClock? ((Division.ofSeconds size offset pos).begins
          ((Division.ofSeconds size offset pos).number s.clockSeconds + 1)) 0 := by
    rw [addMillis?_seconds nano, clock]
    simp only [Division.ofSeconds]
    congr 1
    ring
  cases unit with
  | year =>
    obtain rfl := Option.some.inj division
    exact months _ clock
  | quarter =>
    obtain rfl := Option.some.inj division
    exact months _ clock
  | month =>
    obtain rfl := Option.some.inj division
    exact months _ clock
  | week =>
    obtain rfl := Option.some.inj division
    exact (add?_one rfl rfl (by decide) _).trans (seconds _ clock)
  | day =>
    obtain rfl := Option.some.inj division
    exact (add?_one rfl rfl (by decide) _).trans (seconds _ clock)
  | hour =>
    obtain rfl := Option.some.inj division
    exact (add?_one rfl rfl (by decide) _).trans (seconds _ clock)
  | minute =>
    obtain rfl := Option.some.inj division
    exact (add?_one rfl rfl (by decide) _).trans (seconds _ clock)
  | second =>
    obtain rfl := Option.some.inj division
    exact (add?_one rfl rfl (by decide) _).trans (seconds _ clock)
  | millisecond => cases division

end Stamp

end TemplateFormula.Calendar
