import TemplateFormula.Proofs.Calendar.Periods

/-!
# Comparison by period

A period ends, for a comparison, a whole millisecond before the next one begins, and the last
period of the supported years ends where it begins. Dates that are not behind the end of their own
period are compared by the starts of their periods; any other date comes after itself.
-/

namespace TemplateFormula.Calendar.Stamp

variable {a b s : Stamp} {unit : Unit} {d : Division}

theorem Begins.startOf_position (h : s.Begins unit) (division : unit.division? = some d) :
    (s.startOf unit).position = d.begins (d.number s.clockSeconds) * 2000000000 := by
  obtain ⟨clock, nano⟩ := h.startOf division
  rw [position, clock, nano]
  exact Int.add_zero _

/-- The end lies a millisecond before the next period, if there is one. -/
theorem Begins.endOf_position (h : s.Begins unit) (division : unit.division? = some d) :
    (s.endOf unit).position =
      if d.begins (d.number s.clockSeconds + 1) < (lastDay + 1) * 86400 then
        (d.begins (d.number s.clockSeconds + 1) - 1) * 2000000000 + 999000000
      else d.begins (d.number s.clockSeconds) * 2000000000 := by
  have coarse : unit ≠ .millisecond := by
    rintro rfl
    cases division
  have ge := h.le division
  have lt : d.begins (d.number s.clockSeconds) < d.begins (d.number s.clockSeconds + 1) :=
    (d.begins_number_le _).trans_lt (d.lt_begins_succ _)
  rw [endOf, if_neg coarse]
  dsimp only
  rw [h.next division]
  split
  · next inside =>
    obtain ⟨next, there, clock, nano⟩ := ofClock?_eq_some _ 0 (by omega) inside (by decide)
    obtain ⟨last, here, clock', nano'⟩ :=
      ofClock?_eq_some (next.clockSeconds - 1) 999000000 (by omega) (by omega) (by decide)
    rw [there, Option.bind_some, addMillis?_back_whole nano, here, Option.getD_some, position,
      clock', nano', clock]
    rfl
  · next outside =>
    rw [ofClock?_eq_none (by omega), Option.bind_none, Option.getD_none,
      h.startOf_position division]

/-- The number of the period decides between two starts. -/
theorem startOf_lt_iff (ha : a.Begins unit) (hb : b.Begins unit)
    (division : unit.division? = some d) :
    a.startOf unit < b.startOf unit ↔ d.number a.clockSeconds < d.number b.clockSeconds := by
  have order := d.begins_le_iff (d.number b.clockSeconds) (d.begins (d.number a.clockSeconds))
  rw [d.number_begins] at order
  rw [lt_iff, ha.startOf_position division, hb.startOf_position division]
  omega

/-- A date is before the start of a period if its own period begins before. -/
theorem lt_startOf_iff (ha : a.Begins unit) (hb : b.Begins unit) :
    b < a.startOf unit ↔ b.startOf unit < a.startOf unit := by
  cases division : unit.division? with
  | none =>
    obtain rfl := Unit.eq_millisecond division
    rfl
  | some d =>
    have order := d.begins_le_iff (d.number a.clockSeconds) b.clockSeconds
    have nanos := b.nano_lt
    rw [startOf_lt_iff hb ha division, lt_iff, ha.startOf_position division]
    unfold position
    omega

theorem startOf_le (h : s.Begins unit) : s.startOf unit ≤ s := by
  rw [le_iff, ← not_lt, ← lt_iff, lt_startOf_iff h h, lt_iff]
  exact lt_irrefl _

theorem startOf_le_endOf (h : s.Begins unit) : s.startOf unit ≤ s.endOf unit := by
  cases division : unit.division? with
  | none =>
    obtain rfl := Unit.eq_millisecond division
    exact le_iff.2 le_rfl
  | some d =>
    have lt : d.begins (d.number s.clockSeconds) < d.begins (d.number s.clockSeconds + 1) :=
      (d.begins_number_le _).trans_lt (d.lt_begins_succ _)
    rw [le_iff, h.startOf_position division, h.endOf_position division]
    split <;> omega

theorem endOf_congr (ha : a.Begins unit) (hb : b.Begins unit)
    (same : a.startOf unit = b.startOf unit) : a.endOf unit = b.endOf unit := by
  unfold endOf
  split
  · next fine =>
    subst fine
    exact same
  · rw [same]

/-- A period ends before any later one begins. -/
theorem endOf_lt_startOf (ha : a.Begins unit) (hb : b.Begins unit)
    (lt : a.startOf unit < b.startOf unit) : a.endOf unit < b.startOf unit := by
  cases division : unit.division? with
  | none =>
    obtain rfl := Unit.eq_millisecond division
    exact lt
  | some d =>
    rw [startOf_lt_iff ha hb division] at lt
    have next := d.begins_le_iff (d.number a.clockSeconds + 1)
      (d.begins (d.number b.clockSeconds))
    have order := d.begins_le_iff (d.number b.clockSeconds) (d.begins (d.number a.clockSeconds))
    rw [d.number_begins] at next order
    rw [lt_iff, ha.endOf_position division, hb.startOf_position division]
    split <;> omega

/-- The three answers for dates of different periods. -/
theorem compared_of_ne (ha : a.Begins unit) (hb : b.Begins unit)
    (different : a.startOf unit ≠ b.startOf unit) :
    a.isBefore b unit = decide (a.startOf unit < b.startOf unit) ∧ a.isSame b unit = false ∧
      a.isAfter b unit = decide (b.startOf unit < a.startOf unit) := by
  have own := startOf_le hb
  have ends := startOf_le_endOf ha
  rw [isBefore, isSame, isAfter, Bool.and_eq_false_iff]
  simp only [decide_eq_decide, decide_eq_false_iff_not, not_le]
  rcases lt_or_gt_of_ne different with lt | gt
  · have before := endOf_lt_startOf ha hb lt
    exact ⟨iff_of_true (before.trans_le own) lt, .inr (before.trans_le own),
      iff_of_false (lt.le.trans own).not_gt lt.not_gt⟩
  · have after := (lt_startOf_iff ha hb).2 gt
    exact ⟨iff_of_false (after.le.trans ends).not_gt gt.not_gt, .inl after, iff_of_true after gt⟩

/-- The three answers for dates of one period: the end of it decides. -/
theorem compared_of_eq (ha : a.Begins unit) (hb : b.Begins unit)
    (same : a.startOf unit = b.startOf unit) :
    a.isBefore b unit = decide (b.endOf unit < b) ∧ a.isSame b unit = decide (b ≤ b.endOf unit) ∧
      a.isAfter b unit = false := by
  have own := startOf_le hb
  rw [isBefore, isSame, isAfter, endOf_congr ha hb same, same, decide_eq_true own, Bool.true_and]
  exact ⟨rfl, rfl, decide_eq_false own.not_gt⟩

/-- The period of the date begins within the supported years, and the date lies a whole millisecond
before the next period or at the start of the last one. -/
def Covered (s : Stamp) (unit : Unit) : Prop :=
  unit = .millisecond ∨ s.Begins unit ∧
    match (s.startOf unit).add? 1 unit with
    | some next => s.clockSeconds + 1 < next.clockSeconds ∨ s.nano ≤ 999000000
    | none => s = s.startOf unit

/-- A covered date is not behind the end of its period. -/
theorem covered_iff : s.Covered unit ↔ s.Begins unit ∧ s ≤ s.endOf unit := by
  cases division : unit.division? with
  | none =>
    obtain rfl := Unit.eq_millisecond division
    exact iff_of_true (.inl rfl) ⟨nofun, le_iff.2 le_rfl⟩
  | some d =>
    have coarse : unit ≠ .millisecond := by
      rintro rfl
      cases division
    rw [Covered, or_iff_right coarse]
    refine and_congr_right fun h => ?_
    have own := d.begins_number_le s.clockSeconds
    have lt := d.lt_begins_succ s.clockSeconds
    have le := startOf_le h
    have ge := h.le division
    have nanos := s.nano_lt
    rw [le_iff, h.startOf_position division] at le
    rw [le_iff, h.endOf_position division, h.next division]
    by_cases inside : d.begins (d.number s.clockSeconds + 1) < (lastDay + 1) * 86400
    · obtain ⟨next, there, clock, -⟩ := ofClock?_eq_some _ 0 (by omega) inside (by decide)
      rw [there, if_pos inside]
      dsimp only
      rw [clock]
      unfold position
      omega
    · rw [ofClock?_eq_none (by omega), if_neg inside]
      dsimp only
      rw [← position_inj, h.startOf_position division]
      exact ⟨le_of_eq, le.antisymm'⟩

/-- The first Sunday of the supported years. -/
def firstSunday : Stamp := (make? (firstDay + 3) 0 0).get (by decide)

theorem firstSunday_covered : firstSunday.Covered .week :=
  covered_iff.2 ⟨fun _ => by decide, by decide⟩

/-- A move forward by whole seconds leaves a leap second. -/
theorem addMillis?_forward (s : Stamp) (seconds : Int) (pos : 0 < seconds)
    (lt : s.clockSeconds + seconds < (lastDay + 1) * 86400) :
    ∃ t : Stamp, s.addMillis? (seconds * 1000) = some t ∧
      t.clockSeconds = s.clockSeconds + seconds ∧ t.isLeapSecond = false := by
  have ge := s.firstDay_le
  have nanos := s.nano_lt
  have carried (nano : Int) (n : 0 ≤ nano) (n' : nano < 1000000000) :
      ∃ t : Stamp, carry? s.clockSeconds nano seconds (0 * 1000000) = some t ∧
        t.clockSeconds = s.clockSeconds + seconds ∧ t.isLeapSecond = false := by
    have whole : (nano + 0 * 1000000) / billion = 0 := by
      unfold billion
      omega
    have small : ((nano + 0 * 1000000) % billion).toNat < 1000000000 := by
      unfold billion
      omega
    obtain ⟨t, there, clock, fraction⟩ := ofClock?_eq_some
      (s.clockSeconds + seconds) _ (by unfold clockSeconds at *; omega) lt small
    refine ⟨t, ?_, clock, decide_eq_false (fraction ▸ small.not_ge)⟩
    rw [carry?, whole, Int.add_zero]
    exact there
  rw [addMillis?, Int.mul_tdiv_cancel _ (by decide), Int.mul_tmod_left]
  cases leap : s.isLeapSecond with
  | true =>
    have late := of_decide_eq_true leap
    rw [if_pos rfl, if_pos (.inl pos)]
    exact carried _ (by unfold billion; omega) (by unfold billion; omega)
  | false =>
    have usual := of_decide_eq_false leap
    rw [if_neg Bool.false_ne_true]
    exact carried _ (by omega) (by omega)

/-- A millisecond back takes at most a second from the clock. -/
theorem addMillis?_back_le (usual : s.isLeapSecond = false)
    (gt : firstDay * 86400 < s.clockSeconds) :
    ∃ t : Stamp, s.addMillis? (-1) = some t ∧ s.clockSeconds - 1 ≤ t.clockSeconds := by
  have le := s.le_lastDay
  have second := s.second_lt
  have nanos := of_decide_eq_false usual
  have small : ((s.nano - 1000000 : Int) % billion).toNat < 1000000000 := by
    unfold billion
    omega
  have less : -1 ≤ (s.nano - 1000000 : Int) / billion ∧ (s.nano - 1000000 : Int) / billion ≤ 0 := by
    unfold billion
    omega
  obtain ⟨t, there, clock, -⟩ := ofClock?_eq_some
    (s.clockSeconds + (s.nano - 1000000 : Int) / billion) _ (by omega)
    (by unfold clockSeconds at *; omega) small
  exact ⟨t, (addMillis?_back usual).trans there, by omega⟩

/-- A day of the week that the first day of the supported years cuts begins a period of its own,
which ends only in the week that follows. -/
theorem cut_week (h : ¬ s.Begins unit) :
    unit = .week ∧ s.startOf unit = s ∧ s < firstSunday ∧ firstSunday ≤ s.endOf unit := by
  obtain ⟨rfl, before⟩ := Classical.not_imp.1 h
  have ge := s.firstDay_le
  have second := s.second_lt
  have nanos := s.nano_lt
  have early : s.day < firstDay + 3 := by
    unfold weekday firstDay at *
    omega
  have start : s.startOf .week = s := by
    have missing : make? (s.day - weekday s.day) 0 0 = none := dif_neg fun within => before within.1
    rw [startOf, atMidnight, missing]
    rfl
  have clock : s.clockSeconds = s.day * 86400 + s.second := rfl
  have sunday : firstSunday.position = (firstDay + 3) * 86400 * 2000000000 := rfl
  unfold firstDay at *
  obtain ⟨t, next, later, usual⟩ := addMillis?_forward s 604800 (by decide)
    (by unfold lastDay; omega)
  obtain ⟨u, last, back⟩ := addMillis?_back_le usual (by unfold firstDay; omega)
  refine ⟨rfl, start, ?_, ?_⟩
  · rw [lt_iff, sunday]
    unfold position
    omega
  · have week : s.add? 1 .week = some t := (add?_one rfl rfl (by decide) s).trans next
    rw [endOf, if_neg (by decide), start]
    dsimp only
    rw [week, Option.bind_some, last, Option.getD_some, le_iff, sunday]
    unfold position
    omega

/-- Two dates compare as the starts of their periods do. -/
structure ByPeriod (a b : Stamp) (unit : Unit) : Prop where
  before : a.isBefore b unit = decide (a.startOf unit < b.startOf unit)
  same : a.isSame b unit = decide (a.startOf unit = b.startOf unit)
  after : a.isAfter b unit = decide (b.startOf unit < a.startOf unit)

theorem Covered.byPeriod (ha : a.Covered unit) (hb : b.Covered unit) : a.ByPeriod b unit := by
  obtain ⟨begins, -⟩ := covered_iff.1 ha
  obtain ⟨begins', ends⟩ := covered_iff.1 hb
  by_cases eq : a.startOf unit = b.startOf unit
  · obtain ⟨before, same, after⟩ := compared_of_eq begins begins' eq
    constructor
    · rw [before, eq, decide_eq_false ends.not_gt, decide_eq_false (lt_irrefl _)]
    · rw [same, decide_eq_true ends, decide_eq_true eq]
    · rw [after, eq, decide_eq_false (lt_irrefl _)]
  · obtain ⟨before, same, after⟩ := compared_of_ne begins begins' eq
    exact ⟨before, same.trans (decide_eq_false eq).symm, after⟩

/-- One of the three holds. -/
theorem count_compared (a b : Stamp) :
    [decide (a < b), decide (a = b), decide (b < a)].count true = 1 := by
  rcases lt_trichotomy a b with lt | rfl | gt
  · simp [lt, lt.ne, lt.not_gt]
  · simp
  · simp [gt, gt.ne', gt.not_gt]

/-- Only covered dates compare by period with themselves and with all that are covered. -/
theorem covered_of_byPeriod (own : s.ByPeriod s unit)
    (others : ∀ b : Stamp, b.Covered unit → s.ByPeriod b unit) : s.Covered unit := by
  rw [covered_iff]
  by_cases begins : s.Begins unit
  · have same := (compared_of_eq begins begins rfl).2.1
    rw [own.same, decide_eq_true rfl] at same
    exact ⟨begins, of_decide_eq_true same.symm⟩
  · obtain ⟨rfl, start, lt, le⟩ := cut_week begins
    have sunday : firstSunday.startOf .week = firstSunday := by decide
    have before := (others firstSunday firstSunday_covered).before
    rw [start, sunday, isBefore, decide_eq_decide] at before
    exact absurd (before.2 lt) le.not_gt

/-- Covered dates compare by their periods, whatever the unit: being of one period is an
equivalence, of before, same and after just one holds, and they change with the roles. No date
that is not covered can be added to these. -/
theorem compared_by_period (unit : Unit) :
    (∀ a b : Stamp, a.Covered unit → b.Covered unit →
      (a.isSame b unit = true ↔ a.startOf unit = b.startOf unit) ∧
      (a.isBefore b unit = true ↔ a.startOf unit < b.startOf unit) ∧
      [a.isBefore b unit, a.isSame b unit, a.isAfter b unit].count true = 1 ∧
      (a.isBefore b unit, a.isSame b unit, a.isAfter b unit) =
        (b.isAfter a unit, b.isSame a unit, b.isBefore a unit)) ∧
    Equivalence (fun a b : { s : Stamp // s.Covered unit } => a.1.isSame b.1 unit = true) ∧
    ∀ s : Stamp, s.Covered unit ↔
      s.ByPeriod s unit ∧ ∀ b : Stamp, b.Covered unit → s.ByPeriod b unit := by
  have same (a b : { s : Stamp // s.Covered unit }) :
      a.1.isSame b.1 unit = true ↔ a.1.startOf unit = b.1.startOf unit := by
    rw [(a.2.byPeriod b.2).same, decide_eq_true_iff]
  refine ⟨fun a b ha hb => ⟨same ⟨a, ha⟩ ⟨b, hb⟩, ?_, ?_, ?_⟩, ⟨?_, ?_, ?_⟩, fun s => ⟨?_, ?_⟩⟩
  · rw [(ha.byPeriod hb).before, decide_eq_true_iff]
  · rw [(ha.byPeriod hb).before, (ha.byPeriod hb).same, (ha.byPeriod hb).after]
    exact count_compared _ _
  · rw [(ha.byPeriod hb).before, (ha.byPeriod hb).same, (ha.byPeriod hb).after,
      (hb.byPeriod ha).before, (hb.byPeriod ha).same, (hb.byPeriod ha).after]
    simp only [eq_comm]
  · exact fun a => (same a a).2 rfl
  · exact fun h => (same _ _).2 ((same _ _).1 h).symm
  · exact fun h h' => (same _ _).2 (((same _ _).1 h).trans ((same _ _).1 h'))
  · exact fun h => ⟨h.byPeriod h, fun b hb => h.byPeriod hb⟩
  · exact fun ⟨own, others⟩ => covered_of_byPeriod own others

/-- The first moment of a February. -/
def february : Stamp := (ofParts? 2024 2 1 0 0 0 0).get (by decide)

/-- The last whole millisecond of the same February. -/
def leapDay : Stamp := (ofParts? 2024 2 29 23 59 59 999000000).get (by decide)

theorem compared_by_period_february :
    february.Covered .month ∧ leapDay.Covered .month ∧ leapDay.isSame february .month = true ∧
      leapDay.isBefore february .month = february.isAfter leapDay .month := by
  have first : february.Covered .month := covered_iff.2 ⟨nofun, by decide⟩
  have last : leapDay.Covered .month := covered_iff.2 ⟨nofun, by decide⟩
  have ⟨same, _, _, swap⟩ := (compared_by_period .month).1 leapDay february last first
  exact ⟨first, last, same.2 (by decide), congrArg Prod.fst swap⟩

/-- Half a millisecond before midnight. -/
def lateEvening : Stamp := (ofParts? 2024 1 1 23 59 59 999500000).get (by decide)

/-- In the last millisecond of a day a date is before itself, and not of its own day. -/
theorem lateEvening_before_itself :
    lateEvening.isLeapSecond = false ∧ lateEvening.isBefore lateEvening .day = true ∧
      lateEvening.isSame lateEvening .day = false ∧
      lateEvening.isAfter lateEvening .day = false := by
  decide

end TemplateFormula.Calendar.Stamp
