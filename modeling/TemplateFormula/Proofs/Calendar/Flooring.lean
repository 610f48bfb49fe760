import TemplateFormula.Proofs.Calendar.Comparing

/-!
# The start of a period as a floor

The start of the period around a date is the greatest date, among those that are the first moment
of a period, that is not behind it. The first moments of a coarser unit are first moments of every
unit that fills it, so the floors nest: the start of the longer period is found from the start of
the shorter one.
-/

namespace TemplateFormula.Calendar

/-- Periods of the finer unit make up those of the coarser one, with no unit between them. -/
inductive Unit.Fills : Unit → Unit → Prop
  | second : Fills .millisecond .second
  | minute : Fills .second .minute
  | hour : Fills .minute .hour
  | day : Fills .hour .day
  | week : Fills .day .week
  | month : Fills .day .month
  | quarter : Fills .month .quarter
  | year : Fills .quarter .year

/-- The finer unit stands before the coarser one in the chain from the millisecond to the year, or
in the one that ends with day and week. -/
def Unit.Precedes : Unit → Unit → Prop := Relation.TransGen Unit.Fills

/-- No unit is made up of weeks. -/
theorem Unit.Precedes.ne_week {fine coarse : Unit} (precedes : fine.Precedes coarse) :
    fine ≠ .week := by
  obtain ⟨_, fills, -⟩ := Relation.TransGen.head'_iff.1 precedes
  rintro rfl
  cases fills

namespace Division

variable {j k : Int}

theorem begins_mono (d : Division) (le : j ≤ k) : d.begins j ≤ d.begins k := by
  have own : j ≤ d.number (d.begins k) := le.trans ((d.begins_le_iff _ _).1 le_rfl)
  exact (d.begins_le_iff _ _).2 own

/-- A period that has begun begins no later than the period around. -/
theorem begins_le_of_le (d : Division) {t : Int} (le : d.begins k ≤ t) :
    d.begins k ≤ d.begins (d.number t) :=
  d.begins_mono ((d.begins_le_iff _ _).1 le)

/-- Every period of the coarser division begins where one of the finer does. -/
def Refines (fine coarse : Division) : Prop := ∀ k, ∃ j, coarse.begins k = fine.begins j

theorem Refines.seconds {size : Int} {pos : 0 < size} {coarse : Division}
    (multiple : ∀ k, size ∣ coarse.begins k) : (ofSeconds size 0 pos).Refines coarse := by
  intro k
  obtain ⟨j, begins⟩ := multiple k
  exact ⟨j, by simp only [ofSeconds, begins, Int.add_zero, Int.mul_comm]⟩

theorem Refines.months {count size : Int} (pos : 0 < count) (pos' : 0 < size) (n : Int)
    (multiple : size = n * count) : (ofMonths count pos).Refines (ofMonths size pos') := by
  intro k
  exact ⟨k * n, by rw [months_begins, months_begins, multiple, Int.mul_assoc]⟩

end Division

namespace Stamp

variable {a b s t : Stamp} {unit : Unit} {d : Division}

/-- An earlier date stands in an earlier second or in the same one. -/
theorem clockSeconds_mono (le : t ≤ s) : t.clockSeconds ≤ s.clockSeconds := by
  have nano := s.nano_lt
  rw [le_iff, position, position] at le
  omega

/-- The date is the first moment of a period. Every date is one of a millisecond. -/
def Opens (t : Stamp) (unit : Unit) : Prop :=
  ∀ d, unit.division? = some d → t.nano = 0 ∧ ∃ k, t.clockSeconds = d.begins k

theorem opens_iff (division : unit.division? = some d) :
    t.Opens unit ↔ t.nano = 0 ∧ ∃ k, t.clockSeconds = d.begins k := by
  simp [Opens, division]

theorem opens_millisecond (t : Stamp) : t.Opens .millisecond := nofun

theorem Opens.refined {fine coarse : Unit} {e : Division} (hf : fine.division? = some d)
    (hc : coarse.division? = some e) (refines : d.Refines e) (h : t.Opens coarse) :
    t.Opens fine := by
  obtain ⟨nano, k, clock⟩ := (opens_iff hc).1 h
  obtain ⟨j, same⟩ := refines k
  exact (opens_iff hf).2 ⟨nano, j, clock.trans same⟩

/-- What opens a period opens one of every unit that fills it. -/
theorem Opens.fills {fine coarse : Unit} (fills : fine.Fills coarse) (h : t.Opens coarse) :
    t.Opens fine := by
  cases fills with
  | second => exact opens_millisecond t
  | minute => exact h.refined rfl rfl (.seconds fun k => one_dvd _)
  | hour => exact h.refined rfl rfl (.seconds fun k => dvd_add (.mul_left (by decide) k) ⟨0, rfl⟩)
  | day => exact h.refined rfl rfl (.seconds fun k => dvd_add (.mul_left (by decide) k) ⟨0, rfl⟩)
  | week =>
    exact h.refined rfl rfl (.seconds fun k => dvd_add (.mul_left (by decide) k) (by decide))
  | month => exact h.refined rfl rfl (.seconds fun k => dvd_mul_left _ _)
  | quarter => exact h.refined rfl rfl (.months _ _ 3 rfl)
  | year => exact h.refined rfl rfl (.months _ _ 4 rfl)

theorem Opens.precedes {fine coarse : Unit} (precedes : fine.Precedes coarse)
    (h : t.Opens coarse) : t.Opens fine := by
  induction precedes with
  | single fills => exact h.fills fills
  | tail _ fills ih => exact ih (h.fills fills)

/-- The period around a date begins within the supported years if any period begins there by the
date. -/
theorem Opens.begins (h : t.Opens unit) (le : t ≤ s) : s.Begins unit := by
  rintro rfl
  obtain ⟨nano, k, clock⟩ := (opens_iff rfl).1 h
  have before := clockSeconds_mono le
  rw [clock] at before
  have later := Division.begins_le_of_le _ before
  rw [← clock] at later
  simp only [Division.ofSeconds, week_begins] at later
  have first := t.firstDay_le
  have second := t.second_lt
  unfold clockSeconds at later
  omega

theorem Begins.opens (h : s.Begins unit) : (s.startOf unit).Opens unit := fun _ division =>
  have ⟨clock, nano⟩ := h.startOf division
  ⟨nano, _, clock⟩

/-- No period begins between its start and a date in it. -/
theorem Begins.le_startOf (h : s.Begins unit) (opens : t.Opens unit) (le : t ≤ s) :
    t ≤ s.startOf unit := by
  cases division : unit.division? with
  | none =>
    obtain rfl := Unit.eq_millisecond division
    exact le
  | some d =>
    obtain ⟨nano, k, clock⟩ := (opens_iff division).1 opens
    have later := d.begins_le_of_le (clock ▸ clockSeconds_mono le)
    rw [le_iff, h.startOf_position division, position, nano, clock]
    omega

/-- The start of a period is the last first moment of one by the date. -/
theorem Begins.isGreatest (h : s.Begins unit) :
    IsGreatest {t : Stamp | t.Opens unit ∧ t ≤ s} (s.startOf unit) :=
  ⟨⟨h.opens, startOf_le h⟩, fun _ ht => h.le_startOf ht.1 ht.2⟩

theorem Opens.startOf_eq (h : t.Opens unit) : t.startOf unit = t :=
  (h.begins le_rfl).isGreatest.unique ⟨⟨h, le_rfl⟩, fun _ ht => ht.2⟩

theorem startOf_mono (ha : a.Begins unit) (hb : b.Begins unit) (le : a ≤ b) :
    a.startOf unit ≤ b.startOf unit :=
  hb.le_startOf ha.opens ((startOf_le ha).trans le)

/-- The start of the longer period is that of the start of the shorter one. -/
theorem startOf_startOf {fine : Unit} (precedes : fine.Precedes unit) (h : s.Begins unit)
    (h' : s.Begins fine) : (s.startOf fine).startOf unit = s.startOf unit := by
  -- the start of the longer period is not behind that of the shorter one
  have between : s.startOf unit ≤ s.startOf fine :=
    h'.le_startOf (h.opens.precedes precedes) (startOf_le h)
  have begins : (s.startOf fine).Begins unit := h.opens.begins between
  apply le_antisymm
  · exact startOf_mono begins h (startOf_le h')
  · exact begins.le_startOf h.opens between

/-- The start of a period is a floor: the greatest first moment of a period by the date, so it is
not behind the date, is its own start and does not fall where the date grows, and it is found from
the start of any shorter period that divides the unit. -/
theorem startOf_floors (unit : Unit) (a b : Stamp) (ha : a.Begins unit) (hb : b.Begins unit)
    (le : a ≤ b) :
    IsGreatest {t : Stamp | t.Opens unit ∧ t ≤ a} (a.startOf unit) ∧
      a.startOf unit ≤ a ∧ (a.startOf unit).startOf unit = a.startOf unit ∧
      a.startOf unit ≤ b.startOf unit ∧
      ∀ fine : Unit, fine.Precedes unit → (a.startOf fine).startOf unit = a.startOf unit :=
  ⟨ha.isGreatest, startOf_le ha, ha.opens.startOf_eq, startOf_mono ha hb le,
    fun _ precedes => startOf_startOf precedes ha fun week => absurd week precedes.ne_week⟩

/-- In the leap second before the first Sunday of 2017. -/
def leapSaturday : Stamp := (ofParts? 2016 12 31 23 59 59 1500000000).get (by decide)

/-- The Sunday that follows. -/
def newSunday : Stamp := (ofParts? 2017 1 1 0 0 0 0).get (by decide)

theorem startOf_floors_leap :
    leapSaturday.Begins .week ∧ newSunday.Begins .week ∧ leapSaturday ≤ newSunday ∧
      leapSaturday.startOf .week = (ofParts? 2016 12 25 0 0 0 0).get (by decide) ∧
      leapSaturday.startOf .week ≤ newSunday.startOf .week ∧
      Unit.hour.Precedes .week ∧
      (leapSaturday.startOf .hour).startOf .week = leapSaturday.startOf .week := by
  have before : leapSaturday.Begins .week := fun _ => by decide
  have behind : newSunday.Begins .week := fun _ => by decide
  have le : leapSaturday ≤ newSunday := by decide
  have hours : Unit.hour.Precedes .week := .tail (.single .day) .week
  have ⟨_, _, _, mono, nested⟩ := startOf_floors .week leapSaturday newSunday before behind le
  exact ⟨before, behind, le, by decide, mono, hours, nested .hour hours⟩

end Stamp

end TemplateFormula.Calendar
