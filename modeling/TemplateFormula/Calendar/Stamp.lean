import TemplateFormula.Calendar.Day

/-!
# Dates with a time of day

A wall-clock date and time with nanoseconds. The last second of a minute may be a leap second, in
which the nanoseconds run on to two seconds. Dates outside the supported years do not exist.
-/

namespace TemplateFormula.Calendar

structure Stamp where
  day : Int
  second : Nat
  nano : Nat
  firstDay_le : firstDay ≤ day
  le_lastDay : day ≤ lastDay
  second_lt : second < 86400
  nano_lt : nano < 2000000000
  leap : 1000000000 ≤ nano → second % 60 = 59
deriving Repr, DecidableEq

namespace Stamp

def make? (day : Int) (second nano : Nat) : Option Stamp :=
  if h : firstDay ≤ day ∧ day ≤ lastDay ∧ second < 86400 ∧ nano < 2000000000 ∧
      (1000000000 ≤ nano → second % 60 = 59) then
    some ⟨day, second, nano, h.1, h.2.1, h.2.2.1, h.2.2.2.1, h.2.2.2.2⟩
  else none

/-- A calendar date with a time of day, if both exist. -/
def ofParts? (year month day : Int) (hour minute second nano : Nat) : Option Stamp :=
  if 1 ≤ month ∧ month ≤ 12 ∧ 1 ≤ day ∧ day ≤ monthLength year month ∧
      hour < 24 ∧ minute < 60 ∧ second < 60 then
    make? (dayNumber year month day) (hour * 3600 + minute * 60 + second) nano
  else none

variable (s : Stamp)

def date : Civil := civil s.day

def hour : Nat := s.second / 3600

def minute : Nat := s.second / 60 % 60

def secondOfMinute : Nat := s.second % 60

/-- Milliseconds inside the second, also of a leap second. -/
def milli : Nat := s.nano / 1000000

def isLeapSecond : Bool := 1000000000 ≤ s.nano

def midnight (s : Stamp) : Stamp :=
  { s with
    second := 0
    nano := 0
    second_lt := by decide
    nano_lt := by decide
    leap := fun h => absurd h (by decide) }

/-- Seconds on the wall clock since the first midnight. -/
def clockSeconds : Int := s.day * 86400 + s.second

def ofClock? (seconds : Int) (nano : Nat) : Option Stamp :=
  make? (seconds / 86400) (seconds % 86400).toNat nano

def order (a b : Stamp) : Ordering :=
  (compare a.day b.day).then ((compare a.second b.second).then (compare a.nano b.nano))

instance : LT Stamp := ⟨fun a b => a.order b = .lt⟩

instance : LE Stamp := ⟨fun a b => a.order b ≠ .gt⟩

instance (a b : Stamp) : Decidable (a < b) := inferInstanceAs (Decidable (a.order b = .lt))

instance (a b : Stamp) : Decidable (a ≤ b) := inferInstanceAs (Decidable (a.order b ≠ .gt))

theorem make?_self : make? s.day s.second s.nano = some s := by
  simp [make?, s.firstDay_le, s.le_lastDay, s.second_lt, s.nano_lt]
  exact s.leap

end Stamp

end TemplateFormula.Calendar
