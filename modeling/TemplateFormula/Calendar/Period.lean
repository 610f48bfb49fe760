import TemplateFormula.Calendar.Span
import TemplateFormula.Calendar.Unit
import TemplateFormula.Number.Rounding

/-!
# Periods

The first and last moment of the calendar period around a date, comparison of dates by period,
and arithmetic in units. Weeks begin on Sunday. Amounts are doubles; a unit of fixed length takes
fractions of itself, a unit of months only whole ones.
-/

namespace TemplateFormula.Calendar

namespace Stamp

/-- The date moved back to midnight of an earlier day, or unmoved if there is no such day. -/
def atMidnight (s : Stamp) (day : Int) : Stamp := (make? day 0 0).getD s

/-- The time with everything below `size` seconds cleared. -/
def clearBelow (s : Stamp) (size : Nat) : Stamp :=
  (make? s.day (s.second - s.second % size) 0).getD s

def startOf (s : Stamp) : Unit → Stamp
  | .year => s.atMidnight (dayNumber s.date.year 1 1)
  | .quarter => s.atMidnight (dayNumber s.date.year ((s.date.month - 1) / 3 * 3 + 1) 1)
  | .month => s.atMidnight (dayNumber s.date.year s.date.month 1)
  | .week => s.atMidnight (s.day - weekday s.day)
  | .day => s.midnight
  | .hour => s.clearBelow 3600
  | .minute => s.clearBelow 60
  | .second => s.clearBelow 1
  | .millisecond => s

/-- The date moved by an amount of units, if it exists. -/
def add? (s : Stamp) (amount : Float) (unit : Unit) : Option Stamp :=
  match unit.months?, unit.millis? with
  | some m, _ => (Number.integer? .towardZero amount).bind fun n => s.addMonths? (n * m)
  | none, some ms =>
    if amount.isFinite then
      (Number.integer? .halfAway (amount * Float.ofInt ms)).bind s.addMillis?
    else none
  | none, none => none

/-- The last millisecond of the period; a millisecond ends where it starts. -/
def endOf (s : Stamp) (unit : Unit) : Stamp :=
  if unit = .millisecond then s
  else
    let start := s.startOf unit
    ((start.add? 1 unit).bind (·.addMillis? (-1))).getD start

def isBefore (a b : Stamp) (unit : Unit) : Bool := a.endOf unit < b

def isAfter (a b : Stamp) (unit : Unit) : Bool := b < a.startOf unit

def isSame (a b : Stamp) (unit : Unit) : Bool := a.startOf unit ≤ b && b ≤ a.endOf unit

/-- Whole months from `start` to `stop`: the difference of the months, less one if the start moved
by it passes the stop. -/
def wholeMonths (stop start : Stamp) : Int :=
  let months := (stop.date.year - start.date.year) * 12 + (stop.date.month - start.date.month)
  match start.addMonths? months with
  | none => months
  | some anchor =>
    if start < stop ∧ stop < anchor then months - 1
    else if stop < start ∧ anchor < stop then months + 1
    else months

/-- Whole units from `start` to `stop`, truncated toward zero. -/
def difference (stop start : Stamp) (unit : Unit) : Int :=
  match unit.millis?, unit.months? with
  | some ms, _ => (stop.millisSince start).tdiv ms
  | none, some m => (wholeMonths stop start).tdiv m
  | none, none => 0

end Stamp

/-- A date from calendar parts, of which the month counts from zero and all but the year may run
over. All numbers on the way fit 64 bits. -/
def ofFields? (year month day hour minute second : Float) : Option Stamp := do
  let y ← Number.whole64? year
  let m ← Number.whole64? month
  let d ← Number.whole64? day
  let h ← Number.whole64? hour
  let mi ← Number.whole64? minute
  let ms ← Number.whole64? (second * 1000)
  let total ← Number.int64? ((← Number.int64? (y * 12)) + m)
  let first ← Stamp.ofParts? (total / 12) (total % 12 + 1) 1 0 0 0 0
  let s ← first.addMillis? ((d - 1) * 86400000)
  let s ← s.addMillis? (h * 3600000)
  let s ← s.addMillis? (mi * 60000)
  s.addMillis? ms

end TemplateFormula.Calendar
