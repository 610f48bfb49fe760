import TemplateFormula.Calendar.Stamp

/-!
# Moving a date and measuring distances

Durations are whole milliseconds or nanoseconds. A leap second is left when the duration carries
out of it, and it counts as a second of its own between two dates on either side of it.
-/

namespace TemplateFormula.Calendar.Stamp

def billion : Int := 1000000000

/-- Adds seconds and a signed fraction below one second to a time outside leap seconds. -/
def carry? (clock : Int) (nano seconds fraction : Int) : Option Stamp :=
  let n := nano + fraction
  ofClock? (clock + seconds + n / billion) (n % billion).toNat

def addMillis? (s : Stamp) (millis : Int) : Option Stamp :=
  let seconds := millis.tdiv 1000
  let fraction := millis.tmod 1000 * 1000000
  if s.isLeapSecond then
    if 0 < seconds ∨ (0 < fraction ∧ 2 * billion ≤ s.nano + fraction) then
      carry? s.clockSeconds (s.nano - billion) seconds fraction
    else if seconds < 0 then
      carry? (s.clockSeconds + 1) (s.nano - billion) seconds fraction
    else make? s.day s.second (s.nano + fraction).toNat
  else carry? s.clockSeconds s.nano seconds fraction

/-- Moves the wall clock by whole seconds and keeps the fraction, a leap second included. -/
def shiftClock? (s : Stamp) (seconds : Int) : Option Stamp :=
  ofClock? (s.clockSeconds + seconds) s.nano

/-- The same day in another month, or its last day if the month is shorter. -/
def addMonths? (s : Stamp) (months : Int) : Option Stamp :=
  let d := s.date
  let total := d.year * 12 + (d.month - 1) + months
  let year := total / 12
  let month := total % 12 + 1
  make? (dayNumber year month (min d.day (monthLength year month))) s.second s.nano

/-- Nanoseconds from `b` to `a`. -/
def nanosSince (a b : Stamp) : Int :=
  let counted : Int :=
    if b.second < a.second ∧ b.isLeapSecond then 1
    else if a.second < b.second ∧ a.isLeapSecond then -1
    else 0
  (a.clockSeconds - b.clockSeconds + counted) * billion + (a.nano - b.nano)

/-- Whole milliseconds from `b` to `a`, truncated toward zero. -/
def millisSince (a b : Stamp) : Int := (a.nanosSince b).tdiv 1000000

/-- Whole seconds from `b` to `a`, truncated toward zero. -/
def secondsSince (a b : Stamp) : Int := (a.nanosSince b).tdiv billion

end TemplateFormula.Calendar.Stamp
