import TemplateFormula.Calendar.Span

/-!
# The local clock

Local time is a fixed number of minutes east of universal time. Dates are local wall-clock dates;
instants are milliseconds since the start of 1970 in universal time.
-/

namespace TemplateFormula.Calendar

structure Zone where
  minutesEast : Int
deriving Repr, DecidableEq

/-- The local time zone and the present moment in it. -/
structure Clock where
  zone : Zone
  now : Stamp
deriving Repr

namespace Zone

variable (z : Zone)

def secondsEast : Int := z.minutesEast * 60

/-- The offset in force at a date. At the very edge of the supported years the universal time of a
date may not exist, and the date then stands for itself. -/
def offsetAt (s : Stamp) : Int :=
  if (s.shiftClock? (-z.secondsEast)).isSome then z.secondsEast else 0

def epochMillis (s : Stamp) : Int := (s.clockSeconds - z.offsetAt s) * 1000 + s.milli

def ofEpochMillis? (millis : Int) : Option Stamp := do
  let utc ← Stamp.ofClock? (millis / 1000) ((millis % 1000).toNat * 1000000)
  utc.shiftClock? z.secondsEast

end Zone

end TemplateFormula.Calendar
