/-!
# Days and calendar dates

Days are counted from the first of January 1970 in the proleptic Gregorian calendar. Years run
from March inside the conversion, so that the leap day is the last day of its year.
-/

namespace TemplateFormula.Calendar

structure Civil where
  year : Int
  month : Int
  day : Int
deriving Repr, DecidableEq

/-- The day of a date; days past the end of the month run on. -/
def dayNumber (year month day : Int) : Int :=
  let y := if month ≤ 2 then year - 1 else year
  let era := y / 400
  let yearOfEra := y % 400
  let dayOfYear := (153 * (if 2 < month then month - 3 else month + 9) + 2) / 5 + day - 1
  era * 146097 + (yearOfEra * 365 + yearOfEra / 4 - yearOfEra / 100 + dayOfYear) - 719468

def civil (day : Int) : Civil :=
  let z := day + 719468
  let era := z / 146097
  let dayOfEra := z % 146097
  let yearOfEra :=
    (dayOfEra - dayOfEra / 1460 + dayOfEra / 36524 - dayOfEra / 146096) / 365
  let dayOfYear := dayOfEra - (365 * yearOfEra + yearOfEra / 4 - yearOfEra / 100)
  let m := (5 * dayOfYear + 2) / 153
  let month := if m < 10 then m + 3 else m - 9
  { year := yearOfEra + era * 400 + if month ≤ 2 then 1 else 0
    month := month
    day := dayOfYear - (153 * m + 2) / 5 + 1 }

def isLeapYear (year : Int) : Bool := year % 4 == 0 && (year % 100 != 0 || year % 400 == 0)

def monthLength (year month : Int) : Int :=
  if month = 2 then if isLeapYear year then 29 else 28
  else if month = 4 ∨ month = 6 ∨ month = 9 ∨ month = 11 then 30
  else 31

/-- Days since Sunday. -/
def weekday (day : Int) : Int := (day + 4) % 7

def firstDay : Int := -96465292

def lastDay : Int := 95026236

theorem firstDay_eq : firstDay = dayNumber (-262143) 1 1 := by decide

theorem lastDay_eq : lastDay = dayNumber 262142 12 31 := by decide

end TemplateFormula.Calendar
