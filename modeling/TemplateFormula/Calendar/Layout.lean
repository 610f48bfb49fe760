import TemplateFormula.Calendar.Field
import TemplateFormula.Calendar.Zone
import TemplateFormula.Number.Layout

/-!
# Writing dates

A date written by a pattern, and the ISO form in which a date is shown.
-/

namespace TemplateFormula.Calendar

def monthNames : List String :=
  ["January", "February", "March", "April", "May", "June", "July", "August", "September",
   "October", "November", "December"]

def weekdayNames : List String :=
  ["Sunday", "Monday", "Tuesday", "Wednesday", "Thursday", "Friday", "Saturday"]

def monthName (month : Int) : List Char := (monthNames.getD (month - 1).toNat "").toList

def weekdayName (day : Int) : List Char := (weekdayNames.getD (weekday day).toNat "").toList

/-- A year takes four characters at least, its sign among them. -/
def yearChars (year : Int) : List Char :=
  if year < 0 then '-' :: Number.padded 3 year.natAbs else Number.padded 4 year.toNat

def ordinalEnding (n : Int) : List Char :=
  if 11 ≤ n % 100 ∧ n % 100 ≤ 13 then ['t', 'h']
  else if n % 10 = 1 then ['s', 't']
  else if n % 10 = 2 then ['n', 'd']
  else if n % 10 = 3 then ['r', 'd']
  else ['t', 'h']

def offsetChars (separator : List Char) (seconds : Int) : List Char :=
  let n := seconds.natAbs
  (if seconds < 0 then '-' else '+') ::
    (Number.padded 2 (n / 3600) ++ separator ++ Number.padded 2 (n % 3600 / 60))

namespace Stamp

/-- The hour on a twelve-hour clock face. -/
def hour12 (s : Stamp) : Nat := if s.hour % 12 = 0 then 12 else s.hour % 12

end Stamp

/-- The pattern that a field stands for, of those that stand for one. -/
def Field.expansion? : Field → Option String
  | shortTime => some "h:mm A"
  | timeWithSeconds => some "h:mm:ss A"
  | shortDate => some "MM/DD/YYYY"
  | longDate => some "MMMM D, YYYY"
  | dateTime => some "MMMM D, YYYY h:mm A"
  | weekdayDateTime => some "dddd, MMMM D, YYYY h:mm A"
  | _ => none

/-- A field that stands for itself. -/
def Field.write (zone : Zone) (s : Stamp) : Field → List Char
  | year => yearChars s.date.year
  | yearOfCentury => Number.padded 2 (s.date.year % 100).toNat
  | quarter => Number.intChars ((s.date.month - 1) / 3 + 1)
  | monthName => Calendar.monthName s.date.month
  | monthAbbreviation => (Calendar.monthName s.date.month).take 3
  | monthTwoDigits => Number.padded 2 s.date.month.toNat
  | month => Number.intChars s.date.month
  | dayOrdinal => Number.intChars s.date.day ++ ordinalEnding s.date.day
  | dayTwoDigits => Number.padded 2 s.date.day.toNat
  | day => Number.intChars s.date.day
  | weekdayName => Calendar.weekdayName s.day
  | weekdayAbbreviation => (Calendar.weekdayName s.day).take 3
  | weekdayNumber => Number.intChars (weekday s.day)
  | hourTwoDigits => Number.padded 2 s.hour
  | hour => Number.natChars s.hour
  | hour12TwoDigits => Number.padded 2 s.hour12
  | hour12 => Number.natChars s.hour12
  | minuteTwoDigits => Number.padded 2 s.minute
  | minute => Number.natChars s.minute
  | secondTwoDigits => Number.padded 2 s.secondOfMinute
  | second => Number.natChars s.secondOfMinute
  | milli => Number.padded 3 (s.milli % 1000)
  | meridiemCapitals => if s.hour < 12 then ['A', 'M'] else ['P', 'M']
  | meridiem => if s.hour < 12 then ['a', 'm'] else ['p', 'm']
  | epochSeconds => Number.intChars (zone.epochMillis s / 1000)
  | epochMillis => Number.intChars (zone.epochMillis s)
  | offset => offsetChars [':'] (zone.offsetAt s)
  | offsetCompact => offsetChars [] (zone.offsetAt s)
  | shortTime | timeWithSeconds | shortDate | longDate | dateTime | weekdayDateTime => []

def Piece.write (zone : Zone) (s : Stamp) : Piece → List Char
  | literal c => [c]
  | field f =>
    match f.expansion? with
    | none => f.write zone s
    | some pattern =>
      (pieces pattern.toList).flatMap fun
        | literal c => [c]
        | field g => g.write zone s

/-- The date written by a pattern. -/
def write (zone : Zone) (s : Stamp) (pattern : String) : String :=
  String.ofList ((pieces pattern.toList).flatMap (·.write zone s))

/-- The form in which a date is shown as text. -/
def isoText (zone : Zone) (s : Stamp) : String := write zone s "YYYY-MM-DDTHH:mm:ssZ"

end TemplateFormula.Calendar
