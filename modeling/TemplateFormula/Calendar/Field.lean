import TemplateFormula.Text.Search

/-!
# Date patterns

A pattern is a row of fields and literal characters. Where several field names fit, the first in
the table wins, so the longer ones come first. Brackets quote their contents.
-/

namespace TemplateFormula.Calendar

inductive Field where
  | weekdayDateTime
  | timeWithSeconds
  | dateTime
  | longDate
  | shortTime
  | shortDate
  | year
  | yearOfCentury
  | monthName
  | monthAbbreviation
  | monthTwoDigits
  | month
  | dayOrdinal
  | dayTwoDigits
  | day
  | weekdayName
  | weekdayAbbreviation
  | weekdayNumber
  | hourTwoDigits
  | hour
  | hour12TwoDigits
  | hour12
  | minuteTwoDigits
  | minute
  | secondTwoDigits
  | second
  | milli
  | meridiemCapitals
  | meridiem
  | epochSeconds
  | epochMillis
  | offsetCompact
  | offset
  | quarter
deriving Repr, DecidableEq

def Field.table : List (List Char × Field) :=
  [(['L', 'L', 'L', 'L'], .weekdayDateTime), (['L', 'T', 'S'], .timeWithSeconds),
   (['L', 'L', 'L'], .dateTime), (['L', 'L'], .longDate), (['L', 'T'], .shortTime),
   (['L'], .shortDate), (['Y', 'Y', 'Y', 'Y'], .year), (['Y', 'Y'], .yearOfCentury),
   (['M', 'M', 'M', 'M'], .monthName), (['M', 'M', 'M'], .monthAbbreviation),
   (['M', 'M'], .monthTwoDigits), (['M'], .month), (['D', 'o'], .dayOrdinal),
   (['D', 'D'], .dayTwoDigits), (['D'], .day), (['d', 'd', 'd', 'd'], .weekdayName),
   (['d', 'd', 'd'], .weekdayAbbreviation), (['d'], .weekdayNumber),
   (['H', 'H'], .hourTwoDigits), (['H'], .hour), (['h', 'h'], .hour12TwoDigits),
   (['h'], .hour12), (['m', 'm'], .minuteTwoDigits), (['m'], .minute),
   (['s', 's'], .secondTwoDigits), (['s'], .second), (['S', 'S', 'S'], .milli),
   (['A'], .meridiemCapitals), (['a'], .meridiem), (['X'], .epochSeconds),
   (['x'], .epochMillis), (['Z', 'Z'], .offsetCompact), (['Z'], .offset), (['Q'], .quarter)]

inductive Piece where
  | literal (c : Char)
  | field (f : Field)
deriving Repr, DecidableEq

/-- The field whose name stands at the front, and the text behind the name. -/
def takeField? (cs : List Char) : Option (Field × List Char) :=
  (Field.table.find? fun entry => entry.1.isPrefixOf cs).map fun entry =>
    (entry.2, cs.drop entry.1.length)

def scanPieces : Nat → List Char → List Piece
  | 0, _ | _ + 1, [] => []
  | n + 1, c :: cs =>
    if c = '[' then
      (cs.takeWhile (· != ']')).map .literal ++ scanPieces n ((cs.dropWhile (· != ']')).drop 1)
    else
      match takeField? (c :: cs) with
      | some (f, rest) => .field f :: scanPieces n rest
      | none => .literal c :: scanPieces n cs

/-- The pieces of a pattern. Every step uses up a character, so the length bounds their number. -/
def pieces (pattern : List Char) : List Piece := scanPieces pattern.length pattern

end TemplateFormula.Calendar
