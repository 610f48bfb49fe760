import TemplateFormula.Builtin.Date
import TemplateFormula.Builtin.Math
import TemplateFormula.Builtin.Money
import TemplateFormula.Builtin.Text

/-!
# The built-in functions by name

Names are case-sensitive.
-/

namespace TemplateFormula.Builtin

/-- The number of members of an array; any other value counts as one if it is truthy. -/
def count : Builtin := ofTotal fun _ args =>
  match args.head? with
  | some (.array items) => .ofNat items.length
  | some v => .ofNat (if v.isTruthy then 1 else 0)
  | none => .ofNat 0

def table : List (String × Builtin) :=
  [("ABS", ofNumber Float.abs), ("MAX", max), ("MIN", min), ("SUM", sum),
   ("INT", ofNumber Number.floor), ("MOD", mod), ("PI", pi), ("ROUND", rounding .halfCeil),
   ("FLOOR", rounding .floor), ("CEIL", rounding .ceil), ("SQRT", ofNumber Float.sqrt),
   ("AVG", average), ("UPPERMONEY", upperMoney), ("LEFT", left), ("RIGHT", right), ("LEN", len),
   ("LENGTH", length), ("ISEMPTY", isEmpty), ("CONCATENATE", concatenate), ("CHAR", char),
   ("LOWER", ofText Text.lower), ("UPPER", ofText Text.upper), ("SPLIT", split),
   ("TRIM", ofText Text.trim), ("STARTSWITH", testing List.isPrefixOf),
   ("CONTAINS", testing Text.contains), ("REPLACE", replace), ("SEARCH", search), ("MID", mid),
   ("DATE", date), ("TIMESTAMP", timestamp), ("TODAY", today), ("NOW", now),
   ("DATETOSTR", dateToText), ("STARTOF", boundary Calendar.Stamp.startOf),
   ("ENDOF", boundary Calendar.Stamp.endOf), ("YEAR", part (·.date.year)),
   ("MONTH", part (·.date.month)), ("DAY", part (·.date.day)), ("HOUR", part (·.hour)),
   ("MINUTE", part (·.minute)), ("SECOND", part (·.secondOfMinute)),
   ("YEARS", difference .year), ("MINUTES", difference .minute), ("DAYS", difference .day),
   ("HOURS", difference .hour), ("DATEMODIFY", dateModify), ("STRTODATE", textToDate),
   ("ISBEFORE", comparing Calendar.Stamp.isBefore),
   ("ISAFTER", comparing Calendar.Stamp.isAfter),
   ("ISSAMEORBEFORE", comparing fun a b unit => a.isSame b unit || a.isBefore b unit),
   ("ISSAMEORAFTER", comparing fun a b unit => a.isSame b unit || a.isAfter b unit),
   ("COUNT", count)]

def find? (name : String) : Option Builtin := table.lookup name

end TemplateFormula.Builtin
