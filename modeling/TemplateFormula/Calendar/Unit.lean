import TemplateFormula.Text.Case

/-!
# Calendar units
-/

namespace TemplateFormula.Calendar

inductive Unit where
  | year
  | quarter
  | month
  | week
  | day
  | hour
  | minute
  | second
  | millisecond
deriving Repr, DecidableEq

namespace Unit

/-- Short names, in which the letter case tells a month from a minute. -/
def ofSymbol? : String → Option Unit
  | "y" => some year
  | "Q" => some quarter
  | "M" => some month
  | "w" => some week
  | "d" => some day
  | "h" => some hour
  | "m" => some minute
  | "s" => some second
  | "ms" => some millisecond
  | _ => none

def ofName? : String → Option Unit
  | "year" => some year
  | "quarter" => some quarter
  | "month" => some month
  | "week" => some week
  | "isoweek" => some week
  | "day" => some day
  | "date" => some day
  | "hour" => some hour
  | "minute" => some minute
  | "second" => some second
  | "millisecond" => some millisecond
  | _ => none

def singular (cs : List Char) : List Char :=
  match cs.reverse with
  | 's' :: r => r.reverse
  | _ => cs

/-- A symbol, or a name in any letter case, in the singular or the plural. -/
def parse? (name : String) : Option Unit :=
  ofSymbol? name <|>
    ofName? (String.ofList (singular (Text.lower (Text.trim name.toList))))

/-- The length of the units that have one. -/
def millis? : Unit → Option Int
  | week => some 604800000
  | day => some 86400000
  | hour => some 3600000
  | minute => some 60000
  | second => some 1000
  | millisecond => some 1
  | year | quarter | month => none

/-- The number of months in the units that are made of months. -/
def months? : Unit → Option Int
  | year => some 12
  | quarter => some 3
  | month => some 1
  | week | day | hour | minute | second | millisecond => none

def name : Unit → String
  | year => "year"
  | quarter => "quarter"
  | month => "month"
  | week => "week"
  | day => "day"
  | hour => "hour"
  | minute => "minute"
  | second => "second"
  | millisecond => "millisecond"

end Unit

end TemplateFormula.Calendar
