import TemplateFormula.Builtin.Basic
import TemplateFormula.Calendar.Period

/-!
# Functions on dates
-/

namespace TemplateFormula.Builtin

open Argument (date?)
open Calendar (Stamp)

def dateOrNull : Option Stamp → Value
  | some s => .date s
  | none => .null

/-- The unit that an argument names, a day without one. -/
def unitAt? (zone : Calendar.Zone) (args : List Value) (i : Nat) : Option Calendar.Unit :=
  match args[i]? with
  | none | some .undefined | some .null | some (.text "") => some .day
  | some v => Calendar.Unit.parse? (v.display zone)

/-- Years below a hundred are of the twentieth century. -/
def fullYear (x : Float) : Float := if 0 ≤ x && x < 100 then x + 1900 else x

/-- A date from its parts with months from zero, or from one value. -/
def date : Builtin := ofTotal fun zone args =>
  let part (i : Nat) (default : Float) : Float :=
    ((args[i]?).map (Value.toNumber zone)).getD default
  if args.length < 2 then dateOrNull (date? zone args 0)
  else
    dateOrNull (Calendar.ofFields? (fullYear (part 0 Number.nan)) (part 1 0) (part 2 1)
      (part 3 0) (part 4 0) (part 5 0))

/-- Seconds since the epoch, or milliseconds on demand. -/
def timestamp : Builtin := ofTotal fun zone args =>
  match date? zone args 0 with
  | some s =>
    let millis := zone.epochMillis s
    if Argument.chars zone args 1 = ['x'] then .ofInt millis else .ofInt (millis / 1000)
  | none => .number Number.nan

def today : Builtin := fun clock _ => .ok (.date (clock.now.startOf .day))

def now : Builtin := fun clock _ => .ok (.date clock.now)

/-- An argument that is a text and not empty. -/
def pattern? (args : List Value) (i : Nat) : Option String :=
  ((args[i]?).bind Value.asText?).filter (!·.isEmpty)

def dateToText : Builtin := ofTotal fun zone args =>
  match date? zone args 0 with
  | some s => .text (Calendar.write zone s ((pattern? args 1).getD "YYYY-MM-DD HH:mm:ss"))
  | none => .text "Invalid date"

/-- An end of the period around a date. An unknown unit leaves the date as it is. -/
def boundary (f : Stamp → Calendar.Unit → Stamp) : Builtin := ofTotal fun zone args =>
  dateOrNull ((date? zone args 0).map fun s => ((unitAt? zone args 1).map (f s)).getD s)

def part (f : Stamp → Int) : Builtin := ofTotal fun zone args =>
  match date? zone args 0 with
  | some s => .ofInt (f s)
  | none => .null

def difference (unit : Calendar.Unit) : Builtin := ofTotal fun zone args =>
  match date? zone args 0, date? zone args 1 with
  | some stop, some start => .ofInt (stop.difference start unit)
  | _, _ => .number Number.nan

/-- Moves a date. An unknown unit leaves the date as it is. -/
def dateModify : Builtin := ofTotal fun zone args =>
  let move (s : Stamp) : Option Stamp :=
    match (args[2]?).bind fun v => Calendar.Unit.parse? (v.display zone) with
    | some unit => s.add? (Argument.number zone args 1) unit
    | none => some s
  dateOrNull ((date? zone args 0).bind move)

def textToDate : Builtin := ofTotal fun zone args =>
  match args.head? with
  | some (.text s) =>
    dateOrNull (Calendar.read? zone s.toList ((pattern? args 1).getD "").toList)
  | some v => dateOrNull (v.toDate? zone)
  | none => .null

/-- A comparison of two dates by period, false where a date or the unit is unknown. -/
def comparing (test : Stamp → Stamp → Calendar.Unit → Bool) : Builtin := ofTotal fun zone args =>
  match date? zone args 0, date? zone args 1, unitAt? zone args 2 with
  | some a, some b, some unit => .boolean (test a b unit)
  | _, _, _ => .boolean false

end TemplateFormula.Builtin
