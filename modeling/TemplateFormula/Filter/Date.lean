import TemplateFormula.Filter.Basic
import TemplateFormula.Calendar.Period
import TemplateFormula.Calendar.Relative

/-!
# Filters on dates
-/

namespace TemplateFormula.Filter

open Argument Calendar

/-- A date as filters take one: a number counts seconds under the pattern `X` and milliseconds
otherwise, and text is read by the pattern or else in a usual form. -/
def readDate? (zone : Zone) (input : Value) (pattern : List Char) : Option Stamp :=
  match input with
  | .date s => some s
  | .number x =>
    zone.ofEpochMillis? (Number.toInt64 (if pattern = ['X'] then x * 1000 else x))
  | .text s => read? zone s.toList pattern <|> readUsual? zone s.toList
  | _ => none

def invalidDate : String := "Invalid date"

def dateOrUndefined : Option Stamp → Value
  | some s => .date s
  | none => .undefined

def now : Filter := .ofTotal fun ctx _ _ => .date ctx.clock.now

def toDate : Filter := .ofTotal fun ctx input args =>
  dateOrUndefined (readDate? ctx.zone input (givenChars ctx.zone args 0 ""))

/-- The moment that a description is relative to. Time has passed since the clock was read for any
other purpose. -/
def momentAfter (now : Stamp) : Stamp := (Stamp.carry? now.clockSeconds now.nano 0 1).getD now

def fromNow : Filter := .ofTotal fun ctx input args =>
  match readDate? ctx.zone input (givenChars ctx.zone args 0 "") with
  | some s => .text (relativeText s (momentAfter ctx.clock.now))
  | none => .text invalidDate

def unknownUnit (name : List Char) : EvalError :=
  .typeError ("unknown date unit `" ++ String.ofList name ++ "`")

def unitNamed (name : List Char) : Except EvalError Calendar.Unit :=
  match Unit.parse? (String.ofList name) with
  | some unit => .ok unit
  | none => .error (unknownUnit name)

/-- The unit that bounds a period, a day without an argument. -/
def boundaryUnit (zone : Zone) (args : List Value) : Except EvalError Calendar.Unit :=
  match (given? args 1).filter Value.isTruthy with
  | some v => unitNamed (v.chars zone)
  | none => .ok .day

def shiftAmount (zone : Zone) (args : List Value) : Float :=
  match (given? args 1).map fun v => Number.leadingInt (v.chars zone) with
  | some x => if x.isNaN then 0 else x
  | none => 0

/-- Moves a date to the start or end of a period or by an amount. What is no date starts from
now. -/
def dateModify : Filter := .ofFunction fun ctx input args => do
  let base :=
    match input with
    | .date s => s
    | _ => ctx.clock.now
  let modifier := String.ofList (filledChars ctx.zone args 0 "add")
  if modifier = "startOf" then
    return .date (base.startOf (← boundaryUnit ctx.zone args))
  else if modifier = "endOf" then
    return .date (base.endOf (← boundaryUnit ctx.zone args))
  else if modifier = "add" ∨ modifier = "subtract" then
    let amount := shiftAmount ctx.zone args
    let unit ← unitNamed (filledChars ctx.zone args 2 "days")
    return dateOrUndefined (base.add? (if modifier = "add" then amount else -amount) unit)
  else throw (.typeError ("unknown date modifier `" ++ modifier ++ "`"))

def writeOrInvalid (zone : Zone) (s : Option Stamp) (pattern : List Char) : Value :=
  match s with
  | some s => .text (write zone s (String.ofList pattern))
  | none => .text invalidDate

def date : Filter := .ofTotal fun ctx input args =>
  writeOrInvalid ctx.zone (readDate? ctx.zone input (filledChars ctx.zone args 1 "X"))
    (filledChars ctx.zone args 0 "LLL")

def textToDate : Filter := .ofTotal fun ctx input args =>
  if input.isTruthy then
    writeOrInvalid ctx.zone (readDate? ctx.zone input (filledChars ctx.zone args 0 "X"))
      (filledChars ctx.zone args 1 "X")
  else .text ""

end TemplateFormula.Filter
