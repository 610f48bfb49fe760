import TemplateFormula.Filter.Basic
import TemplateFormula.Number.Size

/-!
# Filters on numbers
-/

namespace TemplateFormula.Filter

open Argument

/-- A comma behind every digit that has only digits behind it, in groups of three. -/
def groupDigits : List Char → List Char
  | [] => []
  | c :: cs =>
    if c.isDigit && !cs.isEmpty && cs.length % 3 == 0 && cs.all Char.isDigit then
      c :: ',' :: groupDigits cs
    else c :: groupDigits cs

def number : Filter := .ofTotal fun ctx input _ =>
  let cs := input.chars ctx.zone
  .ofChars (groupDigits (cs.takeWhile (· != '.')) ++ cs.dropWhile (· != '.'))

/-- A number of decimals between zero and twenty. -/
def decimals (zone : Calendar.Zone) (args : List Value) (default : Nat) : Nat :=
  match (given? args 0).map fun v => Number.leadingInt (v.chars zone) with
  | some x => if x.isNaN then default else (Number.clampInt 0 20 x).toNat
  | none => default

/-- Rounded in doubles first, and then written with as many decimals. -/
def roundedChars (scale x : Float) (places : Nat) : List Char :=
  let unit := Float.ofNat (Number.tenPow places)
  Number.fixed places (Number.round (x * scale * unit) / unit)

def orZero (x : Float) : Float := if x.isNaN then 0 else x

def percent : Filter := .ofTotal fun ctx input args =>
  let x := orZero (Number.leadingFloat (input.chars ctx.zone))
  .ofChars (roundedChars 100 x (decimals ctx.zone args 0) ++ ['%'])

def round : Filter := .ofTotal fun ctx input args =>
  let x := input.toNumber ctx.zone
  if x.isNaN then .number 0 else .ofChars (roundedChars 1 x (decimals ctx.zone args 2))

def bytes : Filter := .ofTotal fun ctx input _ =>
  if input.isTruthy then .text (Number.byteSize (Number.leadingFloat (input.chars ctx.zone)))
  else input

/-- Arithmetic with a step that may be named by a path into the data. -/
def step (op : Float → Float → Float) : Filter := .ofTotal fun ctx input args =>
  let amount := ((given? args 0).map fun v => (ctx.resolve v).toNumber ctx.zone).getD 1
  .number (Number.strip (op (orZero (input.toNumber ctx.zone)) amount))

def abs : Filter := .ofTotal fun _ input _ =>
  match input with
  | .number x => .number x.abs
  | v => v

/-- What an item adds to a sum: its number, or that of a field of it. -/
def term (zone : Calendar.Zone) (field : Option (List Char)) (item : Value) : Float :=
  let v :=
    match field with
    | some path => Path.pick path item
    | none => item
  orZero (Number.leadingFloat (v.chars zone))

/-- Sums start from a negative zero, which is the sum of nothing. -/
def sum : Filter := .ofTotal fun ctx input args =>
  match input with
  | .array items =>
    let field := ((given? args 0).map (Value.chars ctx.zone)).filter (!·.isEmpty)
    .number (Number.strip (items.foldl (fun total v => total + term ctx.zone field v) (-0.0)))
  | v => v

def count : Filter := .ofTotal fun _ input _ =>
  match input with
  | .array items => .ofNat items.length
  | .text s => .ofNat s.toList.length
  | _ => .number 0

end TemplateFormula.Filter
