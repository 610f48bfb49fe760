import TemplateFormula.Filter.Collection

/-!
# Filters that test values
-/

namespace TemplateFormula.Filter

open Argument

/-- The branch that a test chooses among the arguments. A failed test without a branch of its own
passes the input on. -/
def chooseBranch (ctx : FilterContext) (input : Value) (test : Bool) (args : List Value)
    (offset : Nat) : Value :=
  let otherwise := orUndefined args (offset + 1)
  if test then ctx.resolve (orUndefined args offset)
  else if otherwise.isTruthy then ctx.resolve otherwise
  else input

def isTrue : Filter := .ofTotal fun ctx input args =>
  chooseBranch ctx input input.isTruthy args 0

def isFalse : Filter := .ofTotal fun ctx input args =>
  chooseBranch ctx input (!input.isTruthy) args 0

/-- Occurrence of the first argument in the text of the input, in any letter case. A missing
pattern fails the test either way. -/
def matching (negate : Bool) : Filter := .ofTotal fun ctx input args =>
  let pattern := ctx.resolve (orUndefined args 0)
  let found := Text.containsFolded (pattern.chars ctx.zone) (input.chars ctx.zone)
  chooseBranch ctx input (pattern.isTruthy && found != negate) args 1

/-- The value that an argument stands for in a comparison: digits are a number. -/
def expected (ctx : FilterContext) : Option Value → Value
  | some (.text s) =>
    if !s.isEmpty && s.toList.all Char.isDigit then .number (Number.leadingInt s.toList)
    else ctx.resolve (.text s)
  | some v => ctx.resolve v
  | none => .undefined

def equals (negate : Bool) : Filter := .ofTotal fun ctx input args =>
  chooseBranch ctx input (input.strictEq (expected ctx args.head?) != negate) args 1

/-- A list as it is or as text, with or without brackets. -/
def asList (v : Value) : List Value :=
  match v with
  | .array items => items
  | .text s =>
    let cs := s.toList
    let inner :=
      match cs, cs.getLast? with
      | '[' :: r, some ']' => if r.isEmpty then cs else r.dropLast
      | _, _ => cs
    (Text.commaList inner).map Value.ofChars
  | v => if v.isTruthy then [v] else []

/-- The test that a directive stands for, `none` if it lets everything pass. -/
def directiveTest? (ctx : FilterContext) (directive : List Char) (operand : Option Value) :
    Option (Value → Bool) :=
  let resolved := operand.map ctx.resolve
  let search (pattern : Option Value) : Option (Value → Bool) :=
    (pattern.filter Value.isTruthy).map fun p v =>
      Text.containsFolded (p.chars ctx.zone) (v.chars ctx.zone)
  let members := asList (resolved.getD .undefined)
  match String.ofList directive with
  | "isTrue" => some Value.isTruthy
  | "isFalse" => some (!·.isTruthy)
  | "isExists" => some (!·.isUndefined)
  | "equals" | "equal" => some ((resolved.getD (.text "")).looseEq ctx.zone)
  | "isIn" => some fun v => members.isEmpty || members.any (·.strictEq v)
  | "notIn" => some fun v => !members.any (·.strictEq v)
  | "match" => search resolved
  | _ => search (some (ctx.resolve (.ofChars directive)))

/-- The keys under which an item is tested: those of the argument, or all under a wildcard. -/
def itemKeys (keys : List Char) (item : Value) : List (List Char) :=
  if keys.contains '*' then
    match item with
    | .object ms => ms.map (·.1.toList)
    | _ => []
  else Text.commaList keys

/-- Keeps the items in which the value under one of the keys passes a test. -/
def filter : Filter := .ofTotal fun ctx input args =>
  let filled (i : Nat) : Option Value := (given? args i).filter Value.isTruthy
  match input, filled 0, filled 1 with
  | .array items, some keys, some directive =>
    match directiveTest? ctx (directive.chars ctx.zone) (filled 2) with
    | some test =>
      let keys := keys.chars ctx.zone
      .array (items.filter fun v =>
        (itemKeys keys v).any fun key => test (Path.resolve key v))
    | none => input
  | input, _, _ => input

end TemplateFormula.Filter
