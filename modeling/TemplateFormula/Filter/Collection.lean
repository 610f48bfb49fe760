import TemplateFormula.Filter.Basic
import TemplateFormula.Value.Comparison

/-!
# Filters on collections
-/

namespace TemplateFormula.Filter

open Argument

def join : Filter := .ofTotal fun ctx input args =>
  match input with
  | .array items =>
    .ofChars (Text.join (givenChars ctx.zone args 0 ",") (Value.partChars ctx.zone items))
  | v => v

def split : Filter := .ofTotal fun ctx input args =>
  match input with
  | .text s => .array ((Text.parts (givenChars ctx.zone args 0 ",") s.toList).map Value.ofChars)
  | v => v

/-- How two items are ordered by the value at a path. -/
def sortOrder (zone : Calendar.Zone) (path : List Char) (numerical : Bool) (v w : Value) :
    Ordering :=
  let a := (Path.resolve path v).chars zone
  let b := (Path.resolve path w).chars zone
  if numerical then
    let number (cs : List Char) : Float :=
      let x := Number.leadingFloat cs
      if x.isNaN then 0 else x
    (Value.orderNumbers? (number a) (number b)).getD .eq
  else Text.order a b

/-- Sorts the truthy items and keeps the others behind them. Equal items keep their order. -/
def sortBy : Filter := .ofTotal fun ctx input args =>
  match input with
  | .array items =>
    let path := filledChars ctx.zone args 0 "&"
    let numerical := String.ofList (givenChars ctx.zone args 1 "alpha") == "numerical"
    let descending := String.ofList (givenChars ctx.zone args 2 "asc") == "desc"
    let le (v w : Value) : Bool :=
      let o := sortOrder ctx.zone path numerical v w
      (if descending then o.swap else o) != .gt
    .array ((items.filter Value.isTruthy).mergeSort le ++ items.filter (!·.isTruthy))
  | v => v

/-- Entries of an object, or of an array by index, as objects of a label and a value. -/
def objectToArray : Filter := .ofTotal fun ctx input args =>
  let label := String.ofList (filledChars ctx.zone args 0 "label")
  let value := String.ofList (filledChars ctx.zone args 1 "value")
  let entry (k v : Value) : Value := .object (Members.ofList [(label, v), (value, k)])
  match input with
  | .object ms => .array (ms.map fun m => entry (.text m.1) m.2)
  | .array items => .array (items.mapIdx fun i v => entry (.ofNat i) v)
  | _ => .array []

/-- Keeps the items whose identity has not been seen. -/
def keepNew (identity : Value → Value) : List Value → List Value → List Value
  | _, [] => []
  | seen, v :: vs =>
    let i := identity v
    if seen.any (·.strictEq i) then keepNew identity seen vs
    else v :: keepNew identity (i :: seen) vs

/-- The identity of an item is the item or the value at a path in it. -/
def unique : Filter := .ofTotal fun ctx input args =>
  match input with
  | .array items =>
    match ((given? args 0).map (Value.chars ctx.zone)).filter (!·.isEmpty) with
    | some path => .array (keepNew (Path.resolve path) [] items)
    | none => .array (keepNew id [] items)
  | v => v

def elementAt (zone : Calendar.Zone) (input : Value) (n : Float) : Value :=
  if input.isTruthy then input.member zone (.number n) else input

def first : Filter := .ofTotal fun ctx input _ => elementAt ctx.zone input 0

def nth : Filter := .ofTotal fun ctx input args =>
  elementAt ctx.zone input (((given? args 0).map (Value.toNumber ctx.zone)).getD 0)

def last : Filter := .ofTotal fun ctx input _ =>
  if input.isTruthy then
    let n := (input.memberAt Value.lengthKey).toNumber ctx.zone
    if n.isNaN || n < 1 then .null else input.member ctx.zone (.number (n - 1))
  else input

/-- An object learns its place in the array, unless it has a member of that name. -/
def withIndex (i : Nat) : Value → Value
  | .object ms =>
    .object (if (Members.get? ms "index").isSome then ms else Members.insert "index" (.ofNat i) ms)
  | v => v

def pick : Filter := .ofTotal fun ctx input args =>
  let path := filledChars ctx.zone args 0 "&"
  match input with
  | .array items =>
    if path.all Char.isDigit then Path.pick path input
    else .array (items.mapIdx fun i v => Path.pick path (withIndex i v))
  | v => Path.pick path v

def pickIfExist : Filter := .ofTotal fun ctx input args =>
  let path := filledChars ctx.zone args 0 "&"
  let pickOne (v : Value) : Value :=
    let found := Path.resolve path v
    if found.isTruthy then found else v
  match input with
  | .array items => .array (items.map pickOne)
  | v => pickOne v

def concat : Filter := .ofTotal fun ctx input args =>
  match input with
  | .array items =>
    .array (items ++ args.flatMap fun v =>
      match ctx.resolve v with
      | .array more => more
      | w => [w])
  | v => v

/-- Runs another filter on every item. -/
def mapItems (name : String) (args : List Value) :
    List Value → List Value → FilterProgram
  | done, [] => .done (.array done.reverse)
  | done, v :: vs =>
    .apply name v args fun
      | .ok w => mapItems name args (w :: done) vs
      | .error e => .fail e

def map : Filter := fun ctx input args =>
  let name := String.ofList ((args.head?.map (Value.chars ctx.zone)).getD [])
  .known name fun
    | false => .done input
    | true =>
      match input with
      | .array items => mapItems name args.tail [] items
      | v => .done v

end TemplateFormula.Filter
