import TemplateFormula.Builtin.Basic
import TemplateFormula.Number.FixedPoint

/-!
# Mathematical functions
-/

namespace TemplateFormula.Builtin

open Number (Direction)

def numbers (zone : Calendar.Zone) (args : List Value) : List Float :=
  args.map (Value.arithmetic zone)

/-- The number that comes before all others, NaN if one of them is. -/
def extreme (start : Float) (before : Float → Float → Bool) (xs : List Float) : Float :=
  if xs.any Float.isNaN then Number.nan
  else xs.foldl (fun best x => if before x best then x else best) start

def max : Builtin := ofTotal fun zone args =>
  .number (extreme (-Number.infinity) (fun x best => best < x) (numbers zone args))

def min : Builtin := ofTotal fun zone args =>
  .number (extreme Number.infinity (fun x best => x < best) (numbers zone args))

/-- The terms of a sum: arrays contribute their members. -/
def terms (args : List Value) : List Value :=
  args.flatMap fun
    | .array items => items
    | v => [v]

/-- A total that is no number starts again from zero. -/
def addTerm (total x : Float) : Float := if (total + x).isNaN then 0 else total + x

def total (zone : Calendar.Zone) (args : List Value) : Float :=
  (numbers zone (terms args)).foldl addTerm 0

def sum : Builtin := ofTotal fun zone args => .number (total zone args)

/-- The total over the number of arguments, however many terms an array adds to it. -/
def average : Builtin := ofTotal fun zone args =>
  .number (total zone args / Float.ofNat args.length)

def mod : Builtin := ofTotal fun zone args =>
  .number (Number.remainder (Argument.number zone args 0) (Argument.number zone args 1))

def pi : Builtin := ofTotal fun _ _ => .number 3.141592653589793

/-- A whole number in the direction, halves going up where it rounds to the nearest. -/
def toWhole (d : Direction) (x : Float) : Float :=
  match d with
  | .halfCeil => Number.round x
  | d => Number.toWhole d x

def mostPlaces : Int := 28

/-- Rounding at a place after the point, or before it for negative places. Places after the point
are rounded in decimal, others and very large numbers by scaling with a power of ten. -/
def roundAt (d : Direction) (x places : Float) : Float :=
  if places == 0 || !places.isFinite then toWhole d x
  else
    let decimal :=
      if 0 < places then Number.roundDecimal? d (Number.clampInt 0 mostPlaces places).toNat x
      else none
    match decimal with
    | some y => y
    | none =>
      let scale := Float.pow 10 places
      toWhole d (x * scale) / scale

def rounding (d : Direction) : Builtin := ofTotal fun zone args =>
  .number (roundAt d (Argument.number zone args 0) (Number.round (Argument.number zone args 1)))

end TemplateFormula.Builtin
