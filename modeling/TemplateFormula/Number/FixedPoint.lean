import TemplateFormula.Number.Layout

/-!
# Decimal fixed point

Rounding at a decimal place. A double becomes a decimal with at most twenty-eight places and a
coefficient of at most fifty-three bits, is rounded there exactly, and becomes a double again.
-/

namespace TemplateFormula.Number

/-- `±coefficient / 10 ^ scale`. -/
structure FixedPoint where
  negative : Bool
  coefficient : Nat
  scale : Nat
deriving Repr, DecidableEq

namespace FixedPoint

/-- Drops the last place, a half going up. -/
def dropPlace (c : Nat) : Nat := c / 10 + if 5 ≤ c % 10 then 1 else 0

/-- Drops places, one after another, until there are at most `places`; a last digit is not rounded
but lost. -/
def limitPlaces (places c : Nat) : Nat → Nat × Nat
  | 0 => (c, 0)
  | s + 1 =>
    if places ≤ s then if c < 10 then (0, 0) else limitPlaces places (dropPlace c) s
    else (c, s + 1)

/-- Drops places until the coefficient fits fifty-three bits. -/
def limitBits (c : Nat) : Nat → Nat × Nat
  | 0 => (c, 0)
  | s + 1 => if twoPow 53 ≤ c then limitBits (dropPlace c) s else (c, s + 1)

def dropZeros (c : Nat) : Nat → Nat × Nat
  | 0 => (c, 0)
  | s + 1 => if c % 10 = 0 then dropZeros (c / 10) s else (c, s + 1)

def ofExact? (a : Exact) : Option FixedPoint :=
  let start : Nat × Nat :=
    if 0 ≤ a.exponent then (a.mantissa * twoPow a.exponent.toNat, 0)
    else
      let k := (-a.exponent).toNat
      (a.mantissa * fivePow k, k)
  if twoPow 96 * tenPow start.2 ≤ start.1 then none
  else
    let exact := dropZeros start.1 start.2
    let (c, s) := limitPlaces 28 exact.1 exact.2
    let (c, s) := limitBits c s
    let (c, s) := dropZeros c s
    some ⟨a.negative, c, s⟩

/-- Defined below a magnitude of `2 ^ 96`. -/
def ofFloat? (x : Float) : Option FixedPoint := (finite? x).bind ofExact?

/-- The whole and the fractional part are added as doubles, and the sum is brought back to the
scale by rounding it there. Zero has no sign. -/
def toFloat (d : FixedPoint) : Float :=
  let unit := tenPow d.scale
  let whole := Float.ofNat (d.coefficient / unit)
  let fraction := Float.ofNat (d.coefficient % unit) / Float.ofNat unit
  signed (d.negative && d.coefficient != 0) <|
    if d.scale = 0 ∨ d.coefficient % unit = 0 then whole
    else roundAway ((whole + fraction) * Float.ofNat unit) / Float.ofNat unit

def roundPlaces (d : FixedPoint) (places : Nat) (rule : Rule) : FixedPoint :=
  if d.scale ≤ places then d
  else { d with
    coefficient := Ratio.round rule ⟨d.coefficient, tenPow (d.scale - places)⟩
    scale := places }

/-- Rounds to a number of significant digits, a half to even. -/
def roundDigits (d : FixedPoint) (digits : Nat) : FixedPoint :=
  let excess := (natChars d.coefficient).length - digits
  if excess ≤ d.scale then d.roundPlaces (d.scale - excess) .halfEven
  else
    let zeros := excess - d.scale
    { d with
      coefficient := Ratio.round .halfEven ⟨d.coefficient, tenPow excess⟩ * tenPow zeros
      scale := 0 }

end FixedPoint

/-- Twelve significant digits, which hides the noise of binary fractions. -/
def strip (x : Float) : Float :=
  if isWhole x then x
  else
    match FixedPoint.ofFloat? x with
    | some d => (d.roundDigits 12).toFloat
    | none => x

/-- Rounding to a number of places after the point, in decimal; `none` where no decimal exists. -/
def roundDecimal? (d : Direction) (places : Nat) (x : Float) : Option Float :=
  (FixedPoint.ofFloat? x).map fun a => (a.roundPlaces places (d.rule (x < 0))).toFloat

end TemplateFormula.Number
