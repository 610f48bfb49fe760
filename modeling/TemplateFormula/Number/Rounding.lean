import TemplateFormula.Number.Exact

/-!
# Rounding

One rounding of a fraction to a natural number, with the rule for what lies between two of them,
and the whole parts of doubles built from it. A double that is not finite has no fraction to round
and is returned as it is; a result of zero keeps the sign of its argument.
-/

namespace TemplateFormula.Number

/-- How a magnitude between two whole numbers is rounded. -/
inductive Rule where
  | down
  | up
  | halfUp
  | halfDown
  | halfEven
deriving Repr, DecidableEq

def Rule.roundsUp (rule : Rule) (whole rest den : Nat) : Bool :=
  match rule with
  | .down => false
  | .up => 0 < rest
  | .halfUp => den ≤ 2 * rest
  | .halfDown => den < 2 * rest
  | .halfEven => den < 2 * rest || (den == 2 * rest && whole % 2 == 1)

def Ratio.round (rule : Rule) (r : Ratio) : Nat :=
  r.num / r.den + if rule.roundsUp (r.num / r.den) (r.num % r.den) r.den then 1 else 0

theorem Ratio.round_down (r : Ratio) : r.round .down = r.num / r.den := by
  simp [Ratio.round, Rule.roundsUp]

/-- The rounding that the magnitude of a number of this sign undergoes. -/
inductive Direction where
  | floor
  | ceil
  | towardZero
  | halfAway
  | halfCeil
deriving Repr, DecidableEq

def Direction.rule (d : Direction) (negative : Bool) : Rule :=
  match d, negative with
  | .floor, false | .ceil, true | .towardZero, _ => .down
  | .floor, true | .ceil, false => .up
  | .halfAway, _ | .halfCeil, false => .halfUp
  | .halfCeil, true => .halfDown

/-- The whole number next to `x` in this direction, `none` if `x` is not finite. -/
def integer? (d : Direction) (x : Float) : Option Int :=
  (finite? x).map fun a =>
    let n := a.ratio.round (d.rule a.negative)
    if a.negative then -(n : Int) else n

def toWhole (d : Direction) (x : Float) : Float :=
  match finite? x with
  | none => x
  | some a => signed a.negative (Float.ofNat (a.ratio.round (d.rule a.negative)))

def floor : Float → Float := toWhole .floor

def ceil : Float → Float := toWhole .ceil

def trunc : Float → Float := toWhole .towardZero

/-- Halves away from zero. -/
def roundAway : Float → Float := toWhole .halfAway

/-- Halves toward positive infinity. -/
def round (x : Float) : Float := if x.isFinite then floor (x + 0.5) else x

def isWhole (x : Float) : Bool :=
  match finite? x with
  | none => false
  | some a => a.ratio.num % a.ratio.den == 0

/-- The whole part as an integer between two bounds; NaN counts as zero. -/
def clampInt (lo hi : Int) (x : Float) : Int :=
  match integer? .towardZero x with
  | some n => max lo (min hi n)
  | none => if x.isNaN then 0 else if x < 0 then lo else hi

def minInt64 : Int := -9223372036854775808

def maxInt64 : Int := 9223372036854775807

def toInt64 : Float → Int := clampInt minInt64 maxInt64

/-- An integer that fits 64 bits. -/
def int64? (n : Int) : Option Int := if minInt64 ≤ n ∧ n ≤ maxInt64 then some n else none

/-- The whole part, if its magnitude is below `2 ^ 63`. -/
def whole64? (x : Float) : Option Int :=
  (integer? .towardZero x).filter fun n => n.natAbs < twoPow 63

/-- The remainder of division toward zero, with the sign of the dividend. Both operands are scaled
to their common power of two, where the remainder is one of natural numbers and exact. -/
def remainder (x y : Float) : Float :=
  match finite? x, finite? y with
  | some a, some b =>
    if b.mantissa = 0 then nan
    else
      let e := min a.exponent b.exponent
      let m := a.mantissa * twoPow (a.exponent - e).toNat
      let n := b.mantissa * twoPow (b.exponent - e).toNat
      Exact.toFloat ⟨a.negative, m % n, e⟩
  | some _, none => if y.isNaN then nan else x
  | none, _ => nan

/-- The residue modulo `2 ^ 32` of the whole part; what is not finite counts as zero. -/
def toWord32 (x : Float) : UInt32 :=
  match integer? .towardZero x with
  | some n => (BitVec.ofInt 32 n).toNat.toUInt32
  | none => 0

/-- `toWord32` read as a signed word. -/
def toInt32 (x : Float) : Int := (toWord32 x).toBitVec.toInt

end TemplateFormula.Number
