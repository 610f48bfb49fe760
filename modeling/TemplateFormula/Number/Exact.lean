/-!
# The exact value of a double

A finite double is a sign, a natural mantissa and a power of two. Everything that must round
exactly (text, whole parts, remainders) is computed on this triple in natural arithmetic.
-/

namespace TemplateFormula.Number

def twoPow (n : Nat) : Nat := Nat.pow 2 n

def fivePow (n : Nat) : Nat := Nat.pow 5 n

def tenPow (n : Nat) : Nat := Nat.pow 10 n

theorem twoPow_pos (n : Nat) : 0 < twoPow n := Nat.pow_pos (by decide)

theorem tenPow_pos (n : Nat) : 0 < tenPow n := Nat.pow_pos (by decide)

def infinity : Float := 1.0 / 0.0

def nan : Float := 0.0 / 0.0

def signed (negative : Bool) (x : Float) : Float := if negative then -x else x

/-- `±mantissa * 2 ^ exponent`; the sign is kept apart so that a negative zero has one. -/
structure Exact where
  negative : Bool
  mantissa : Nat
  exponent : Int
deriving Repr, DecidableEq

/-- The value of the double with these bits, `none` for an infinity or NaN. -/
def Exact.ofBits? (bits : Nat) : Option Exact :=
  let field : Nat := bits / twoPow 52 % 2048
  let fraction : Nat := bits % twoPow 52
  let negative := bits / twoPow 63 % 2 == 1
  if field = 2047 then none
  else if field = 0 then some ⟨negative, fraction, -1074⟩
  else some ⟨negative, fraction + twoPow 52, field - 1075⟩

def finite? (x : Float) : Option Exact := Exact.ofBits? x.toBits.toNat

/-- A positive fraction in natural numbers. -/
structure Ratio where
  num : Nat
  den : Nat
deriving Repr, DecidableEq

namespace Exact

/-- The magnitude as a fraction whose denominator is a power of two. -/
def ratio (a : Exact) : Ratio :=
  if 0 ≤ a.exponent then ⟨a.mantissa * twoPow a.exponent.toNat, 1⟩
  else ⟨a.mantissa, twoPow (-a.exponent).toNat⟩

theorem ratio_den_pos (a : Exact) : 0 < a.ratio.den := by
  unfold ratio
  split
  · exact Nat.one_pos
  · exact twoPow_pos _

/-- The double with this value, when there is one: `m / 2 ^ k` is the decimal
`m * 5 ^ k / 10 ^ k`. -/
def toFloat (a : Exact) : Float :=
  signed a.negative <|
    if 0 ≤ a.exponent then Float.ofNat (a.mantissa * twoPow a.exponent.toNat)
    else
      let k := (-a.exponent).toNat
      Float.ofScientific (a.mantissa * fivePow k) true k

end Exact

end TemplateFormula.Number
