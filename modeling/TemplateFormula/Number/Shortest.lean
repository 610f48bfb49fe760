import TemplateFormula.Number.Rounding

/-!
# Shortest digits

The coarsest decimal grid with a point that reads back as a given double, and the nearest such
point on it. The reals that read back form an interval around the double, closed when its mantissa
is even; a grid meets it exactly when one of the value's two neighbours on the grid lies in it.
-/

namespace TemplateFormula.Number

/-- `coefficient * 10 ^ exponent`. -/
structure Decimal where
  coefficient : Nat
  exponent : Int
deriving Repr, DecidableEq

/-- The value and the two ends of the interval of reals that round to it, over one denominator. -/
structure Interval where
  low : Nat
  value : Nat
  high : Nat
  den : Nat
  closed : Bool
deriving Repr

/-- Below a power of two the doubles are twice as dense, so the lower end is nearer there. -/
def Exact.interval (a : Exact) : Interval :=
  let m := 4 * a.mantissa
  let below := if a.mantissa = twoPow 52 ∧ -1074 < a.exponent then 1 else 2
  let e := a.exponent - 2
  let scale := if 0 ≤ e then twoPow e.toNat else 1
  { low := (m - below) * scale
    value := m * scale
    high := (m + 2) * scale
    den := if 0 ≤ e then 1 else twoPow (-e).toNat
    closed := a.mantissa % 2 == 0 }

/-- The same interval measured in units of `10 ^ p`. -/
def Interval.inUnits (i : Interval) (p : Int) : Interval :=
  if 0 ≤ p then { i with den := i.den * tenPow p.toNat }
  else
    let s := tenPow (-p).toNat
    { i with low := i.low * s, value := i.value * s, high := i.high * s }

def Interval.contains (i : Interval) (n : Nat) : Bool :=
  if i.closed then i.low ≤ n * i.den && n * i.den ≤ i.high
  else i.low < n * i.den && n * i.den < i.high

/-- The neighbour of the value that lies in the interval, the nearer one if both do; of two equally
near ones the upper. -/
def Interval.nearest? (i : Interval) : Option Nat :=
  let n := i.value / i.den
  match i.contains n, i.contains (n + 1) with
  | true, true => some (if i.den ≤ 2 * (i.value % i.den) then n + 1 else n)
  | true, false => some n
  | false, true => some (n + 1)
  | false, false => none

def Interval.search (i : Interval) : Nat → Int → Decimal
  | 0, p => ⟨i.value / i.den, p⟩
  | fuel + 1, p =>
    match (i.inUnits p).nearest? with
    | some n => ⟨n, p⟩
    | none => i.search fuel (p - 1)

/-- A power of ten above the value, by at most a factor of a hundred. -/
def Exact.scale (a : Exact) : Int :=
  ((a.mantissa.log2 : Int) + a.exponent) * 30103 / 100000 + 1

/-- Seventeen digits always suffice, and the search starts at most three places above them. -/
def Exact.shortest (a : Exact) : Decimal :=
  if a.mantissa = 0 then ⟨0, 0⟩ else a.interval.search 22 a.scale

end TemplateFormula.Number
