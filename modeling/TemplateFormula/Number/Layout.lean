import TemplateFormula.Number.Numeral

/-!
# Writing numbers

The text of a double: its shortest digits, written positionally from `10 ^ -6` up to `10 ^ 21` and
with an exponent outside. Beside it stand the two layouts that round, to a number of places after
the point and to a number of significant digits, each rounding the exact value half to even.
-/

namespace TemplateFormula.Number

def natChars (n : Nat) : List Char := Nat.toDigits 10 n

def intChars (n : Int) : List Char :=
  if n < 0 then '-' :: natChars n.natAbs else natChars n.natAbs

/-- Zeros in front up to a width. -/
def padded (width n : Nat) : List Char :=
  let ds := natChars n
  List.replicate (width - ds.length) '0' ++ ds

namespace Decimal

def positional (d : Decimal) : List Char :=
  let ds := natChars d.coefficient
  if 0 ≤ d.exponent then ds ++ List.replicate d.exponent.toNat '0'
  else
    let places := (-d.exponent).toNat
    let ds := List.replicate (places + 1 - ds.length) '0' ++ ds
    ds.take (ds.length - places) ++ '.' :: ds.drop (ds.length - places)

def withExponent (d : Decimal) : List Char :=
  match natChars d.coefficient with
  | [] => []
  | c :: r =>
    let e := d.exponent + r.length
    c :: (if r.isEmpty then [] else '.' :: r) ++
      'e' :: (if e < 0 then intChars e else '+' :: intChars e)

end Decimal

def signChars (negative : Bool) : List Char := if negative then ['-'] else []

def chars (x : Float) : List Char :=
  match finite? x with
  | none => if x.isNaN then ['N', 'a', 'N'] else signChars (x < 0) ++ infinityName
  | some a =>
    if a.mantissa = 0 then ['0']
    else
      let d := a.shortest
      signChars a.negative ++
        if x.abs ≥ 1e21 || x.abs < 1e-6 then d.withExponent else d.positional

/-- The text of a number. -/
def text (x : Float) : String := String.ofList (chars x)

/-- A ratio with a fixed number of places after the point. -/
def Ratio.fixed (r : Ratio) (places : Nat) : List Char :=
  let n := Ratio.round .halfEven ⟨r.num * tenPow places, r.den⟩
  if places = 0 then natChars n
  else
    let ds := padded (places + 1) n
    ds.take (ds.length - places) ++ '.' :: ds.drop (ds.length - places)

/-- A fixed number of places after the point. -/
def fixed (places : Nat) (x : Float) : List Char :=
  match finite? x with
  | none => chars x
  | some a => signChars a.negative ++ a.ratio.fixed places

/-- The power of ten of the leading digit, searched downward. -/
def Ratio.leadingPower (r : Ratio) : Nat → Int → Int
  | 0, p => p
  | fuel + 1, p =>
    let reached :=
      if 0 ≤ p then r.den * tenPow p.toNat ≤ r.num else r.den ≤ r.num * tenPow (-p).toNat
    if reached then p else r.leadingPower fuel (p - 1)

/-- The magnitude rounded to a number of significant digits. -/
def Exact.significant (a : Exact) (digits : Nat) : Decimal :=
  let p := a.ratio.leadingPower 4 (a.scale + 1) - (digits : Int) + 1
  let r : Ratio :=
    if 0 ≤ p then ⟨a.ratio.num, a.ratio.den * tenPow p.toNat⟩
    else ⟨a.ratio.num * tenPow (-p).toNat, a.ratio.den⟩
  ⟨r.round .halfEven, p⟩

/-- The double nearest to the value rounded to a number of significant digits. -/
def toSignificant (digits : Nat) (x : Float) : Float :=
  match finite? x with
  | none => x
  | some a =>
    if a.mantissa = 0 then x else signed a.negative (a.significant digits).toFloat

end TemplateFormula.Number
