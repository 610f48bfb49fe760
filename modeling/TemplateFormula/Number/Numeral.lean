import TemplateFormula.Number.Shortest
import TemplateFormula.Text.Blank

/-!
# Reading numerals

The decimal numeral at the front of a text, and the four readings built on it: the whole text, the
longest numeric beginning, the longest run of digits, and the conversion of a text to a number.
A decimal is read as the nearest double.
-/

namespace TemplateFormula.Number

/-- The nearest double; the bounds only keep the powers of ten small. -/
def Decimal.toFloat (d : Decimal) : Float :=
  let top := ((Nat.toDigits 10 d.coefficient).length : Int) + d.exponent
  if d.coefficient = 0 then 0
  else if 310 < top then infinity
  else if top < -330 then 0
  else Float.ofScientific d.coefficient (d.exponent < 0) d.exponent.natAbs

def takeSign : List Char → Bool × List Char
  | '-' :: cs => (true, cs)
  | '+' :: cs => (false, cs)
  | cs => (false, cs)

def takeFraction : List Char → List Char × List Char
  | '.' :: cs => cs.span Char.isDigit
  | cs => ([], cs)

/-- An exponent mark without digits is left standing. -/
def takeExponent (cs : List Char) : Int × List Char :=
  match cs with
  | c :: r =>
    if c = 'e' ∨ c = 'E' then
      let (negative, r) := takeSign r
      let (digits, rest) := r.span Char.isDigit
      let n := Nat.ofDigitChars 10 digits 0
      if digits.isEmpty then (0, cs) else (if negative then -(n : Int) else n, rest)
    else (0, cs)
  | [] => (0, [])

/-- The longest unsigned decimal at the front: digits, a point and an exponent, with at least one
digit on one side of the point. -/
def takeDecimal? (cs : List Char) : Option (Decimal × List Char) :=
  let (whole, r) := cs.span Char.isDigit
  let (fraction, r) := takeFraction r
  if whole.isEmpty && fraction.isEmpty then none
  else
    let (e, rest) := takeExponent r
    some (⟨Nat.ofDigitChars 10 (whole ++ fraction) 0, e - fraction.length⟩, rest)

def asciiLower (cs : List Char) : List Char := cs.map Char.toLower

/-- The whole text as a signed decimal, or as a name of infinity or NaN in any letter case. -/
def parse? (cs : List Char) : Option Float :=
  let (negative, r) := takeSign cs
  match takeDecimal? r with
  | some (d, []) => some (signed negative d.toFloat)
  | _ =>
    let word := asciiLower r
    if word = ['i', 'n', 'f'] ∨ word = ['i', 'n', 'f', 'i', 'n', 'i', 't', 'y'] then
      some (signed negative infinity)
    else if word = ['n', 'a', 'n'] then some nan
    else none

def infinityName : List Char := ['I', 'n', 'f', 'i', 'n', 'i', 't', 'y']

/-- The longest numeric beginning after leading blanks; NaN without one. -/
def leadingFloat (cs : List Char) : Float :=
  let (negative, r) := takeSign (Text.trimStart cs)
  if infinityName.isPrefixOf r then signed negative infinity
  else
    match takeDecimal? r with
    | some (d, _) => signed negative d.toFloat
    | none => nan

/-- The longest run of digits after leading blanks and a sign; NaN without one. -/
def leadingInt (cs : List Char) : Float :=
  let (negative, r) := takeSign (Text.trimStart cs)
  let digits := r.takeWhile Char.isDigit
  if digits.isEmpty then nan
  else signed negative (Decimal.toFloat ⟨Nat.ofDigitChars 10 digits 0, 0⟩)

def hexDigit? (c : Char) : Option Nat :=
  if '0' ≤ c ∧ c ≤ '9' then some (c.toNat - '0'.toNat)
  else if 'a' ≤ c ∧ c ≤ 'f' then some (c.toNat - 'a'.toNat + 10)
  else if 'A' ≤ c ∧ c ≤ 'F' then some (c.toNat - 'A'.toNat + 10)
  else none

/-- Hexadecimal digits, at least one. -/
def hexNat? (cs : List Char) : Option Nat :=
  if cs.isEmpty then none
  else cs.foldlM (fun n c => (hexDigit? c).map (16 * n + ·)) 0

/-- Signed hexadecimal digits that fit 64 bits. -/
def hexInt64? (cs : List Char) : Option Int := do
  let (negative, r) := takeSign cs
  let n ← hexNat? r
  int64? (if negative then -(n : Int) else n)

/-- The characters of a decimal numeral; infinity and NaN have names outside it. -/
def isNumeralChar (c : Char) : Bool :=
  c.isDigit || c == '.' || c == 'e' || c == 'E' || c == '+' || c == '-'

/-- The whole text as a number: blank is zero, and what is no numeral is NaN. -/
def ofText (cs : List Char) : Float :=
  match Text.trim cs with
  | [] => 0
  | '0' :: 'x' :: r | '0' :: 'X' :: r => ((hexInt64? r).map Float.ofInt).getD nan
  | t =>
    if t = infinityName ∨ t = '+' :: infinityName then infinity
    else if t = '-' :: infinityName then -infinity
    else if t.all isNumeralChar then (parse? t).getD nan
    else nan

end TemplateFormula.Number
