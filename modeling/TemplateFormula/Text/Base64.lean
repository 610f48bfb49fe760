import TemplateFormula.Text.Utf8

/-!
# Base64

Three bytes are written as four characters of the alphabet, with padding at the end. Reading skips
blanks, stops at the first padding character and drops left-over bits.
-/

namespace TemplateFormula.Text.Base64

def digit (n : Nat) : Char :=
  if n < 26 then Char.ofNat (65 + n)
  else if n < 52 then Char.ofNat (71 + n)
  else if n < 62 then Char.ofNat (n - 4)
  else if n = 62 then '+'
  else '/'

def digitValue? (c : Char) : Option Nat :=
  let n := c.toNat
  if 65 ≤ n ∧ n ≤ 90 then some (n - 65)
  else if 97 ≤ n ∧ n ≤ 122 then some (n - 71)
  else if 48 ≤ n ∧ n ≤ 57 then some (n + 4)
  else if c = '+' then some 62
  else if c = '/' then some 63
  else none

def encode : List UInt8 → List Char
  | [] => []
  | [a] => [digit (a.toNat / 4), digit (a.toNat % 4 * 16), '=', '=']
  | [a, b] =>
    [digit (a.toNat / 4), digit (a.toNat % 4 * 16 + b.toNat / 16), digit (b.toNat % 16 * 4), '=']
  | a :: b :: c :: r =>
    digit (a.toNat / 4) :: digit (a.toNat % 4 * 16 + b.toNat / 16) ::
      digit (b.toNat % 16 * 4 + c.toNat / 64) :: digit (c.toNat % 64) :: encode r

def isSkipped (c : Char) : Bool :=
  c == ' ' || c == '\t' || c == '\n' || c == '\x0c' || c == '\r'

/-- Reads six bits at a time, holding the bits that do not fill a byte yet. -/
def decodeFrom (held bits : Nat) : List Char → Option (List UInt8)
  | [] => some []
  | c :: cs =>
    if isSkipped c then decodeFrom held bits cs
    else if c = '=' then some []
    else
      (digitValue? c).bind fun v =>
        let n := held * 64 + v
        if bits < 2 then decodeFrom n (bits + 6) cs
        else
          let kept := Nat.pow 2 (bits - 2)
          (decodeFrom (n % kept) (bits - 2) cs).map ((n / kept).toUInt8 :: ·)

def decode? (cs : List Char) : Option (List UInt8) := decodeFrom 0 0 cs

end TemplateFormula.Text.Base64
