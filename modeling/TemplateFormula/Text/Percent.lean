import TemplateFormula.Text.Utf8
import TemplateFormula.Number.Numeral

/-!
# Percent encoding

Bytes outside the unreserved characters are written as a percent sign and two hexadecimal digits.
-/

namespace TemplateFormula.Text.Percent

def isUnreserved (c : Char) : Bool :=
  c.isAlphanum || ['-', '_', '.', '!', '~', '*', '\'', '(', ')'].contains c

def hexChar (n : Nat) : Char := if n < 10 then Char.ofNat (48 + n) else Char.ofNat (55 + n)

def encodeByte (b : UInt8) : List Char :=
  let c := Char.ofNat b.toNat
  if isUnreserved c then [c] else ['%', hexChar (b.toNat / 16), hexChar (b.toNat % 16)]

def encode (cs : List Char) : List Char := (Utf8.encode cs).flatMap encodeByte

/-- Two characters read as a hexadecimal number, of which the first may be a plus sign. -/
def byte? (a b : UInt8) : Option UInt8 :=
  let a := Char.ofNat a.toNat
  let b := Char.ofNat b.toNat
  (if a = '+' then Number.hexNat? [b] else Number.hexNat? [a, b]).map Nat.toUInt8

def percentByte : UInt8 := 37

def unescapeBytes? : List UInt8 → Option (List UInt8)
  | [] => some []
  | b :: bs =>
    if b = percentByte then
      match bs with
      | x :: y :: r => (byte? x y).bind fun v => (unescapeBytes? r).map (v :: ·)
      | _ => none
    else (unescapeBytes? bs).map (b :: ·)

/-- `none` for an escape without two digits and for bytes that are no text. -/
def decode? (cs : List Char) : Option (List Char) :=
  (unescapeBytes? (Utf8.encode cs)).bind Utf8.decode?

end TemplateFormula.Text.Percent
