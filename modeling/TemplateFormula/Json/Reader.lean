import TemplateFormula.Value.Basic
import TemplateFormula.Number.Numeral

/-!
# Reading JSON

A strict reader with a bound on the nesting of arrays and objects. Of two members with one key the
last counts, and numbers outside the range of doubles are refused.
-/

namespace TemplateFormula.Json

def isSpace (c : Char) : Bool := c == ' ' || c == '\t' || c == '\n' || c == '\r'

def skipSpace (cs : List Char) : List Char := cs.dropWhile isSpace

def escaped? : Char → Option Char
  | '"' => some '"'
  | '\\' => some '\\'
  | '/' => some '/'
  | 'b' => some '\x08'
  | 'f' => some '\x0c'
  | 'n' => some '\n'
  | 'r' => some '\r'
  | 't' => some '\t'
  | _ => none

def isHighSurrogate (n : Nat) : Bool := 0xD800 ≤ n && n < 0xDC00

def isLowSurrogate (n : Nat) : Bool := 0xDC00 ≤ n && n < 0xE000

/-- The rest of a string behind its opening quote, decoded, and what follows the closing quote. -/
def takeString? : List Char → Option (List Char × List Char)
  | [] => none
  | '"' :: r => some ([], r)
  | '\\' :: 'u' :: a :: b :: c :: d :: r =>
    (Number.hexNat? [a, b, c, d]).bind fun n =>
      if isHighSurrogate n then
        match r with
        | '\\' :: 'u' :: e :: f :: g :: h :: r =>
          (Number.hexNat? [e, f, g, h]).bind fun m =>
            if isLowSurrogate m then
              (takeString? r).map fun p =>
                (Char.ofNat (0x10000 + (n - 0xD800) * 1024 + (m - 0xDC00)) :: p.1, p.2)
            else none
        | _ => none
      else if isLowSurrogate n then none
      else (takeString? r).map fun p => (Char.ofNat n :: p.1, p.2)
  | '\\' :: c :: r =>
    (escaped? c).bind fun x => (takeString? r).map fun p => (x :: p.1, p.2)
  | c :: r =>
    if c.toNat < 32 || c == '\\' then none else (takeString? r).map fun p => (c :: p.1, p.2)

/-- Digits without a leading zero. -/
def takeWhole? (cs : List Char) : Option (List Char × List Char) :=
  let digits := cs.takeWhile Char.isDigit
  if digits.isEmpty || (digits.head? == some '0' && 1 < digits.length) then none
  else some (digits, cs.dropWhile Char.isDigit)

/-- A point must have digits behind it. -/
def takeFraction? : List Char → Option (List Char × List Char)
  | '.' :: cs =>
    let digits := cs.takeWhile Char.isDigit
    if digits.isEmpty then none else some (digits, cs.dropWhile Char.isDigit)
  | cs => some ([], cs)

/-- An exponent mark must have digits behind it and its sign. -/
def takeExponent? (cs : List Char) : Option (Int × List Char) :=
  match cs with
  | c :: r =>
    if c = 'e' ∨ c = 'E' then
      let (negative, r) := Number.takeSign r
      let digits := r.takeWhile Char.isDigit
      let n := Nat.ofDigitChars 10 digits 0
      if digits.isEmpty then none
      else some (if negative then -(n : Int) else n, r.dropWhile Char.isDigit)
    else some (0, cs)
  | [] => some (0, [])

def takeNumber? (cs : List Char) : Option (Float × List Char) := do
  let (negative, cs) :=
    match cs with
    | '-' :: r => (true, r)
    | _ => (false, cs)
  let (whole, cs) ← takeWhole? cs
  let (fraction, cs) ← takeFraction? cs
  let (e, cs) ← takeExponent? cs
  let x := Number.Decimal.toFloat ⟨Nat.ofDigitChars 10 (whole ++ fraction) 0, e - fraction.length⟩
  if x.isFinite then some (Number.signed negative x, cs) else none

def takeWord? (word cs : List Char) : Option (List Char) :=
  if word.isPrefixOf cs then some (cs.drop word.length) else none

def takeScalar? (cs : List Char) : Option (Value × List Char) :=
  match cs with
  | '"' :: r => (takeString? r).map fun p => (.ofChars p.1, p.2)
  | 't' :: r => (takeWord? ['r', 'u', 'e'] r).map fun rest => (.boolean true, rest)
  | 'f' :: r => (takeWord? ['a', 'l', 's', 'e'] r).map fun rest => (.boolean false, rest)
  | 'n' :: r => (takeWord? ['u', 'l', 'l'] r).map fun rest => (.null, rest)
  | _ => (takeNumber? cs).map fun p => (.number p.1, p.2)

section Containers

variable (item : List Char → Option (Value × List Char))

/-- Items up to the closing bracket, of which there is at least one. -/
def takeItems? : Nat → List Char → Option (List Value × List Char)
  | 0, _ => none
  | n + 1, cs =>
    (item cs).bind fun p =>
      match skipSpace p.2 with
      | ',' :: r => (takeItems? n r).map fun q => (p.1 :: q.1, q.2)
      | ']' :: r => some ([p.1], r)
      | _ => none

def takeArray? (cs : List Char) : Option (Value × List Char) :=
  match skipSpace cs with
  | ']' :: r => some (.array [], r)
  | _ => (takeItems? item cs.length cs).map fun p => (.array p.1, p.2)

def takeMember? (cs : List Char) : Option ((String × Value) × List Char) :=
  match skipSpace cs with
  | '"' :: r =>
    (takeString? r).bind fun k =>
      match skipSpace k.2 with
      | ':' :: r => (item r).map fun p => ((String.ofList k.1, p.1), p.2)
      | _ => none
  | _ => none

/-- Members up to the closing brace, of which there is at least one. -/
def takeMembers? : Nat → List Char → Option (List (String × Value) × List Char)
  | 0, _ => none
  | n + 1, cs =>
    (takeMember? item cs).bind fun p =>
      match skipSpace p.2 with
      | ',' :: r => (takeMembers? n r).map fun q => (p.1 :: q.1, q.2)
      | '\x7d' :: r => some ([p.1], r)
      | _ => none

def takeObject? (cs : List Char) : Option (Value × List Char) :=
  match skipSpace cs with
  | '\x7d' :: r => some (.object [], r)
  | _ => (takeMembers? item cs.length cs).map fun p => (.object (Members.ofList p.1), p.2)

end Containers

/-- A value in which arrays and objects are nested up to a depth, and the text behind it. -/
def takeValue? : Nat → List Char → Option (Value × List Char)
  | 0, cs => takeScalar? (skipSpace cs)
  | depth + 1, cs =>
    match skipSpace cs with
    | '[' :: r => takeArray? (takeValue? depth) r
    | '\x7b' :: r => takeObject? (takeValue? depth) r
    | r => takeScalar? r

def maxNesting : Nat := 127

/-- A whole text of JSON, nested up to a depth. -/
def parseNested? (depth : Nat) (cs : List Char) : Option Value :=
  match takeValue? depth cs with
  | some (v, rest) => if (skipSpace rest).isEmpty then some v else none
  | none => none

def parse? (cs : List Char) : Option Value := parseNested? maxNesting cs

end TemplateFormula.Json
