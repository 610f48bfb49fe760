import TemplateFormula.Builtin.Basic
import TemplateFormula.Number.Rounding

/-!
# Amounts of money in words

Amounts in formal Chinese numerals. The whole part is written in groups of four digits, of which
there are three; a run of zeros is spoken as one zero, and not at all at the end of a group.
-/

namespace TemplateFormula.Builtin

namespace Money

def zero : Char := '零'

def digits : List Char := [zero, '壹', '贰', '叁', '肆', '伍', '陆', '柒', '捌', '玖']

/-- The marks of the digits of a group, from the last digit on. -/
def places : List (List Char) := [[], ['拾'], ['佰'], ['仟']]

/-- The marks of the groups, from the last one on. -/
def groups : List Char := ['元', '万', '亿']

/-- The last digit of a whole number; what is no number counts as zero. -/
def lastDigit (x : Float) : Nat := (Number.clampInt 0 9 (Number.remainder x 10)).toNat

def digitChar (n : Nat) : Char := digits.getD n zero

/-- A digit after the point with its unit, unless it is zero. -/
def fraction (digit : Nat) (unit : Char) : List Char :=
  if digit = 0 then [] else [digitChar digit, unit]

/-- The digits of a group, last one first, and the amount that remains before them. -/
def takeGroup : Nat → Float → List Nat × Float
  | 0, x => ([], x)
  | n + 1, x =>
    if x ≤ 0 then ([], x)
    else
      let (ds, rest) := takeGroup n (Number.floor (x / 10))
      (lastDigit x :: ds, rest)

/-- A group without the zeros at its end, or a single zero for a group of zeros. -/
def groupChars (ds : List Nat) : List Char :=
  match (ds.zip places).dropWhile (·.1 == 0) with
  | [] => [zero]
  | kept => kept.reverse.flatMap fun p => digitChar p.1 :: p.2

/-- Puts the groups of an amount in front of a text. -/
def prependGroups (x : Float) (text : List Char) : List Char → List Char
  | [] => text
  | mark :: marks =>
    if x ≤ 0 then text
    else
      let (ds, rest) := takeGroup 4 x
      prependGroups rest (groupChars ds ++ mark :: text) marks

/-- The text behind a run of zeros that ends at the unit. -/
def zerosToUnit? : List Char → Option (List Char)
  | '零' :: '元' :: cs => some cs
  | '零' :: _ :: cs => zerosToUnit? cs
  | _ => none

def dropZerosAtUnit : List Char → List Char
  | [] => []
  | c :: cs =>
    match zerosToUnit? (c :: cs) with
    | some rest => '元' :: rest
    | none => c :: dropZerosAtUnit cs

/-- One zero for a run of zeros with their marks. -/
def squeezeZeros (inRun : Bool) : List Char → List Char
  | '零' :: _ :: cs => (if inRun then [] else [zero]) ++ squeezeZeros true cs
  | c :: cs => c :: squeezeZeros false cs
  | [] => []

def even : List Char := ['整']

/-- The words for an amount that is not negative. -/
def words (x : Float) : List Char :=
  let tenths := lastDigit (Number.floor (x * 10))
  let hundredths := lastDigit (Number.floor (x * 10 * 10))
  let fractions := fraction tenths '角' ++ fraction hundredths '分'
  let text := prependGroups (Number.floor x) (if fractions.isEmpty then even else fractions) groups
  let text := squeezeZeros false (dropZerosAtUnit text)
  if text = even then zero :: '元' :: even else text

end Money

def upperMoney : Builtin := fun clock args =>
  let x := Argument.number clock.zone args 0
  if x.isFinite then
    .ok (.ofChars ((if x < 0 then ['欠'] else []) ++ Money.words x.abs))
  else
    .error (.typeError ("UPPERMONEY expects a finite number, got " ++
      (Argument.orUndefined args 0).display clock.zone))

end TemplateFormula.Builtin
