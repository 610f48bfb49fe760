import TemplateFormula.Value.Comparison

/-!
# Operators on values

Arithmetic takes text by its numeric beginning and missing values for zero. Addition glues texts
once a container, date or function takes part. Bitwise operators work on words of thirty-two bits.
-/

namespace TemplateFormula

namespace Value

/-- A word read as a signed number. -/
def ofWord (w : UInt32) : Value := ofInt w.toBitVec.toInt

/-- The values that turn addition into joining texts. -/
def joinsTexts : Value → Bool
  | array _ | object _ | date _ | function _ => true
  | _ => false

variable (zone : Calendar.Zone)

def word (v : Value) : UInt32 := Number.toWord32 (v.toNumber zone)

def add (a b : Value) : Value :=
  let l := a.operand
  let r := b.operand
  if l.joinsTexts || r.joinsTexts then ofChars (l.chars zone ++ r.chars zone)
  else number (l.toNumber zone + r.toNumber zone)

def numeric (f : Float → Float → Float) (a b : Value) : Value :=
  number (f (a.arithmetic zone) (b.arithmetic zone))

/-- A power of one or minus one has no limit. -/
def power (x y : Float) : Float :=
  if y.isNaN || (x.abs == 1 && y.isInf) then Number.nan else Float.pow x y

def bitwise (f : UInt32 → UInt32 → UInt32) (a b : Value) : Value :=
  ofWord (f (a.word zone) (b.word zone))

/-- How far a value shifts others. -/
def shiftCount (v : Value) : Nat := (v.wholeOperand.word zone).toNat % 32

def ordered (a b : Value) (accepts : Ordering → Bool) : Value :=
  boolean ((a.order? zone b).any accepts)

end Value

open Value

def UnaryOp.apply (zone : Calendar.Zone) (op : UnaryOp) (v : Value) : Value :=
  match op with
  | plus => .number (v.toNumber zone)
  | negate => .number (-v.toNumber zone)
  | bitNot => ofWord (~~~ v.word zone)
  | not => .boolean (!v.isTruthy)

/-- The value of a binary operation on values. -/
def BinaryOp.apply (zone : Calendar.Zone) (op : BinaryOp) (a b : Value) : Value :=
  match op with
  | add => a.add zone b
  | minus => numeric zone (· - ·) a b
  | multiply => numeric zone (· * ·) a b
  | divide => numeric zone (· / ·) a b
  | remainder => numeric zone Number.remainder a b
  | power => numeric zone Value.power a b
  | shiftLeft => ofWord (a.word zone <<< (b.shiftCount zone).toUInt32)
  | shiftRight => .ofInt ((a.word zone).toBitVec.toInt / Number.twoPow (b.shiftCount zone))
  | unsignedShiftRight => .ofNat ((a.word zone).toNat / Number.twoPow (b.shiftCount zone))
  | lt => ordered zone a b (· == .lt)
  | gt => ordered zone a b (· == .gt)
  | le => ordered zone a b (· != .gt)
  | ge => ordered zone a b (· != .lt)
  | eq => .boolean (a.looseEq zone b)
  | ne => .boolean (!a.looseEq zone b)
  | strictEq => .boolean (a.strictEq b)
  | strictNe => .boolean (!a.strictEq b)
  | bitAnd => bitwise zone (· &&& ·) a b
  | bitXor => bitwise zone (· ^^^ ·) a b
  | bitOr => bitwise zone (· ||| ·) a b
  | and => if a.isTruthy then b else a
  | or => if a.isTruthy then a else b

end TemplateFormula
