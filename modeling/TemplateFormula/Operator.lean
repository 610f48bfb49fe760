/-!
# Operators
-/

namespace TemplateFormula

inductive UnaryOp where
  | plus
  | negate
  | bitNot
  | not
deriving Repr, DecidableEq

inductive BinaryOp where
  | power
  | multiply
  | divide
  | remainder
  | add
  | minus
  | shiftLeft
  | shiftRight
  | unsignedShiftRight
  | lt
  | gt
  | le
  | ge
  | eq
  | ne
  | strictEq
  | strictNe
  | bitAnd
  | bitXor
  | bitOr
  | and
  | or
deriving Repr, DecidableEq

namespace UnaryOp

def symbol : UnaryOp → String
  | plus => "+"
  | negate => "-"
  | bitNot => "~"
  | not => "!"

def ofSymbol? : String → Option UnaryOp
  | "+" => some plus
  | "-" => some negate
  | "~" => some bitNot
  | "!" => some not
  | _ => none

theorem ofSymbol?_symbol (op : UnaryOp) : ofSymbol? op.symbol = some op := by
  cases op <;> rfl

end UnaryOp

namespace BinaryOp

def symbol : BinaryOp → String
  | power => "**"
  | multiply => "*"
  | divide => "/"
  | remainder => "%"
  | add => "+"
  | minus => "-"
  | shiftLeft => "<<"
  | shiftRight => ">>"
  | unsignedShiftRight => ">>>"
  | lt => "<"
  | gt => ">"
  | le => "<="
  | ge => ">="
  | eq => "=="
  | ne => "!="
  | strictEq => "==="
  | strictNe => "!=="
  | bitAnd => "&"
  | bitXor => "^"
  | bitOr => "|"
  | and => "&&"
  | or => "||"

def ofSymbol? : String → Option BinaryOp
  | "**" => some power
  | "*" => some multiply
  | "/" => some divide
  | "%" => some remainder
  | "+" => some add
  | "-" => some minus
  | "<<" => some shiftLeft
  | ">>" => some shiftRight
  | ">>>" => some unsignedShiftRight
  | "<" => some lt
  | ">" => some gt
  | "<=" => some le
  | ">=" => some ge
  | "==" => some eq
  | "!=" => some ne
  | "===" => some strictEq
  | "!==" => some strictNe
  | "&" => some bitAnd
  | "^" => some bitXor
  | "|" => some bitOr
  | "&&" => some and
  | "||" => some or
  | _ => none

/-- A higher number binds tighter. All operators associate to the left. -/
def precedence : BinaryOp → Nat
  | or => 1
  | and => 2
  | bitOr => 3
  | bitXor => 4
  | bitAnd => 5
  | eq | ne | strictEq | strictNe => 6
  | lt | gt | le | ge => 7
  | shiftLeft | shiftRight | unsignedShiftRight => 8
  | add | minus => 9
  | multiply | divide | remainder => 10
  | power => 11

def maxPrecedence : Nat := 11

theorem ofSymbol?_symbol (op : BinaryOp) : ofSymbol? op.symbol = some op := by
  cases op <;> rfl

theorem one_le_precedence (op : BinaryOp) : 1 ≤ op.precedence := by
  cases op <;> decide

theorem precedence_le_max (op : BinaryOp) : op.precedence ≤ maxPrecedence := by
  cases op <;> decide

end BinaryOp

end TemplateFormula
