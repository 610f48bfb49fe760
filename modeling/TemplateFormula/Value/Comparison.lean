import TemplateFormula.Value.Conversion

/-!
# Comparison of values

Strict equality compares contents, and functions by identity; two values that differ only in the
identity of functions are the same. Loose equality compares values of different types by their
numbers or texts. The order is by code point between texts and numeric otherwise.
-/

namespace TemplateFormula.Value

open Calendar (Zone)

mutual

def strictEq : Value → Value → Bool
  | undefined, undefined => true
  | null, null => true
  | boolean a, boolean b => a == b
  | number x, number y => x == y
  | text s, text t => s == t
  | array a, array b => strictEqItems a b
  | object a, object b => strictEqMembers a b
  | date a, date b => a == b
  | function f, function g => f.id == g.id
  | _, _ => false

def strictEqItems : List Value → List Value → Bool
  | [], [] => true
  | v :: vs, w :: ws => strictEq v w && strictEqItems vs ws
  | _, _ => false

def strictEqMembers : List (String × Value) → List (String × Value) → Bool
  | [], [] => true
  | (k, v) :: a, (l, w) :: b => k == l && strictEq v w && strictEqMembers a b
  | _, _ => false

end

mutual

def same : Value → Value → Bool
  | undefined, undefined => true
  | null, null => true
  | boolean a, boolean b => a == b
  | number x, number y => x == y
  | text s, text t => s == t
  | array a, array b => sameItems a b
  | object a, object b => sameMembers a b
  | date a, date b => a == b
  | function f, function g => f == g
  | _, _ => false

def sameItems : List Value → List Value → Bool
  | [], [] => true
  | v :: vs, w :: ws => same v w && sameItems vs ws
  | _, _ => false

def sameMembers : List (String × Value) → List (String × Value) → Bool
  | [], [] => true
  | (k, v) :: a, (l, w) :: b => k == l && same v w && sameMembers a b
  | _, _ => false

end

instance : BEq Value := ⟨same⟩

/-- What loose equality compares a value of one type by with a value of another. -/
inductive Scalar where
  | number (x : Float)
  | text (cs : List Char)
  | opaqueValue

def scalar (zone : Zone) : Value → Scalar
  | boolean b => .number (if b then 1 else 0)
  | number x => .number x
  | date s => .number (Float.ofInt (zone.epochMillis s))
  | text s => .text s.toList
  | array items => .text ((array items).chars zone)
  | object ms => .text ((object ms).chars zone)
  | undefined | null | function _ => .opaqueValue

def Scalar.agree : Scalar → Scalar → Bool
  | number x, number y => x == y
  | number x, text cs => x == Number.ofText cs
  | text cs, number x => x == Number.ofText cs
  | text cs, text ds => cs == ds
  | _, _ => false

def isContainer : Value → Bool
  | array _ | object _ => true
  | _ => false

def sameType (a b : Value) : Bool := a.typeName == b.typeName

def looseEq (zone : Zone) (a b : Value) : Bool :=
  if a.sameType b then a.strictEq b
  else if a.isNullish || b.isNullish then a.isNullish && b.isNullish
  else if a.isContainer && b.isContainer then false
  else (a.scalar zone).agree (b.scalar zone)

/-- The value that takes part in an order: containers and functions by their text, dates by their
number. -/
def primitive (zone : Zone) : Value → Value
  | array items => ofChars ((array items).chars zone)
  | object ms => ofChars ((object ms).chars zone)
  | function f => ofChars ((function f).chars zone)
  | date s => number (Float.ofInt (zone.epochMillis s))
  | v => v

def orderNumbers? (x y : Float) : Option Ordering :=
  if x < y then some .lt else if y < x then some .gt else if x == y then some .eq else none

/-- `none` where a NaN takes part. -/
def order? (zone : Zone) (a b : Value) : Option Ordering :=
  match a.primitive zone, b.primitive zone with
  | text s, text t => some (Text.order s.toList t.toList)
  | v, w => orderNumbers? (v.toNumber zone) (w.toNumber zone)

end TemplateFormula.Value
