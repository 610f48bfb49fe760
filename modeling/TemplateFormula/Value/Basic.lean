import TemplateFormula.Expr.Equality
import TemplateFormula.Calendar.Stamp
import TemplateFormula.Text.Search

/-!
# Values

The loosely typed values of the language. There is one number type, `undefined` is distinct from
`null`, and the members of an object are kept in the order of their keys.
-/

namespace TemplateFormula

/-- A function value. The number tells apart the functions that an evaluation makes, and two
functions have the same contents without it. -/
structure Closure where
  id : Nat
  params : List String
  body : Expr

instance : BEq Closure := ⟨fun f g => f.params == g.params && f.body.same g.body⟩

inductive Value where
  | undefined
  | null
  | boolean (b : Bool)
  | number (x : Float)
  | text (s : String)
  | array (items : List Value)
  | object (members : List (String × Value))
  | date (s : Calendar.Stamp)
  | function (f : Closure)

abbrev Members := List (String × Value)

instance : Inhabited Value := ⟨.undefined⟩

namespace Members

/-- Puts a member at the place of its key, over one that is there already. -/
def insert (key : String) (value : Value) : Members → Members
  | [] => [(key, value)]
  | (k, v) :: r =>
    match Text.order key.toList k.toList with
    | .lt => (key, value) :: (k, v) :: r
    | .eq => (key, value) :: r
    | .gt => (k, v) :: insert key value r

def ofList (entries : List (String × Value)) : Members :=
  entries.foldl (fun ms e => ms.insert e.1 e.2) []

def get? (ms : Members) (key : String) : Option Value := ms.lookup key

end Members

namespace Value

def ofLiteral : Literal → Value
  | .undefined => undefined
  | .null => null
  | .boolean b => boolean b

def ofNat (n : Nat) : Value := number (Float.ofNat n)

def ofInt (n : Int) : Value := number (Float.ofInt n)

def ofChars (cs : List Char) : Value := text (String.ofList cs)

def typeName : Value → String
  | undefined => "undefined"
  | null => "null"
  | boolean _ => "boolean"
  | number _ => "number"
  | text _ => "string"
  | array _ => "array"
  | object _ => "object"
  | date _ => "date"
  | function _ => "function"

def isNullish : Value → Bool
  | undefined | null => true
  | _ => false

def isUndefined : Value → Bool
  | undefined => true
  | _ => false

def isTruthy : Value → Bool
  | undefined | null => false
  | boolean b => b
  | number x => x != 0 && !x.isNaN
  | text s => !s.isEmpty
  | array _ | object _ | date _ | function _ => true

def asText? : Value → Option String
  | text s => some s
  | _ => none

def asArray? : Value → Option (List Value)
  | array items => some items
  | _ => none

def asNumber? : Value → Option Float
  | number x => some x
  | _ => none

end Value

end TemplateFormula
