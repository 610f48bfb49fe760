import TemplateFormula.Operator

/-!
# Expressions

The tree of a template or formula. A template is a document of literal text and islands; an island
holds an expression, which may be piped through a chain of filters.
-/

namespace TemplateFormula

inductive Literal where
  | undefined
  | null
  | boolean (b : Bool)
deriving Repr, DecidableEq

mutual

inductive Expr where
  | document (parts : List Expr)
  | raw (text : String)
  | island (body : Expr)
  | filter (input : Expr) (calls : List FilterCall)
  | template (parts : List Expr)
  | templateRaw (text : String)
  | getter (host key : Expr)
  | unary (op : UnaryOp) (operand : Expr)
  | binary (op : BinaryOp) (left right : Expr)
  | conditional (test consequent alternate : Expr)
  /-- A name looked up in the data; `&` is the data as a whole. -/
  | variable (name : String)
  | inNamespace (name : String) (body : Expr)
  /-- A property name, which stands for its own text. -/
  | identifier (name : String)
  | literal (value : Literal)
  | number (value : Float)
  | text (value : String)
  | array (members : List Expr)
  | object (members : List (Expr × Expr))
  | call (name : String) (args : List Expr)
  | sequence (members : List Expr)
  | function (params : List String) (body : Expr)

inductive FilterCall where
  | mk (name : String) (args : List FilterArg)

/-- Free text, one expression, or a mixture whose parts are glued together. -/
inductive FilterArg where
  | text (value : String)
  | expr (value : Expr)
  | mixed (parts : List FilterArg)

end

instance : Inhabited Expr := ⟨.literal .undefined⟩

def FilterCall.name : FilterCall → String
  | mk name _ => name

def FilterCall.args : FilterCall → List FilterArg
  | mk _ args => args

/-- The kinds of node that a handler may be registered for. Binary nodes have a kind for each
family of operators. -/
inductive Kind where
  | document
  | raw
  | island
  | filter
  | template
  | templateRaw
  | getter
  | unary
  | power
  | multiply
  | divide
  | remainder
  | add
  | minus
  | shift
  | lt
  | gt
  | le
  | ge
  | eq
  | ne
  | strictEq
  | strictNe
  | bitwise
  | and
  | or
  | conditional
  | variable
  | inNamespace
  | identifier
  | literal
  | number
  | text
  | array
  | object
  | call
  | sequence
  | function
deriving Repr, DecidableEq

namespace Kind

def name : Kind → String
  | document => "document"
  | raw => "raw"
  | island => "script"
  | filter => "filter"
  | template => "template"
  | templateRaw => "templateRaw"
  | getter => "getter"
  | unary => "unary"
  | power => "power"
  | multiply => "multiply"
  | divide => "divide"
  | remainder => "remainder"
  | add => "add"
  | minus => "minus"
  | shift => "shift"
  | lt => "lt"
  | gt => "gt"
  | le => "le"
  | ge => "ge"
  | eq => "eq"
  | ne => "ne"
  | strictEq => "streq"
  | strictNe => "strneq"
  | bitwise => "binary"
  | and => "and"
  | or => "or"
  | conditional => "conditional"
  | .variable => "variable"
  | inNamespace => "nsVariable"
  | identifier => "identifier"
  | literal => "literal"
  | number => "number"
  | text => "string"
  | array => "array"
  | object => "object"
  | call => "funcCall"
  | sequence => "expressionList"
  | function => "anonymousFunction"

def ofBinary : BinaryOp → Kind
  | .power => power
  | .multiply => multiply
  | .divide => divide
  | .remainder => remainder
  | .add => add
  | .minus => minus
  | .shiftLeft | .shiftRight | .unsignedShiftRight => shift
  | .lt => lt
  | .gt => gt
  | .le => le
  | .ge => ge
  | .eq => eq
  | .ne => ne
  | .strictEq => strictEq
  | .strictNe => strictNe
  | .bitAnd | .bitXor | .bitOr => bitwise
  | .and => and
  | .or => or

end Kind

def Expr.kind : Expr → Kind
  | document _ => .document
  | raw _ => .raw
  | island _ => .island
  | filter _ _ => .filter
  | template _ => .template
  | templateRaw _ => .templateRaw
  | getter _ _ => .getter
  | unary _ _ => .unary
  | binary op _ _ => .ofBinary op
  | conditional _ _ _ => .conditional
  | .variable _ => .variable
  | inNamespace _ _ => .inNamespace
  | identifier _ => .identifier
  | literal _ => .literal
  | number _ => .number
  | text _ => .text
  | array _ => .array
  | object _ => .object
  | call _ _ => .call
  | sequence _ => .sequence
  | function _ _ => .function

end TemplateFormula
