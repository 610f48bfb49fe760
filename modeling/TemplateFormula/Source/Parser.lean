import TemplateFormula.Source.Primary

/-!
# Parsing

Expressions by precedence climbing, documents of literal text and islands, and the three forms of a
source text. Depth is spent where an expression nests in another; running out of it is an error of
its own.
-/

namespace TemplateFormula

/-- What a source text is. -/
inductive SourceForm where
  /-- Literal text with islands. -/
  | template
  /-- One expression. -/
  | expression
  /-- One variable with a chain of members. -/
  | variable
deriving Repr, DecidableEq

structure ParseOptions where
  form : SourceForm
  /-- A vertical bar in an island starts a filter. -/
  allowFilter : Bool
  /-- Names that may stand before a colon. -/
  namespaces : List String
  /-- How deeply expressions may nest. -/
  maxDepth : Nat
deriving Repr, DecidableEq

namespace ParseOptions

def usualNamespaces : List String := ["window", "cookie", "ls", "ss"]

def template : ParseOptions := ⟨.template, true, usualNamespaces, 64⟩

def expression : ParseOptions := { template with form := .expression }

def variableChain : ParseOptions := { template with form := .variable }

def lexer (o : ParseOptions) : LexerOptions := ⟨o.form != .template, o.allowFilter⟩

end ParseOptions

namespace Parser

section Operands

variable (namespaces : List String) (nested : Nested)

/-- A name, the whole data, or a name of a namespace with an operand behind it. -/
def variableName : Parser (Option Expr) := do
  if ← check "&" then
    advance
    return some (.variable "&")
  else
    match ← kind with
    | .identifier name =>
      advance
      if (← check ":") && namespaces.contains name then
        advance
        return some (.inNamespace name (← required (nested .operand)))
      else return some (.variable name)
    | _ => return none

/-- Runs a parser and goes back if it does not match. -/
def attempt {α : Type} (p : Parser (Option α)) : Parser (Option α) := do
  let start ← get
  match ← p with
  | some a => return some a
  | none => do
    set start
    return none

def call : Parser (Option Expr) := attempt do
  match ← kind with
  | .identifier name =>
    advance
    return (← list nested "(" ")").map (.call name)
  | _ => return none

/-- Names between commas up to the closing parenthesis. -/
def parameters : Nat → Bool → Parser (Option (List String))
  | 0, _ => return none
  | n + 1, expectName => do
    if ← check ")" then
      advance
      return some []
    else
      match ← kind with
      | .identifier name =>
        if expectName then
          advance
          return (← parameters n false).map (name :: ·)
        else return none
      | k =>
        if !expectName && k.isPunctuator "," then
          advance
          parameters n true
        else return none

def parameterList : Parser (Option (List String)) := attempt do
  if ← check "(" then
    advance
    parameters (← remaining) true
  else return none

def parameter : Parser (Option (List String)) := do
  match ← kind with
  | .identifier name => advance; return some [name]
  | _ => return none

def arrowHead : Parser (Option (List String)) := attempt do
  let params ←
    match ← parameterList with
    | some params => pure (some params)
    | none => parameter
  match params with
  | none => return none
  | some params =>
    if ← check "=" then
      advance
      if ← check ">" then
        advance
        return some params
      else return none
    else return none

def arrow : Parser (Option Expr) := do
  match ← arrowHead with
  | some params => return some (.function params (← expression nested))
  | none => return none

def primary : Parser (Option Expr) :=
  firstOf [variableName namespaces nested, literal, number, text, template nested, array nested,
    object nested, parenthesized nested, island nested]

def operandHead : Parser (Option Expr) :=
  firstOf [call nested, arrow nested, primary namespaces nested]

def memberKey : Parser Expr := required (firstOf [identifier, number, island nested])

/-- The members behind an operand. -/
def membersOf : Nat → Expr → Parser Expr
  | 0, host => return host
  | n + 1, host => do
    if ← check "." then
      advance
      let key ← memberKey nested
      membersOf n (.getter host key)
    else if ← check "[" then
      advance
      let key ← expression nested
      expect "]"
      membersOf n (.getter host key)
    else return host

def withMembers (head : Parser (Option Expr)) : Parser (Option Expr) := do
  match ← head with
  | none => return none
  | some e => return some (← membersOf nested (← remaining) e)

def operand : Parser (Option Expr) := withMembers nested (operandHead namespaces nested)

def unaryOps : Nat → Parser (List UnaryOp)
  | 0 => return []
  | n + 1 => do
    match ← kind with
    | .punctuator s =>
      match UnaryOp.ofSymbol? s with
      | some op =>
        advance
        return op :: (← unaryOps n)
      | none => return []
    | _ => return []

def unary : Parser (Option Expr) := do
  let ops ← unaryOps (← remaining)
  match ← operand namespaces nested with
  | some e => return some (ops.foldr .unary e)
  | none => if ops.isEmpty then return none else fatal

def binaryOp? : TokenKind → Option BinaryOp
  | .punctuator s => BinaryOp.ofSymbol? s
  | _ => none

/-- Takes operators that bind at least as tightly as a bound, from left to right. -/
def climb (right : Nat → Parser (Option Expr)) (bound : Nat) : Nat → Expr → Parser Expr
  | 0, left => return left
  | n + 1, left => do
    match binaryOp? (← kind) with
    | none => return left
    | some op =>
      if op.precedence < bound then return left
      else
        advance
        let e ← required (right (op.precedence + 1))
        climb right bound n (.binary op left e)

/-- An expression of operators that bind at least as tightly as a bound. The bound rises with each
nesting, so the number of precedences bounds it. -/
def binary : Nat → Nat → Parser (Option Expr)
  | 0, _ => unary namespaces nested
  | n + 1, bound => do
    match ← unary namespaces nested with
    | none => return none
    | some left => return some (← climb (binary n) bound (← remaining) left)

def conditional : Parser (Option Expr) := do
  match ← binary namespaces nested (BinaryOp.maxPrecedence + 1) 1 with
  | none => return none
  | some test =>
    if ← check "?" then
      advance
      let consequent ← expression nested
      expect ":"
      let alternate ← expression nested
      return some (.conditional test consequent alternate)
    else return some test

end Operands

/-- Parses a nested goal with a depth left to spend. -/
def nestedGoal (namespaces : List String) : Nat → Goal → Parser (Option Expr)
  | 0, _, c => tooDeep c
  | depth + 1, .expression, c => conditional namespaces (nestedGoal namespaces depth) c
  | depth + 1, .operand, c => operand namespaces (nestedGoal namespaces depth) c

end Parser

namespace DollarPath

/-- A key in brackets is a number or the name of a variable. -/
def bracketKey (key : List Char) : Expr :=
  match Number.parse? key with
  | some x => .number x
  | none => .variable (String.ofList key)

def flush (current : List Char) : List Expr :=
  if current.isEmpty then [] else [.identifier (String.ofList current)]

/-- The keys of a path behind a dollar sign. Every step uses up a character. -/
def scanKeys : Nat → List Char → List Char → List Expr
  | 0, current, _ | _ + 1, current, [] => flush current
  | n + 1, current, '.' :: cs => flush current ++ scanKeys n [] cs
  | n + 1, current, '[' :: cs =>
    flush current ++
      bracketKey (cs.takeWhile (· != ']')) :: scanKeys n [] ((cs.dropWhile (· != ']')).drop 1)
  | n + 1, current, c :: cs => scanKeys n (current ++ [c]) cs

/-- The members that a path stands for. A path that starts with a key in brackets reaches into the
data as a whole. -/
def expand (path : String) : Expr :=
  match scanKeys path.toList.length [] path.toList with
  | [] => .variable path
  | .identifier name :: keys => keys.foldl .getter (.variable name)
  | key :: keys => keys.foldl .getter (.getter (.variable "&") key)

end DollarPath

namespace Parser

def rawText : Parser (Option Expr) := do
  match ← kind with
  | .raw s => advance; return some (.raw s)
  | _ => return none

def dollarVariable : Parser (Option Expr) := do
  match ← kind with
  | .variable path => advance; return some (.island (DollarPath.expand path))
  | _ => return none

def documentParts (nested : Nested) : Nat → Parser (List Expr)
  | 0 => return []
  | n + 1 => do
    match ← firstOf [rawText, island nested, dollarVariable] with
    | some e => return e :: (← documentParts nested n)
    | none => return []

/-- The whole text in one of its forms, with nothing behind it. -/
def source (o : ParseOptions) : Parser Expr := do
  let nested := nestedGoal o.namespaces o.maxDepth
  let e ←
    match o.form with
    | .variable => required (withMembers nested (variableName o.namespaces nested))
    | .expression =>
      if (← current).isEof then pure (.literal .undefined) else expression nested
    | .template => pure (.document (← documentParts nested (← remaining)))
  if (← current).isEof then return e else fatal

end Parser

/-- The tree of a source text. -/
def parse (src : String) (o : ParseOptions) : Except ParseError Expr := do
  let c ← Cursor.ofSource src.toList o.lexer
  let (e, _) ← (Parser.source o).run c
  return e

end TemplateFormula
