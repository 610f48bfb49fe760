import TemplateFormula.Source.Parser

/-!
# A parser over a buffer of tokens

The parser of the grammar as it runs on a state: tokens are pulled from the lexer when the cursor
moves past those that are buffered, and stay in the buffer, so that going back is a matter of the
cursor. Depth is a counter. Loops take as many steps as there can be tokens ahead.
-/

namespace TemplateFormula

/-- A token where there is none. -/
def Token.missing : Token := ⟨.eof, none, .start, .start⟩

structure Buffer where
  lexer : Lexer
  /-- The tokens that have been pulled. -/
  tokens : List Token
  cursor : Nat
  /-- The number of nested goals around the cursor. -/
  depth : Nat

namespace Buffer

def ofSource (source : List Char) (options : LexerOptions) : Buffer :=
  ⟨Lexer.ofSource source options, [], 0, 0⟩

variable (b : Buffer)

def here : Token := b.tokens.getD b.cursor .missing

/-- A bound on the tokens from the current one on. -/
def ahead : Nat := b.tokens.length - b.cursor + (b.lexer.rest.length + 1)

end Buffer

/-- The state is kept where an error is met. -/
abbrev Buffered (α : Type) := EStateM ParseError Buffer α

namespace Buffered

section Steps

def pull : Buffered PUnit := fun b =>
  match b.lexer.nextToken with
  | (.ok t, l) => .ok ⟨⟩ { b with lexer := l, tokens := b.tokens ++ [t] }
  | (.error e, l) => .error (.lex e) { b with lexer := l }

def pulls : Nat → Buffered PUnit
  | 0 => pure ⟨⟩
  | n + 1 => do
    pull
    pulls n

/-- Pulls tokens until the cursor is on one. -/
def fill : Buffered PUnit := fun b => pulls (b.cursor + 1 - b.tokens.length) b

def advance : Buffered PUnit := fun b => fill { b with cursor := b.cursor + 1 }

def place : Buffered Nat := return (← get).cursor

def goBack (place : Nat) : Buffered PUnit := modify fun b => { b with cursor := place }

def stepBack : Buffered PUnit := modify fun b => { b with cursor := b.cursor - 1 }

def current : Buffered Token := return (← get).here

def kind : Buffered TokenKind := return (← current).kind

def ahead : Buffered Nat := return (← get).ahead

def check (symbol : String) : Buffered Bool := return (← current).isPunctuator symbol

def fatal {α : Type} : Buffered α := do
  let t ← current
  throw (.unexpectedToken t.text t.start)

def tooDeep {α : Type} : Buffered α := do
  let t ← current
  throw (.tooDeep t.start)

def expect (symbol : String) : Buffered PUnit := do
  if ← check symbol then advance else fatal

def required {α : Type} (q : Buffered (Option α)) : Buffered α := do
  match ← q with
  | some a => pure a
  | none => fatal

def firstOf : List (Buffered (Option Expr)) → Buffered (Option Expr)
  | [] => pure none
  | q :: qs => do
    match ← q with
    | some e => pure (some e)
    | none => firstOf qs

/-- Runs a parser one level deeper. The level is left at the end, also with an error, but not if
there is no such level. -/
def nest {α : Type} (maxDepth : Nat) (q : Buffered α) : Buffered α := fun b =>
  let deeper := { b with depth := b.depth + 1 }
  if maxDepth < deeper.depth then tooDeep deeper
  else
    match q deeper with
    | .ok a b => .ok a { b with depth := b.depth - 1 }
    | .error e b => .error e { b with depth := b.depth - 1 }

end Steps

section Operands

def literal : Buffered (Option Expr) := do
  match ← kind with
  | .boolean b => advance; pure (some (.literal (.boolean b)))
  | .null => advance; pure (some (.literal .null))
  | .undefined => advance; pure (some (.literal .undefined))
  | _ => pure none

def number : Buffered (Option Expr) := do
  match ← kind with
  | .number x => advance; pure (some (.number x))
  | _ => pure none

def text : Buffered (Option Expr) := do
  match ← kind with
  | .text s => advance; pure (some (.text s))
  | _ => pure none

def identifier : Buffered (Option Expr) := do
  let t ← current
  match t.kind with
  | .identifier name => advance; pure (some (.identifier name))
  | .boolean _ | .null | .undefined => advance; pure (some (.identifier t.text))
  | _ => pure none

end Operands

abbrev Nested := Parser.Goal → Buffered (Option Expr)

section Lists

variable (nested : Nested)

def expression : Buffered Expr := required (nested .expression)

def members (closing : String) : Nat → Buffered (List Expr)
  | 0 => pure []
  | n + 1 => do
    let e ← expression nested
    if ← check "," then
      advance
      return e :: (← members closing n)
    else if ← check closing then
      advance
      return [e]
    else fatal

def list (opening closing : String) : Buffered (Option (List Expr)) := do
  if ← check opening then
    advance
    if ← check closing then
      advance
      return some []
    else return some (← members nested closing (← ahead))
  else return none

def array : Buffered (Option Expr) := return (← list nested "[" "]").map .array

def parenthesized : Buffered (Option Expr) := do
  match ← list nested "(" ")" with
  | none => return none
  | some [e] => return some e
  | some es => return some (.sequence es)

def bracketed : Buffered (Option Expr) := do
  if ← check "[" then
    advance
    let e ← expression nested
    expect "]"
    return some e
  else return none

def objectKey : Buffered (Option Expr) := firstOf [identifier, text, number, bracketed nested]

def objectMembers : Nat → Buffered (List (Expr × Expr))
  | 0 => pure []
  | n + 1 => do
    let key ← required (objectKey nested)
    expect ":"
    let value ← expression nested
    if ← check "," then
      advance
      return (key, value) :: (← objectMembers n)
    else if ← check "\x7d" then
      advance
      return [(key, value)]
    else fatal

def object : Buffered (Option Expr) := do
  if ← check "\x7b" then
    advance
    if ← check "\x7d" then
      advance
      return some (.object [])
    else return some (.object (← objectMembers nested (← ahead)))
  else return none

def templateParts : Nat → Buffered (List Expr)
  | 0 => pure []
  | n + 1 => do
    if ← check Parser.backtick then
      advance
      return []
    else
      match ← kind with
      | .openHole =>
        advance
        let e ← expression nested
        if (← kind) == .closeHole then
          advance
          return e :: (← templateParts n)
        else fatal
      | .templateRaw s =>
        advance
        return .templateRaw s :: (← templateParts n)
      | _ => fatal

def template : Buffered (Option Expr) := do
  if ← check Parser.backtick then
    advance
    return some (.template (← templateParts nested (← ahead)))
  else return none

end Lists

section Filters

def skipBlankChars : Nat → Buffered PUnit
  | 0 => pure ⟨⟩
  | n + 1 => do
    if Parser.isBlankChar (← kind) then
      advance
      skipBlankChars n

def skipBlanks : Buffered PUnit := do skipBlankChars (← ahead)

def filterName : Buffered String := do
  match ← kind with
  | .identifier name => advance; pure name
  | _ => fatal

variable (nested : Nested) (island : Buffered (Option Expr))

def argumentValue : Buffered (Option Expr) :=
  firstOf [literal, number, text, template nested, array nested, island, object nested]

def argumentParts : Nat → List FilterArg → Buffered (List FilterArg)
  | 0, parts => pure parts
  | n + 1, parts => do
    if Parser.endsArgument (← kind) then return parts
    else
      match ← argumentValue nested island with
      | some e => argumentParts n (.expr e :: parts)
      | none =>
        let t ← current
        if Parser.isFreeText t.kind then
          advance
          argumentParts n (Parser.addText t.text parts)
        else fatal

def arguments : Nat → Buffered (List FilterArg)
  | 0 => pure []
  | n + 1 => do
    if ← check ":" then
      advance
      skipBlanks
      let parts ← argumentParts nested island (← ahead) []
      return Parser.argument parts :: (← arguments n)
    else return []

def filterCalls : Nat → Buffered (List FilterCall)
  | 0 => pure []
  | n + 1 => do
    if (← kind) == .openFilter then
      advance
      skipBlanks
      let name ← filterName
      skipBlanks
      let args ← arguments nested island (← ahead)
      return .mk name args :: (← filterCalls n)
    else return []

def piped : Buffered (Option Expr) := do
  match ← nested .expression with
  | none => return none
  | some e =>
    match ← filterCalls nested island (← ahead) with
    | [] => return some e
    | calls => return some (.filter e calls)

def islandWith : Buffered (Option Expr) := do
  if (← kind) == .openIsland then
    advance
    let body ← required (piped nested island)
    if (← kind) == .closeIsland then
      advance
      return some (.island body)
    else fatal
  else return none

end Filters

def islandNested (nested : Nested) : Nat → Buffered (Option Expr)
  | 0 => pure none
  | n + 1 => islandWith nested (islandNested nested n)

def island (nested : Nested) : Buffered (Option Expr) := do islandNested nested (← ahead)

section Calls

variable (namespaces : List String) (nested : Nested)

def variableName : Buffered (Option Expr) := do
  if ← check "&" then
    advance
    return some (.variable "&")
  else
    match ← kind with
    | .identifier name =>
      advance
      if (← check ":") && namespaces.contains name then
        advance
        return some (.inNamespace name (← required (nested .operand)))
      else return some (.variable name)
    | _ => return none

/-- A name and a list in parentheses. Without the list the name is left to others. -/
def call : Buffered (Option Expr) := do
  match ← kind with
  | .identifier name =>
    advance
    if ← check "(" then return (← list nested "(" ")").map (.call name)
    else
      stepBack
      return none
  | _ => return none

/-- Names between commas up to the closing parenthesis, or back to where the list starts. -/
def parameters (start : Nat) : Nat → Bool → Buffered (Option (List String))
  | 0, _ => do
    goBack start
    return none
  | n + 1, expectName => do
    if ← check ")" then
      advance
      return some []
    else
      match ← kind with
      | .identifier name =>
        if expectName then
          advance
          return (← parameters start n false).map (name :: ·)
        else
          goBack start
          return none
      | k =>
        if !expectName && k.isPunctuator "," then
          advance
          parameters start n true
        else
          goBack start
          return none

def parameterList : Buffered (Option (List String)) := do
  if ← check "(" then
    let start ← place
    advance
    parameters start (← ahead) true
  else return none

def parameter : Buffered (Option (List String)) := do
  match ← kind with
  | .identifier name => advance; return some [name]
  | _ => return none

/-- An arrow behind parameters. Without it the parameters are left to others. -/
def arrowSign (start : Nat) (params : List String) : Buffered (Option (List String)) := do
  if ← check "=" then
    advance
    if ← check ">" then
      advance
      return some params
    else
      goBack start
      return none
  else
    goBack start
    return none

def arrowHead : Buffered (Option (List String)) := do
  let start ← place
  let params ←
    match ← parameterList with
    | some params => pure (some params)
    | none => parameter
  match params with
  | none => return none
  | some params => arrowSign start params

def arrow : Buffered (Option Expr) := do
  match ← arrowHead with
  | some params => return some (.function params (← expression nested))
  | none => return none

def primary : Buffered (Option Expr) :=
  firstOf [variableName namespaces nested, literal, number, text, template nested, array nested,
    object nested, parenthesized nested, island nested]

def operandHead : Buffered (Option Expr) :=
  firstOf [call nested, arrow nested, primary namespaces nested]

def memberKey : Buffered Expr := required (firstOf [identifier, number, island nested])

def membersOf : Nat → Expr → Buffered Expr
  | 0, host => return host
  | n + 1, host => do
    if ← check "." then
      advance
      let key ← memberKey nested
      membersOf n (.getter host key)
    else if ← check "[" then
      advance
      let key ← expression nested
      expect "]"
      membersOf n (.getter host key)
    else return host

def withMembers (head : Buffered (Option Expr)) : Buffered (Option Expr) := do
  match ← head with
  | none => return none
  | some e => return some (← membersOf nested (← ahead) e)

def operand : Buffered (Option Expr) := withMembers nested (operandHead namespaces nested)

end Calls

section Operators

variable (namespaces : List String) (nested : Nested)

def unaryOps : Nat → Buffered (List UnaryOp)
  | 0 => return []
  | n + 1 => do
    match ← kind with
    | .punctuator s =>
      match UnaryOp.ofSymbol? s with
      | some op =>
        advance
        return op :: (← unaryOps n)
      | none => return []
    | _ => return []

def unary : Buffered (Option Expr) := do
  let ops ← unaryOps (← ahead)
  match ← operand namespaces nested with
  | some e => return some (ops.foldr .unary e)
  | none => if ops.isEmpty then return none else fatal

def climb (right : Nat → Buffered (Option Expr)) (bound : Nat) : Nat → Expr → Buffered Expr
  | 0, left => return left
  | n + 1, left => do
    match Parser.binaryOp? (← kind) with
    | none => return left
    | some op =>
      if op.precedence < bound then return left
      else
        advance
        let e ← required (right (op.precedence + 1))
        climb right bound n (.binary op left e)

def binary : Nat → Nat → Buffered (Option Expr)
  | 0, _ => unary namespaces nested
  | n + 1, bound => do
    match ← unary namespaces nested with
    | none => return none
    | some left => return some (← climb (binary n) bound (← ahead) left)

def conditional : Buffered (Option Expr) := do
  match ← binary namespaces nested (BinaryOp.maxPrecedence + 1) 1 with
  | none => return none
  | some test =>
    if ← check "?" then
      advance
      let consequent ← expression nested
      expect ":"
      let alternate ← expression nested
      return some (.conditional test consequent alternate)
    else return some test

end Operators

/-- Parses a nested goal where the levels that are left are counted. -/
def goal (o : ParseOptions) : Nat → Parser.Goal → Buffered (Option Expr)
  | 0, _ => nest o.maxDepth (pure none)
  | left + 1, .expression => nest o.maxDepth (conditional o.namespaces (goal o left))
  | left + 1, .operand => nest o.maxDepth (operand o.namespaces (goal o left))

section Documents

def rawText : Buffered (Option Expr) := do
  match ← kind with
  | .raw s => advance; return some (.raw s)
  | _ => return none

def dollarVariable : Buffered (Option Expr) := do
  match ← kind with
  | .variable path => advance; return some (.island (DollarPath.expand path))
  | _ => return none

def documentParts (nested : Nested) : Nat → Buffered (List Expr)
  | 0 => return []
  | n + 1 => do
    match ← firstOf [rawText, island nested, dollarVariable] with
    | some e => return e :: (← documentParts nested n)
    | none => return []

def source (o : ParseOptions) : Buffered Expr := do
  let nested := goal o o.maxDepth
  let e ←
    match o.form with
    | .variable => required (withMembers nested (variableName o.namespaces nested))
    | .expression =>
      if (← current).isEof then pure (.literal .undefined) else expression nested
    | .template => pure (.document (← documentParts nested (← ahead)))
  if (← current).isEof then return e else fatal

/-- The tree of a source text, for which tokens are pulled as they are needed. -/
def parse (src : String) (o : ParseOptions) : Except ParseError Expr :=
  match (do fill; source o : Buffered Expr) (.ofSource src.toList o.lexer) with
  | .ok e _ => .ok e
  | .error e _ => .error e

end Documents

end Buffered

end TemplateFormula
