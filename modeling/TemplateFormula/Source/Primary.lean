import TemplateFormula.Source.Cursor

/-!
# Operands

Literals, names, lists, templates, islands, calls and arrow functions, and the chains of members
and filters behind them. Wherever the grammar nests, it goes through a parser for nested goals,
which is the only place where depth is spent.
-/

namespace TemplateFormula.Parser

/-- What is parsed one level deeper. -/
inductive Goal where
  | expression
  /-- An operand with its members, behind the name of a namespace. -/
  | operand
deriving Repr, DecidableEq

abbrev Nested := Goal → Parser (Option Expr)

def literal : Parser (Option Expr) := do
  match ← kind with
  | .boolean b => advance; pure (some (.literal (.boolean b)))
  | .null => advance; pure (some (.literal .null))
  | .undefined => advance; pure (some (.literal .undefined))
  | _ => pure none

def number : Parser (Option Expr) := do
  match ← kind with
  | .number x => advance; pure (some (.number x))
  | _ => pure none

def text : Parser (Option Expr) := do
  match ← kind with
  | .text s => advance; pure (some (.text s))
  | _ => pure none

/-- A property name. Keywords are names here. -/
def identifier : Parser (Option Expr) := do
  let t ← current
  match t.kind with
  | .identifier name => advance; pure (some (.identifier name))
  | .boolean _ | .null | .undefined => advance; pure (some (.identifier t.text))
  | _ => pure none

section Lists

variable (nested : Nested)

def expression : Parser Expr := required (nested .expression)

/-- Members behind an opening bracket, of which the last has no comma behind it. -/
def members (closing : String) : Nat → Parser (List Expr)
  | 0 => pure []
  | n + 1 => do
    let e ← expression nested
    if ← check "," then
      advance
      return e :: (← members closing n)
    else if ← check closing then
      advance
      return [e]
    else fatal

/-- Expressions between brackets. -/
def list (opening closing : String) : Parser (Option (List Expr)) := do
  if ← check opening then
    advance
    if ← check closing then
      advance
      return some []
    else return some (← members nested closing (← remaining))
  else return none

def array : Parser (Option Expr) := return (← list nested "[" "]").map .array

/-- A list in parentheses; one member stands for itself. -/
def parenthesized : Parser (Option Expr) := do
  match ← list nested "(" ")" with
  | none => return none
  | some [e] => return some e
  | some es => return some (.sequence es)

def bracketed : Parser (Option Expr) := do
  if ← check "[" then
    advance
    let e ← expression nested
    expect "]"
    return some e
  else return none

def objectKey : Parser Expr := required (firstOf [identifier, text, number, bracketed nested])

def objectMembers : Nat → Parser (List (Expr × Expr))
  | 0 => pure []
  | n + 1 => do
    let key ← objectKey nested
    expect ":"
    let value ← expression nested
    if ← check "," then
      advance
      return (key, value) :: (← objectMembers n)
    else if ← check "\x7d" then
      advance
      return [(key, value)]
    else fatal

def object : Parser (Option Expr) := do
  if ← check "\x7b" then
    advance
    if ← check "\x7d" then
      advance
      return some (.object [])
    else return some (.object (← objectMembers nested (← remaining)))
  else return none

def backtick : String := String.singleton Scan.backtick

def templateParts : Nat → Parser (List Expr)
  | 0 => pure []
  | n + 1 => do
    if ← check backtick then
      advance
      return []
    else
      match ← kind with
      | .openHole =>
        advance
        let e ← expression nested
        if (← kind) == .closeHole then
          advance
          return e :: (← templateParts n)
        else fatal
      | .templateRaw s =>
        advance
        return .templateRaw s :: (← templateParts n)
      | _ => fatal

def template : Parser (Option Expr) := do
  if ← check backtick then
    advance
    return some (.template (← templateParts nested (← remaining)))
  else return none

def isBlankChar : TokenKind → Bool
  | .char c => Text.isBlank c
  | _ => false

def skipBlankChars : Nat → Parser PUnit
  | 0 => pure ⟨⟩
  | n + 1 => do
    if isBlankChar (← kind) then
      advance
      skipBlankChars n

def skipBlanks : Parser PUnit := do skipBlankChars (← remaining)

end Lists

/-- Adds free text to the parts of a filter argument, the last of which comes first. -/
def addText (s : String) : List FilterArg → List FilterArg
  | .text t :: parts => .text (t ++ s) :: parts
  | parts => .text s :: parts

/-- Drops blanks at the end of the last part, and the part if nothing is left of it. -/
def trimLast : List FilterArg → List FilterArg
  | .text t :: parts =>
    let kept := Text.trimEnd t.toList
    if kept.isEmpty then parts else .text (String.ofList kept) :: parts
  | parts => parts

/-- Parts in reverse order as one argument. -/
def argument (parts : List FilterArg) : FilterArg :=
  match trimLast parts with
  | [] => .text ""
  | [part] => part
  | several => .mixed several.reverse

section Filters

variable (nested : Nested) (island : Parser (Option Expr))

def argumentValue : Parser (Option Expr) :=
  firstOf [literal, number, text, template nested, array nested, island, object nested]

def endsArgument (k : TokenKind) : Bool :=
  k.isPunctuator ":" || k == .openFilter || k == .closeIsland

def isFreeText : TokenKind → Bool
  | .identifier _ | .punctuator _ | .char _ => true
  | _ => false

def argumentParts : Nat → List FilterArg → Parser (List FilterArg)
  | 0, parts => pure parts
  | n + 1, parts => do
    if endsArgument (← kind) then return parts
    else
      match ← argumentValue nested island with
      | some e => argumentParts n (.expr e :: parts)
      | none =>
        let t ← current
        if isFreeText t.kind then
          advance
          argumentParts n (addText t.text parts)
        else fatal

def arguments : Nat → Parser (List FilterArg)
  | 0 => pure []
  | n + 1 => do
    if ← check ":" then
      advance
      skipBlanks
      let parts ← argumentParts nested island (← remaining) []
      return argument parts :: (← arguments n)
    else return []

def filterName : Parser String := do
  match ← kind with
  | .identifier name => advance; pure name
  | _ => fatal

def filterCalls : Nat → Parser (List FilterCall)
  | 0 => pure []
  | n + 1 => do
    if (← kind) == .openFilter then
      advance
      skipBlanks
      let name ← filterName
      skipBlanks
      let args ← arguments nested island (← remaining)
      return .mk name args :: (← filterCalls n)
    else return []

/-- The contents of an island: an expression, which may be piped through filters. -/
def piped : Parser (Option Expr) := do
  match ← nested .expression with
  | none => return none
  | some e =>
    match ← filterCalls nested island (← remaining) with
    | [] => return some e
    | calls => return some (.filter e calls)

def islandWith : Parser (Option Expr) := do
  if (← kind) == .openIsland then
    advance
    let body ← required (piped nested island)
    if (← kind) == .closeIsland then
      advance
      return some (.island body)
    else fatal
  else return none

end Filters

/-- An island. Filter arguments may hold islands of their own without spending depth; every one
takes a token, so the tokens left bound their nesting. -/
def islandNested (nested : Nested) : Nat → Parser (Option Expr)
  | 0, c => .ok (none, c)
  | n + 1, c => islandWith nested (islandNested nested n) c

def island (nested : Nested) : Parser (Option Expr) := do islandNested nested (← remaining)

end TemplateFormula.Parser
