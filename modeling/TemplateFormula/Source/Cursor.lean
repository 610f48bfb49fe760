import TemplateFormula.Source.Lexer
import TemplateFormula.Expr

/-!
# Reading tokens

A parser reads from a cursor on the tokens of a text. The tokens end with the end of the text or
with the error that the lexer ran into, which is met on moving past the last token before it.
-/

namespace TemplateFormula

inductive ParseError where
  | lex (e : LexError)
  | unexpectedToken (found : String) (place : Position)
  | tooDeep (place : Position)
deriving Repr, DecidableEq

namespace ParseError

def place : ParseError → Position
  | lex e => e.place
  | unexpectedToken _ p => p
  | tooDeep p => p

def message : ParseError → String
  | lex e => e.message
  | unexpectedToken found p => "Unexpected token " ++ found ++ " in " ++ p.shown
  | tooDeep p => "Expression nested too deeply in " ++ p.shown

end ParseError

structure Cursor where
  current : Token
  rest : List Token
  failure : Option LexError

namespace Cursor

def ofTokens (failure : Option LexError) : List Token → Except ParseError Cursor
  | t :: ts => .ok ⟨t, ts, failure⟩
  | [] =>
    match failure with
    | some e => .error (.lex e)
    | none => .ok ⟨⟨.eof, none, .start, .start⟩, [], none⟩

/-- A cursor on the first token of a text. -/
def ofSource (source : List Char) (options : LexerOptions) : Except ParseError Cursor :=
  let (tokens, failure, _) := (Lexer.ofSource source options).trace
  ofTokens failure (tokens.map (·.1))

def advance (c : Cursor) : Except ParseError Cursor :=
  match c.rest with
  | t :: ts => .ok ⟨t, ts, c.failure⟩
  | [] =>
    match c.failure with
    | some e => .error (.lex e)
    | none => .ok c

/-- The number of tokens from the current one on. -/
def remaining (c : Cursor) : Nat := c.rest.length + 1

end Cursor

abbrev Parser (α : Type) := StateT Cursor (Except ParseError) α

namespace Parser

def current : Parser Token := return (← get).current

def kind : Parser TokenKind := return (← current).kind

def advance : Parser PUnit := fun c => (c.advance).map fun c' => (⟨⟩, c')

def remaining : Parser Nat := return (← get).remaining

def check (symbol : String) : Parser Bool := return (← current).isPunctuator symbol

/-- Fails at the current token. -/
def fatal {α : Type} : Parser α := do
  let t ← current
  throw (.unexpectedToken t.text t.start)

def tooDeep {α : Type} : Parser α := do
  let t ← current
  throw (.tooDeep t.start)

def expect (symbol : String) : Parser PUnit := do
  if ← check symbol then advance else fatal

def required {α : Type} (p : Parser (Option α)) : Parser α := do
  match ← p with
  | some a => pure a
  | none => fatal

/-- The first alternative that matches. -/
def firstOf : List (Parser (Option Expr)) → Parser (Option Expr)
  | [] => pure none
  | p :: ps => do
    match ← p with
    | some e => pure (some e)
    | none => firstOf ps

end Parser

end TemplateFormula
