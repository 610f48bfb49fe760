import TemplateFormula.Source.Position
import TemplateFormula.Number.Layout

/-!
# Tokens
-/

namespace TemplateFormula

inductive TokenKind where
  | boolean (b : Bool)
  | null
  | undefined
  | number (x : Float)
  | text (s : String)
  | raw (s : String)
  /-- A name or path behind a dollar sign in literal text. -/
  | variable (path : String)
  | openIsland
  | closeIsland
  | templateRaw (s : String)
  | openHole
  | closeHole
  | identifier (name : String)
  | punctuator (symbol : String)
  | openFilter
  /-- One character of free text in a filter argument. -/
  | char (c : Char)
  | eof
deriving BEq

/-- What a scanner found at the front of the text: its kind, its spelling where that differs from
what it means, and how many characters it takes. -/
structure Lexeme where
  kind : TokenKind
  raw : Option String
  length : Nat

structure Token where
  kind : TokenKind
  raw : Option String
  start : Position
  stop : Position

namespace TokenKind

def openIslandSymbol : String := "$\x7b"

def closeBrace : String := "\x7d"

def spelling : TokenKind → String
  | boolean b => if b then "true" else "false"
  | null => "null"
  | undefined => "undefined"
  | number x => Number.text x
  | text s | raw s | .variable s | templateRaw s | identifier s | punctuator s => s
  | openIsland | openHole => openIslandSymbol
  | closeIsland | closeHole => closeBrace
  | openFilter => "|"
  | char c => String.singleton c
  | eof => "EOF"

def isPunctuator (symbol : String) : TokenKind → Bool
  | punctuator s => s == symbol
  | _ => false

end TokenKind

namespace Token

/-- The token as it is written. -/
def text (t : Token) : String := t.raw.getD t.kind.spelling

def isPunctuator (t : Token) (symbol : String) : Bool := t.kind.isPunctuator symbol

def isEof (t : Token) : Bool :=
  match t.kind with
  | .eof => true
  | _ => false

end Token

end TemplateFormula
