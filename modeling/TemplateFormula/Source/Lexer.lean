import TemplateFormula.Source.Scan

/-!
# The lexer

Tokens are pulled one at a time. What a character means depends on the innermost of the constructs
that are open, which are kept on a stack of modes. Literal text can end in a second token, which
waits until the text has been delivered. An error leaves a state from which pulling can go on.
-/

namespace TemplateFormula

inductive Mode where
  /-- Literal text. -/
  | start
  /-- An island. -/
  | script
  /-- A hole of a backtick template. -/
  | expression
  /-- Braces inside an expression. -/
  | block
  /-- A backtick template. -/
  | template
  /-- A filter and its arguments. -/
  | filter
deriving Repr, DecidableEq

/-- What was left open at the end of the text. -/
inductive Construct where
  | mode (m : Mode)
  | quotation
deriving Repr, DecidableEq

def Construct.name : Construct → String
  | mode .start => "text"
  | mode .script | mode .filter => "script"
  | mode .expression => "template expression"
  | mode .block => "block"
  | mode .template => "template"
  | quotation => "string"

inductive LexError where
  | unexpectedChar (found : Char) (place : Position)
  | unterminated (construct : Construct) (place : Position)
deriving Repr, DecidableEq

namespace LexError

def place : LexError → Position
  | unexpectedChar _ p => p
  | unterminated _ p => p

end LexError

/-- The line and column of a place, as errors show them. -/
def Position.shown (p : Position) : String := toString p.line ++ ":" ++ toString p.column

def LexError.message : LexError → String
  | unexpectedChar c p => "Unexpected token " ++ String.singleton c ++ " in " ++ p.shown
  | unterminated c p => "Unterminated " ++ c.name ++ " at " ++ p.shown

structure LexerOptions where
  /-- The text is one expression rather than a template. -/
  bareExpression : Bool
  /-- A vertical bar in an island starts a filter. -/
  allowFilter : Bool
deriving Repr, DecidableEq

structure Lexer where
  rest : List Char
  position : Position
  /-- The open constructs, the innermost first. -/
  modes : List Mode
  baseDepth : Nat
  /-- A second token that was found together with the first. -/
  pending : Option Lexeme
  allowFilter : Bool
  /-- The last token ends an operand, so that a minus sign is an operator. -/
  afterOperand : Bool

namespace Lexer

def baseModes (bareExpression : Bool) : List Mode :=
  if bareExpression then [.expression, .start] else [.start]

def ofSource (source : List Char) (options : LexerOptions) : Lexer :=
  { rest := source
    position := .start
    modes := baseModes options.bareExpression
    baseDepth := (baseModes options.bareExpression).length
    pending := none
    allowFilter := options.allowFilter
    afterOperand := false }

variable (l : Lexer)

def mode : Mode := l.modes.headD .start

def depth : Nat := l.modes.length

def push (m : Mode) : Lexer := { l with modes := m :: l.modes }

def pop : Lexer := { l with modes := l.modes.tail }

/-- The error at a character some way ahead. -/
def unexpected (offset : Nat) : LexError :=
  .unexpectedChar ((l.rest[offset]?).getD '\x00') (l.position.advance (l.rest.take offset))

def isSpace (c : Char) : Bool := c == ' ' || c == '\t' || c == '\r' || c == '\n'

def skipsSpace : Mode → Bool
  | .script | .expression | .block => true
  | .start | .template | .filter => false

def skipSpace : Lexer :=
  if skipsSpace l.mode then
    { l with
      rest := l.rest.dropWhile isSpace
      position := l.position.advance (l.rest.takeWhile isSpace) }
  else l

abbrev Result (α : Type) := Except LexError α × Lexer

def openIsland? : Option (Lexeme × Lexer) :=
  match l.rest with
  | '$' :: '\x7b' :: _ => some (⟨.openIsland, none, 2⟩, l.push .script)
  | _ => none

/-- Delivers a stretch of literal text and keeps what was found behind it, or delivers that if the
stretch is empty. -/
def deliverStretch (kind : String → TokenKind) (s : Scan.Stretch) : Option Lexeme × Lexer :=
  if s.length = 0 then (s.next, l)
  else
    let spelling := l.rest.take s.length
    (some ⟨kind (String.ofList (Text.unescape spelling)), some (String.ofList spelling), s.length⟩,
      { l with pending := s.next })

/-- The mode that the end of a stretch of template text leads to. -/
def afterTemplate (next : Option Lexeme) : Lexer :=
  match next with
  | some x => if x.kind == .openHole then l.push .expression else l.pop
  | none => l

/-- A closing brace ends a filter, and then the construct around it. -/
def closeBrace (x : Lexeme) : Result Lexeme :=
  let l := if l.mode = .filter then l.pop else l
  if l.depth ≤ l.baseDepth then (.error (l.unexpected 0), l)
  else
    let kind :=
      match l.mode with
      | .script => TokenKind.closeIsland
      | .expression => TokenKind.closeHole
      | _ => x.kind
    (.ok { x with kind := kind }, l.pop)

/-- What a punctuator opens or closes. -/
def settle (x : Lexeme) : Result Lexeme :=
  if x.kind.isPunctuator "\x7b" then (.ok x, l.push .block)
  else if x.kind.isPunctuator "\x7d" then l.closeBrace x
  else if x.kind.isPunctuator "|" then
    if l.mode = .script ∧ l.allowFilter then
      (.ok { x with kind := .openFilter }, l.push .filter)
    else if l.mode = .filter then (.ok { x with kind := .openFilter }, l)
    else (.ok x, l)
  else (.ok x, l)

/-- A keyword, an identifier or a numeral. -/
def word? : Option Lexeme :=
  Scan.keyword? l.rest <|> Scan.identifier? l.rest <|> Scan.number? l.afterOperand l.rest

def scanExpression : Result Lexeme :=
  match l.word? with
  | some x => l.settle x
  | none =>
    match Scan.quoted? l.rest with
    | .error .unterminated => (.error (.unterminated .quotation l.position), l)
    | .error (.unexpected n) => (.error (l.unexpected n), l)
    | .ok (some x) => l.settle x
    | .ok none =>
      match Scan.punctuator? l.rest with
      | some x => l.settle x
      | none =>
        if l.rest.head? = some Scan.backtick then
          (.ok ⟨.punctuator (String.singleton Scan.backtick), none, 1⟩, l.push .template)
        else if l.mode = .filter then
          match Scan.freeChar? l.rest with
          | some x => l.settle x
          | none => (.error (l.unexpected 0), l)
        else (.error (l.unexpected 0), l)

def scanRaw : Result Lexeme :=
  match Scan.rawStretch 0 l.rest with
  | .error n => (.error (l.unexpected n), l)
  | .ok s =>
    match l.deliverStretch .raw s with
    | (some x, l) => (.ok x, l)
    | (none, l) =>
      match l.openIsland? with
      | some (x, l) => (.ok x, l)
      | none => (.error (l.unexpected 0), l)

def scanTemplate : Result Lexeme :=
  match Scan.templateStretch 0 l.rest with
  | .error n => (.error (l.unexpected n), l)
  | .ok s =>
    match (l.afterTemplate s.next).deliverStretch .templateRaw s with
    | (some x, l) => (.ok x, l)
    | (none, l) => (.error (l.unexpected 0), l)

/-- The next lexeme behind white space. -/
def scan : Result Lexeme :=
  let l := l.skipSpace
  if l.rest.isEmpty then
    if l.depth = l.baseDepth then (.ok ⟨.eof, none, 0⟩, l)
    else (.error (.unterminated (.mode l.mode) l.position), l)
  else
    match l.mode with
    | .start => l.scanRaw
    | .template => l.scanTemplate
    | _ =>
      match l.openIsland? with
      | some (x, l) => (.ok x, l)
      | none => l.scanExpression

def endsOperand (mode : Mode) : TokenKind → Bool
  | .number _ | .text _ | .identifier _ | .boolean _ | .null | .undefined => true
  | .punctuator s =>
    s == ")" || s == "]" || s == "\x7d" ||
      (s == String.singleton Scan.backtick && mode != .template)
  | _ => false

/-- Moves behind a lexeme and makes it a token. -/
def deliver (x : Lexeme) : Token × Lexer :=
  let stop := l.position.advance (l.rest.take x.length)
  (⟨x.kind, x.raw, l.position, stop⟩,
    { l with
      rest := l.rest.drop x.length
      position := stop
      afterOperand := endsOperand l.mode x.kind })

def nextToken : Result Token :=
  match l.pending with
  | some x =>
    let (t, l) := { l with pending := none }.deliver x
    (.ok t, l)
  | none =>
    match l.scan with
    | (.error e, l) => (.error e, l)
    | (.ok x, l) =>
      let (t, l) := l.deliver x
      (.ok t, l)

/-- The tokens up to the end of the text or the first error, with the state behind each. -/
def run : Nat → Lexer → List (Token × Lexer) × Option LexError × Lexer
  | 0, l => ([], none, l)
  | n + 1, l =>
    match l.nextToken with
    | (.error e, l) => ([], some e, l)
    | (.ok t, l) =>
      if t.isEof then ([(t, l)], none, l)
      else
        let (ts, e, last) := run n l
        ((t, l) :: ts, e, last)

/-- Every token but the last takes a character, so one pull more than there are characters
reaches the end. -/
def trace : List (Token × Lexer) × Option LexError × Lexer := run (l.rest.length + 1) l

end Lexer

end TemplateFormula
