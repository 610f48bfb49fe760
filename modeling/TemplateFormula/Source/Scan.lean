import TemplateFormula.Source.Token
import TemplateFormula.Text.Alphabetic
import TemplateFormula.Text.Escape

/-!
# Scanning

What stands at the front of a text: keywords, identifiers, numerals, quoted texts, punctuators and
stretches of literal text. A scanner that fails names the offset of the character at fault.
-/

namespace TemplateFormula.Scan

def isIdentifierStart (c : Char) : Bool :=
  Text.isLetter c || c == '_' || c == '$' || c == '@'

def isIdentifierPart (c : Char) : Bool := Text.isLetterOrNumeral c || c == '_'

def keywords : List (List Char × TokenKind) :=
  [(['t', 'r', 'u', 'e'], .boolean true), (['n', 'u', 'l', 'l'], .null),
   (['f', 'a', 'l', 's', 'e'], .boolean false),
   (['u', 'n', 'd', 'e', 'f', 'i', 'n', 'e', 'd'], .undefined)]

def matchesWord (word cs : List Char) : Bool :=
  Number.asciiLower (cs.take word.length) == word &&
    !(cs.drop word.length).head?.any isIdentifierPart

/-- A keyword in any letter case, with no identifier character behind it. -/
def keyword? (cs : List Char) : Option Lexeme :=
  (keywords.find? fun k => matchesWord k.1 cs).map fun k =>
    ⟨k.2, some (String.ofList (cs.take k.1.length)), k.1.length⟩

def identifier? : List Char → Option Lexeme
  | [] => none
  | c :: cs =>
    if isIdentifierStart c then
      let name := c :: cs.takeWhile isIdentifierPart
      some ⟨.identifier (String.ofList name), none, name.length⟩
    else none

def wholeChars : List Char → List Char
  | '0' :: _ => ['0']
  | cs => cs.takeWhile Char.isDigit

def fractionChars : List Char → List Char
  | '.' :: cs =>
    let digits := cs.takeWhile Char.isDigit
    if digits.isEmpty then [] else '.' :: digits
  | _ => []

def exponentSignChars : List Char → List Char
  | '+' :: _ => ['+']
  | '-' :: _ => ['-']
  | _ => []

def exponentChars : List Char → List Char
  | c :: cs =>
    if c = 'e' ∨ c = 'E' then
      let sign := exponentSignChars cs
      let digits := (cs.drop sign.length).takeWhile Char.isDigit
      if digits.isEmpty then [] else c :: sign ++ digits
    else []
  | [] => []

/-- The longest numeral without a sign: no leading zero, digits behind a point and an exponent. -/
def unsignedChars (cs : List Char) : List Char :=
  let whole := wholeChars cs
  if whole.isEmpty then []
  else
    let fraction := fractionChars (cs.drop whole.length)
    whole ++ fraction ++ exponentChars (cs.drop (whole.length + fraction.length))

/-- A minus sign belongs to the numeral where no operand stands before it. -/
def numeralChars (afterOperand : Bool) (cs : List Char) : List Char :=
  match cs with
  | '-' :: r =>
    let digits := unsignedChars r
    if afterOperand || digits.isEmpty then [] else '-' :: digits
  | _ => unsignedChars cs

def number? (afterOperand : Bool) (cs : List Char) : Option Lexeme :=
  let spelling := numeralChars afterOperand cs
  if spelling.isEmpty then none
  else
    (Number.parse? spelling).map fun x =>
      ⟨.number x, some (String.ofList spelling), spelling.length⟩

/-- Letters and signs that may follow a backslash. -/
def isEscape (c : Char) : Bool :=
  c == '"' || c == '\\' || c == '/' || c == 'b' || c == 'f' || c == 'n' || c == 'r' || c == 't' ||
  c == 'u'

def backtick : Char := '\x60'

inductive QuoteFault where
  | unterminated
  | unexpected (offset : Nat)
deriving Repr, DecidableEq

/-- The number of characters up to the closing quote. -/
def quotedLength (quote : Char) : Nat → List Char → Except QuoteFault Nat
  | _, [] => .error .unterminated
  | _, ['\\'] => .error .unterminated
  | n, '\\' :: c :: cs =>
    if isEscape c || c == quote then quotedLength quote (n + 2) cs
    else .error (.unexpected (n + 1))
  | n, c :: cs => if c = quote then .ok n else quotedLength quote (n + 1) cs

def quoted? : List Char → Except QuoteFault (Option Lexeme)
  | [] => .ok none
  | q :: cs =>
    if q = '"' ∨ q = '\'' then
      match quotedLength q 1 cs with
      | .error e => .error e
      | .ok n =>
        .ok (some
          ⟨.text (String.ofList (Text.unescape (cs.take (n - 1)))),
            some (String.ofList ((q :: cs).take (n + 1))), n + 1⟩)
    else .ok none

/-- Longer punctuators come before their beginnings. -/
def punctuators : List String :=
  ["===", "!==", ">>>", "==", "!=", "<>", "<=", ">=", "||", "&&", "++", "--", "<<", ">>", "**",
   "+=", "*=", "/=", "<", ">", "=", "*", "/", "-", "+", "^", "!", "~", "%", "&", "|", "(", ")",
   "[", "]", "\x7b", "\x7d", "?", ":", ";", ",", ".", "$"]

def punctuator? (cs : List Char) : Option Lexeme :=
  (punctuators.find? fun p => p.toList.isPrefixOf cs).map fun p =>
    ⟨.punctuator p, none, p.toList.length⟩

def isPunctuatorChar (c : Char) : Bool := punctuators.contains (String.singleton c)

/-- One character of free text. A backslash takes a punctuator or an escape behind it; alone it is
at fault. -/
def freeChar? : List Char → Option Lexeme
  | '\\' :: c :: _ =>
    if c == '$' || c == backtick || isEscape c || isPunctuatorChar c then
      some ⟨.char (Text.escapedChar c), none, 2⟩
    else none
  | ['\\'] => none
  | c :: _ => some ⟨.char c, none, 1⟩
  | [] => none

def isPathStart (c : Char) : Bool := c.isAlphanum || c == '_' || c == '.'

def isPathPart (c : Char) : Bool := isPathStart c || c == '[' || c == ']'

/-- The path behind a dollar sign in literal text, without trailing dots. -/
def dollarPath (cs : List Char) : List Char :=
  if cs.head?.any isPathStart then ((cs.takeWhile isPathPart).reverse.dropWhile (· == '.')).reverse
  else []

/-- A stretch of literal text: its length and the lexeme found at its end. -/
structure Stretch where
  length : Nat
  next : Option Lexeme

/-- Literal text up to an island or a dollar path, or the offset of a bad escape. -/
def rawStretch : Nat → List Char → Except Nat Stretch
  | n, [] => .ok ⟨n, none⟩
  | n, ['\\'] => .error (n + 1)
  | n, '\\' :: c :: cs =>
    if isEscape c || c == '$' || c == backtick then rawStretch (n + 2) cs else .error (n + 1)
  | n, '$' :: cs =>
    match cs.head? with
    | some '\x7b' => .ok ⟨n, none⟩
    | some '$' => .ok ⟨n, some ⟨.variable "&", some "$$", 2⟩⟩
    | _ =>
      let path := dollarPath cs
      if path.isEmpty then rawStretch (n + 1) cs
      else
        .ok ⟨n, some ⟨.variable (String.ofList path), some (String.ofList ('$' :: path)),
          path.length + 1⟩⟩
  | n, _ :: cs => rawStretch (n + 1) cs

/-- Literal text of a template up to a hole or the closing backtick, or the offset of a bad
escape. -/
def templateStretch : Nat → List Char → Except Nat Stretch
  | n, [] => .ok ⟨n, none⟩
  | n, ['\\'] => .ok ⟨n + 1, none⟩
  | n, '\\' :: c :: cs =>
    if isEscape c || c == '$' || c == backtick then templateStretch (n + 2) cs
    else .error (n + 1)
  | n, '$' :: '\x7b' :: _ => .ok ⟨n, some ⟨.openHole, none, 2⟩⟩
  | n, c :: cs =>
    if c = backtick then .ok ⟨n, some ⟨.punctuator (String.singleton backtick), none, 1⟩⟩
    else templateStretch (n + 1) cs

end TemplateFormula.Scan
