import TemplateFormula.Number.Numeral

/-!
# Backslash escapes

Decoding of the escapes in literals and literal text. A four-digit code point that is none leaves
its `u` behind, and an unknown escape stays as written.
-/

namespace TemplateFormula.Text

def controlEscape? : Char → Option Char
  | 'b' => some '\x08'
  | 'f' => some '\x0c'
  | 'n' => some '\n'
  | 'r' => some '\r'
  | 't' => some '\t'
  | 'v' => some '\x0b'
  | _ => none

/-- The character that an escaped letter stands for, by itself if it has no meaning. -/
def escapedChar (c : Char) : Char := (controlEscape? c).getD c

def isQuotable (c : Char) : Bool :=
  c == '$' || c == '\x60' || c == '\\' || c == '"' || c == '\'' || c == '/'

def scalar? (n : Nat) : Option Char := if n.isValidChar then some (Char.ofNat n) else none

/-- Four characters read as a hexadecimal number, of which the first may be a plus sign. -/
def codePoint? (a b c d : Char) : Option Char :=
  (if a = '+' then Number.hexNat? [b, c, d] else Number.hexNat? [a, b, c, d]).bind scalar?

def escapeImage (c : Char) : List Char :=
  if isQuotable c then [c]
  else
    match controlEscape? c with
    | some d => [d]
    | none => ['\\', c]

def unescape : List Char → List Char
  | '\\' :: 'u' :: a :: b :: c :: d :: r =>
    match codePoint? a b c d with
    | some x => x :: unescape r
    | none => 'u' :: unescape (a :: b :: c :: d :: r)
  | '\\' :: 'u' :: r => 'u' :: unescape r
  | '\\' :: c :: r => escapeImage c ++ unescape r
  | ['\\'] => ['\\']
  | c :: r => c :: unescape r
  | [] => []

@[simp] theorem unescape_nil : unescape [] = [] := by simp [unescape]

end TemplateFormula.Text
