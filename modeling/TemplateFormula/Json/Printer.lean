import TemplateFormula.Value.Conversion

/-!
# Writing JSON

Compact JSON, or JSON indented by a number of spaces for each level. Members without a JSON form
are left out of objects and written as `null` in arrays, numbers that are not finite as `null`, and
dates as their text.
-/

namespace TemplateFormula.Json

open Calendar (Zone)

def hexChar (n : Nat) : Char := if n < 10 then Char.ofNat (48 + n) else Char.ofNat (87 + n)

def unicodeEscape (n : Nat) : List Char :=
  ['\\', 'u', hexChar (n / 4096 % 16), hexChar (n / 256 % 16), hexChar (n / 16 % 16),
   hexChar (n % 16)]

def escapeChar (c : Char) : List Char :=
  match c with
  | '"' => ['\\', '"']
  | '\\' => ['\\', '\\']
  | '\n' => ['\\', 'n']
  | '\r' => ['\\', 'r']
  | '\t' => ['\\', 't']
  | '\x08' => ['\\', 'b']
  | '\x0c' => ['\\', 'f']
  | c => if Text.isControl c then unicodeEscape c.toNat else [c]

def quote (cs : List Char) : List Char := '"' :: cs.flatMap escapeChar ++ ['"']

/-- Values without a JSON form. -/
def isSkipped : Value → Bool
  | .undefined | .function _ => true
  | _ => false

def spaces (n : Nat) : List Char := List.replicate n ' '

/-- Items between brackets, on lines of their own unless the indentation is zero. -/
def bracket (indent level : Nat) (opening closing : Char) (items : List (List Char)) :
    List Char :=
  if items.isEmpty then [opening, closing]
  else if indent = 0 then opening :: Text.join [','] items ++ [closing]
  else
    let inner := spaces (indent * (level + 1))
    opening :: '\n' :: Text.join [',', '\n'] (items.map (inner ++ ·)) ++
      '\n' :: spaces (indent * level) ++ [closing]

def nullChars : List Char := ['n', 'u', 'l', 'l']

def colon (indent : Nat) : List Char := if indent = 0 then [':'] else [':', ' ']

variable (zone : Zone) (indent : Nat)

mutual

def chars (level : Nat) : Value → List Char
  | .undefined | .null | .function _ => nullChars
  | .boolean b => if b then ['t', 'r', 'u', 'e'] else ['f', 'a', 'l', 's', 'e']
  | .number x => if x.isFinite then Number.chars x else nullChars
  | .text s => quote s.toList
  | .date s => quote (Calendar.isoText zone s).toList
  | .array items => bracket indent level '[' ']' (itemChars (level + 1) items)
  | .object ms => bracket indent level '\x7b' '\x7d' (memberChars (level + 1) ms)

def itemChars (level : Nat) : List Value → List (List Char)
  | [] => []
  | v :: vs => chars level v :: itemChars level vs

def memberChars (level : Nat) : List (String × Value) → List (List Char)
  | [] => []
  | (k, v) :: ms =>
    if isSkipped v then memberChars level ms
    else (quote k.toList ++ colon indent ++ chars level v) :: memberChars level ms

end

/-- The JSON of a value, unless it has none. -/
def print? (v : Value) : Option String :=
  if isSkipped v then none else some (String.ofList (chars zone indent 0 v))

def print (v : Value) : String := (print? zone indent v).getD "null"

end TemplateFormula.Json
