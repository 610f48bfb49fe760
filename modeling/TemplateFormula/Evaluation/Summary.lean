import TemplateFormula.Evaluation.Options

/-!
# A summary of options

The names of what options add to the language, on one line and in ascending order. They are put in
double quotes, and characters that show nothing of their own (controls, blanks other than the space,
format and private characters, and the common combining marks) are written by their code points.
-/

namespace TemplateFormula.Text

def hexDigits (n : Nat) : List Char := Nat.toDigits 16 n

/-- Format characters, private characters and combining marks. -/
def hiddenRanges : List (Nat × Nat) :=
  [(0xAD, 0xAD), (0x300, 0x36F), (0x483, 0x489), (0x61C, 0x61C), (0x180E, 0x180E),
    (0x200B, 0x200F), (0x202A, 0x202E), (0x2060, 0x206F), (0x20D0, 0x20F0), (0xE000, 0xF8FF),
    (0xFE00, 0xFE0F), (0xFE20, 0xFE2F), (0xFEFF, 0xFEFF), (0xFFF0, 0xFFFB), (0xE0000, 0x10FFFF)]

def isHidden (c : Char) : Bool :=
  isControl c || (isBlank c && c != ' ') || inRanges hiddenRanges c.toNat

def quotedChar (c : Char) : List Char :=
  match c with
  | '"' => ['\\', '"']
  | '\\' => ['\\', '\\']
  | '\n' => ['\\', 'n']
  | '\r' => ['\\', 'r']
  | '\t' => ['\\', 't']
  | '\x00' => ['\\', '0']
  | c =>
    if isHidden c then '\\' :: 'u' :: '\x7b' :: hexDigits c.toNat ++ ['\x7d']
    else [c]

def quoted (s : String) : String :=
  String.ofList ('"' :: s.toList.flatMap quotedChar ++ ['"'])

end TemplateFormula.Text

namespace TemplateFormula.Options

variable {σ : Type} (o : Options σ)

def sortedNames {α : Type} (entries : List (String × α)) : List String :=
  (entries.map (·.1)).mergeSort fun a b => Text.order a.toList b.toList != .gt

def enumerate (names : List String) : String := String.intercalate ", " (names.map Text.quoted)

def summary : String :=
  let filter :=
    match o.defaultFilter with
    | some name => "Some(" ++ Text.quoted name ++ ")"
    | none => "None"
  "EvaluatorOptions \x7b functions: [" ++ enumerate (sortedNames o.handlers) ++
    "], filters: \x7b" ++ enumerate o.filters.names ++ "\x7d, default_filter: " ++ filter ++
    ", namespaces: [" ++ enumerate (sortedNames o.namespaces) ++ "] \x7d"

end TemplateFormula.Options
