import TemplateFormula.Builtin.Basic

/-!
# Functions on text
-/

namespace TemplateFormula.Builtin

open Argument (chars number orUndefined strictNumber)

/-- A position in a text, brought between its ends. -/
def clampIndex (x : Float) (length : Nat) : Nat := (Number.clampInt 0 length x).toNat

/-- The text between two positions in either order. -/
def slice (cs : List Char) (a b : Float) : List Char :=
  let i := clampIndex a cs.length
  let j := clampIndex b cs.length
  (cs.drop (Nat.min i j)).take (Nat.max i j - Nat.min i j)

def left : Builtin := ofTotal fun zone args =>
  .ofChars (slice (chars zone args 0) 0 (strictNumber zone args 1))

def right : Builtin := ofTotal fun zone args =>
  let cs := chars zone args 0
  let length := Float.ofNat cs.length
  .ofChars (slice cs (length - strictNumber zone args 1) length)

def mid : Builtin := ofTotal fun zone args =>
  let start := strictNumber zone args 1
  .ofChars (slice (chars zone args 0) start (start + strictNumber zone args 2))

def len : Builtin := ofTotal fun zone args => .ofNat (chars zone args 0).length

/-- The number of members of a single array, and otherwise the length of the arguments' text. -/
def length : Builtin := ofTotal fun zone args =>
  match args with
  | [.array items] => .ofNat items.length
  | [v] => .ofNat (v.chars zone).length
  | args => .ofNat ((Value.array args).chars zone).length

def isEmpty : Builtin := ofTotal fun zone args =>
  .boolean (!(orUndefined args 0).isTruthy || (Text.trim (chars zone args 0)).isEmpty)

def concatenate : Builtin := ofTotal fun zone args =>
  .ofChars (args.flatMap (Value.shownChars zone))

/-- The character with a sixteen-bit code. -/
def char : Builtin := ofTotal fun zone args =>
  let code := (Number.toWord32 (strictNumber zone args 0)).toNat % 65536
  .ofChars [if code.isValidChar then Char.ofNat code else '\uFFFD']

def split : Builtin := ofTotal fun zone args =>
  .array ((Text.parts (Argument.givenChars zone args 1 ",") (chars zone args 0)).map
    Value.ofChars)

/-- Whether a test relates a pattern to a text. No pattern is related to any. -/
def testing (test : List Char → List Char → Bool) : Builtin := ofTotal fun zone args =>
  .boolean ((orUndefined args 1).isTruthy && test (chars zone args 1) (chars zone args 0))

def replace : Builtin := ofTotal fun zone args =>
  .ofChars (Text.replace (chars zone args 1) (chars zone args 2) (chars zone args 0))

/-- The first position of a pattern from a position on. -/
def search : Builtin := ofTotal fun zone args =>
  let cs := chars zone args 0
  let start := clampIndex (number zone args 2) cs.length
  match Text.find? (chars zone args 1) (cs.drop start) with
  | some i => .ofNat (start + i)
  | none => .number (-1)

end TemplateFormula.Builtin
