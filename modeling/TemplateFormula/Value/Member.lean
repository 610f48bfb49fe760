import TemplateFormula.Value.Conversion

/-!
# Members and paths

Access to the members of a value by key, and to nested members by a path such as `a.b[0]["c.d"]`.
-/

namespace TemplateFormula.Value

open Calendar (Zone)

/-- A decimal index, without leading zeros and below `2 ^ 64`; a plus sign may stand before it. -/
def index? (key : List Char) : Option Nat :=
  match key with
  | '0' :: _ :: _ => none
  | _ =>
    let digits :=
      match key with
      | '+' :: r => r
      | _ => key
    let n := Nat.ofDigitChars 10 digits 0
    if !digits.isEmpty && digits.all Char.isDigit && n < Number.twoPow 64 then some n else none

def lengthKey : String := "length"

/-- The member with this key: of an object, an element of an array, or a character of a text. -/
def memberAt (v : Value) (key : String) : Value :=
  match v with
  | object ms => (ms.lookup key).getD undefined
  | array items =>
    if key = lengthKey then ofNat items.length
    else ((index? key.toList).bind (items[·]?)).getD undefined
  | text s =>
    if key = lengthKey then ofNat s.toList.length
    else (((index? key.toList).bind (s.toList[·]?)).map fun c => ofChars [c]).getD undefined
  | _ => undefined

/-- The key that a value is as a property name. -/
def propertyKey (zone : Zone) (v : Value) : String := v.display zone

def member (zone : Zone) (v key : Value) : Value := v.memberAt (key.propertyKey zone)

theorem propertyKey_text (zone : Zone) (s : String) : (text s).propertyKey zone = s :=
  String.ofList_toList

theorem member_text (zone : Zone) (v : Value) (s : String) :
    v.member zone (text s) = v.memberAt s := by
  rw [member, propertyKey_text]

end TemplateFormula.Value

namespace TemplateFormula.Path

/-- The key in brackets, up to the closing bracket or to the closing quote before it. -/
def takeBracketKey (quote : Option Char) : List Char → List Char × List Char
  | [] => ([], [])
  | c :: cs =>
    if some c = quote ∧ cs.head? = some ']' then ([], cs.tail)
    else if quote = none ∧ c = ']' then ([], cs)
    else
      let (key, rest) := takeBracketKey quote cs
      (c :: key, rest)

def takeQuote : List Char → Option Char × List Char
  | '"' :: cs => (some '"', cs)
  | '\'' :: cs => (some '\'', cs)
  | cs => (none, cs)

def dropDot : List Char → List Char
  | '.' :: cs => cs
  | cs => cs

/-- `current` is the key being read. Every step uses up a character. -/
def scanKeys : Nat → List Char → List Char → List (List Char)
  | 0, current, _ | _ + 1, current, [] => if current.isEmpty then [] else [current]
  | n + 1, current, '.' :: cs => current :: scanKeys n [] cs
  | n + 1, current, '[' :: cs =>
    let (quote, cs) := takeQuote cs
    let (key, rest) := takeBracketKey quote cs
    (if current.isEmpty then [] else [current]) ++ key :: scanKeys n [] (dropDot rest)
  | n + 1, current, c :: cs => scanKeys n (current ++ [c]) cs

/-- The keys of a path, between dots and in brackets. -/
def keys (path : List Char) : List (List Char) := scanKeys path.length [] path

/-- Follows keys as long as there is something. -/
def follow (v : Value) : List (List Char) → Value
  | [] => v
  | key :: ks =>
    match v.memberAt (String.ofList key) with
    | .undefined => .undefined
    | w => follow w ks

def wholeName : String := "&"

/-- The value at a path. `&` is the value itself, and a member spelled like the whole path comes
before the nested reading. -/
def resolve (path : List Char) (v : Value) : Value :=
  let path := Text.trim path
  if path = ['&'] then v
  else if path.isEmpty then .undefined
  else
    match v with
    | .object ms =>
      match ms.lookup (String.ofList path) with
      | some w => w
      | none => follow v (keys path)
    | _ => follow v (keys path)

/-- One path, or `name~path`, or a list of either between commas, which makes an object. -/
def pick (names : List Char) (v : Value) : Value :=
  let entry (name : List Char) : List Char × List Char :=
    match Text.splitOnce? '~' name with
    | some (key, path) => (Text.trim key, path)
    | none => (Text.trim name, name)
  match Text.splitOn [','] names with
  | [single] =>
    match Text.splitOnce? '~' single with
    | some (key, path) => .object [(String.ofList (Text.trim key), resolve path v)]
    | none => resolve single v
  | several =>
    .object (Members.ofList (((several.map entry).filter (!·.1.isEmpty)).map fun e =>
      (String.ofList e.1, resolve e.2 v)))

end TemplateFormula.Path
