import TemplateFormula.Source.Parser
import TemplateFormula.Json.Printer

/-!
# Written expressions

The text of an expression with every expression in it put in parentheses, texts in double quotes and
numbers in decimal, and the kinds of the tokens that this text is made of.
-/

namespace TemplateFormula

/-- Names that the lexer reads as one identifier. -/
def IsName (name : String) : Prop :=
  (∃ c cs, name.toList = c :: cs ∧ Scan.isIdentifierStart c ∧ ∀ d ∈ cs, Scan.isIdentifierPart d) ∧
    ∀ k ∈ Scan.keywords, Number.asciiLower name.toList ≠ k.1

/-- Finite doubles whose text reads back as the same double; both zeros are written without a
sign. -/
def Number.ReadsBack (x : Float) : Prop :=
  ∃ a, finite? x = some a ∧ (a.mantissa = 0 ∨ parse? (chars x) = some x)

def Number.isZero (x : Float) : Bool := (finite? x).any (·.mantissa == 0)

namespace Expr

/-- The trees that formulas are made of, without templates, filters and names of namespaces. Keys of
objects are texts. -/
inductive Plain : Expr → Prop where
  | named {name : String} (h : IsName name) : Plain (.variable name)
  | number {x : Float} (h : Number.ReadsBack x) : Plain (.number x)
  | text (s : String) : Plain (.text s)
  | literal (v : Literal) : Plain (.literal v)
  | array {es : List Expr} (h : ∀ e ∈ es, Plain e) : Plain (.array es)
  | object {ms : List (String × Expr)} (h : ∀ m ∈ ms, Plain m.2) :
      Plain (.object (ms.map fun m => (.text m.1, m.2)))
  | getter {host key : Expr} (hh : Plain host) (hk : Plain key) : Plain (.getter host key)
  | unary (op : UnaryOp) {e : Expr} (h : Plain e) : Plain (.unary op e)
  | binary (op : BinaryOp) {l r : Expr} (hl : Plain l) (hr : Plain r) : Plain (.binary op l r)
  | conditional {t c a : Expr} (ht : Plain t) (hc : Plain c) (ha : Plain a) :
      Plain (.conditional t c a)
  | call {name : String} {es : List Expr} (hn : IsName name) (h : ∀ e ∈ es, Plain e) :
      Plain (.call name es)
  | sequence {es : List Expr} (hlen : es.length ≠ 1) (h : ∀ e ∈ es, Plain e) : Plain (.sequence es)
  | function {params : List String} {body : Expr} (hp : ∀ p ∈ params, IsName p) (h : Plain body) :
      Plain (.function params body)

end Expr

def Literal.word : Literal → List Char
  | undefined => ['u', 'n', 'd', 'e', 'f', 'i', 'n', 'e', 'd']
  | null => ['n', 'u', 'l', 'l']
  | boolean true => ['t', 'r', 'u', 'e']
  | boolean false => ['f', 'a', 'l', 's', 'e']

namespace Written

def group (cs : List Char) : List Char := '(' :: cs ++ [')']

def listed (opening closing : Char) (items : List (List Char)) : List Char :=
  opening :: Text.join [',', ' '] items ++ [closing]

/-- Items between brackets, with something before the first, behind each comma and behind the
last. -/
def spaced (opening closing : Char) (lead gap post : List Char) (items : List (List Char)) :
    List Char :=
  opening :: lead ++ Text.join (',' :: gap) items ++ post ++ [closing]

theorem listed_eq_spaced (opening closing : Char) (items : List (List Char)) :
    listed opening closing items = spaced opening closing [] [' '] [] items := by
  simp [listed, spaced]

end Written

open Written in
mutual

def Expr.written : Expr → List Char
  | .variable name => name.toList
  | .number x => Number.chars x
  | .text s => Json.quote s.toList
  | .literal v => v.word
  | .array es => listed '[' ']' (writtenGroups es)
  | .object ms => listed '\x7b' '\x7d' (writtenMembers ms)
  | .getter host key => group host.written ++ '[' :: group key.written ++ [']']
  | .unary op e => op.symbol.toList ++ group e.written
  | .binary op l r => group l.written ++ ' ' :: op.symbol.toList ++ ' ' :: group r.written
  | .conditional t c a =>
    group t.written ++ [' ', '?', ' '] ++ group c.written ++ [' ', ':', ' '] ++ group a.written
  | .call name es => name.toList ++ listed '(' ')' (writtenGroups es)
  | .sequence es => listed '(' ')' (writtenGroups es)
  | .function params body =>
    listed '(' ')' (params.map String.toList) ++ [' ', '=', '>', ' '] ++ group body.written
  | _ => []

def writtenGroups : List Expr → List (List Char)
  | [] => []
  | e :: es => group e.written :: writtenGroups es

def writtenMembers : List (Expr × Expr) → List (List Char)
  | [] => []
  | (key, value) :: ms => (key.written ++ [':', ' '] ++ group value.written) :: writtenMembers ms

end

example : String.ofList (Expr.conditional (.variable "x") (.unary .negate (.text "a"))
    (.call "f" [.variable "y"])).written = "(x) ? (-(\"a\")) : (f((y)))" := rfl

def Literal.token : Literal → TokenKind
  | undefined => .undefined
  | null => .null
  | boolean b => .boolean b

namespace Written

def punct (symbol : String) : TokenKind := .punctuator symbol

def groupTokens (ks : List TokenKind) : List TokenKind := punct "(" :: ks ++ [punct ")"]

def separated : List (List TokenKind) → List TokenKind
  | [] => []
  | [ks] => ks
  | ks :: js :: kss => ks ++ punct "," :: separated (js :: kss)

def listedTokens (opening closing : String) (items : List (List TokenKind)) : List TokenKind :=
  punct opening :: separated items ++ [punct closing]

end Written

open Written in
mutual

/-- The kinds of the tokens of the text of an expression. -/
def Expr.tokens : Expr → List TokenKind
  | .variable name => [.identifier name]
  | .number x => [.number (if Number.isZero x then 0 else x)]
  | .text s => [.text s]
  | .literal v => [v.token]
  | .array es => listedTokens "[" "]" (tokenGroups es)
  | .object ms => listedTokens "\x7b" "\x7d" (tokenMembers ms)
  | .getter host key => groupTokens host.tokens ++ punct "[" :: groupTokens key.tokens ++ [punct "]"]
  | .unary op e => punct op.symbol :: groupTokens e.tokens
  | .binary op l r => groupTokens l.tokens ++ punct op.symbol :: groupTokens r.tokens
  | .conditional t c a =>
    groupTokens t.tokens ++ punct "?" :: groupTokens c.tokens ++ punct ":" :: groupTokens a.tokens
  | .call name es => .identifier name :: listedTokens "(" ")" (tokenGroups es)
  | .sequence es => listedTokens "(" ")" (tokenGroups es)
  | .function params body =>
    listedTokens "(" ")" (params.map fun p => [.identifier p]) ++
      punct "=" :: punct ">" :: groupTokens body.tokens
  | _ => []

def tokenGroups : List Expr → List (List TokenKind)
  | [] => []
  | e :: es => groupTokens e.tokens :: tokenGroups es

def tokenMembers : List (Expr × Expr) → List (List TokenKind)
  | [] => []
  | (key, value) :: ms =>
    (key.tokens ++ punct ":" :: groupTokens value.tokens) :: tokenMembers ms

end

mutual

/-- The expression with the sign taken from its zeros. -/
def Expr.unsignedZeros : Expr → Expr
  | .number x => .number (if Number.isZero x then 0 else x)
  | .array es => .array (unsignedZerosAll es)
  | .object ms => .object (unsignedZerosMembers ms)
  | .getter host key => .getter host.unsignedZeros key.unsignedZeros
  | .unary op e => .unary op e.unsignedZeros
  | .binary op l r => .binary op l.unsignedZeros r.unsignedZeros
  | .conditional t c a => .conditional t.unsignedZeros c.unsignedZeros a.unsignedZeros
  | .call name es => .call name (unsignedZerosAll es)
  | .sequence es => .sequence (unsignedZerosAll es)
  | .function params body => .function params body.unsignedZeros
  | e => e

def unsignedZerosAll : List Expr → List Expr
  | [] => []
  | e :: es => e.unsignedZeros :: unsignedZerosAll es

def unsignedZerosMembers : List (Expr × Expr) → List (Expr × Expr)
  | [] => []
  | (key, value) :: ms => (key.unsignedZeros, value.unsignedZeros) :: unsignedZerosMembers ms

end

theorem writtenGroups_eq_map (es : List Expr) :
    writtenGroups es = es.map fun e => Written.group e.written := by
  induction es with
  | nil => simp [writtenGroups]
  | cons e es ih => simp [writtenGroups, ih]

theorem writtenMembers_eq_map (ms : List (String × Expr)) :
    writtenMembers (ms.map fun m => (.text m.1, m.2)) =
      ms.map fun m => Json.quote m.1.toList ++ [':', ' '] ++ Written.group m.2.written := by
  induction ms with
  | nil => simp [writtenMembers]
  | cons m ms ih => simp [writtenMembers, Expr.written, ih]

theorem tokenMembers_eq_map (ms : List (String × Expr)) :
    tokenMembers (ms.map fun m => (.text m.1, m.2)) =
      ms.map fun m => [.text m.1] ++ Written.punct ":" :: Written.groupTokens m.2.tokens := by
  induction ms with
  | nil => simp [tokenMembers]
  | cons m ms ih => simp [tokenMembers, Expr.tokens, ih]

theorem unsignedZerosMembers_eq_map (ms : List (String × Expr)) :
    unsignedZerosMembers (ms.map fun m => (.text m.1, m.2)) =
      ms.map fun m => (.text m.1, m.2.unsignedZeros) := by
  induction ms with
  | nil => simp [unsignedZerosMembers]
  | cons m ms ih => simp [unsignedZerosMembers, Expr.unsignedZeros, ih]

theorem tokenGroups_eq_map (es : List Expr) :
    tokenGroups es = es.map fun e => Written.groupTokens e.tokens := by
  induction es with
  | nil => simp [tokenGroups]
  | cons e es ih => simp [tokenGroups, ih]

theorem unsignedZerosAll_eq_map (es : List Expr) :
    unsignedZerosAll es = es.map Expr.unsignedZeros := by
  induction es with
  | nil => simp [unsignedZerosAll]
  | cons e es ih => simp [unsignedZerosAll, ih]

end TemplateFormula
