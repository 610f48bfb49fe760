import TemplateFormula.Evaluation.Call
import TemplateFormula.Value.Arithmetic

/-!
# Evaluation

Every node is evaluated by the handler of its kind or else by the built-in rule. The rules stand
over an evaluator for nested nodes, and the number of nested steps is limited: `exhausted` says
that the limit was met, and nothing else depends on it.
-/

namespace TemplateFormula.Eval

variable {σ : Type}

section Rules

variable (limit : Nat) (eval : Entry → Expr → Eval σ Value)

/-- A binary operation. The logical operators evaluate their right operand only where it
decides. -/
def binary (op : BinaryOp) (left right : Expr) : Eval σ Value := do
  let a ← eval .handled left
  match op with
  | .and => if a.isTruthy then eval .handled right else return a
  | .or => if a.isTruthy then return a else eval .handled right
  | op =>
    let b ← eval .handled right
    ask fun env => op.apply env.zone a b

/-- The key of a member. A variable that is not defined stands for its own name. -/
def keyValue (key : Expr) (v : Value) : Value :=
  match v, key with
  | .undefined, .variable name => .text name
  | v, _ => v

def getter (host key : Expr) : Eval σ Value := do
  let h ← eval .handled host
  let k ← eval .handled key
  if h.isNullish then return .undefined
  else ask fun env => h.member env.zone (keyValue key k)

def members (ms : Members) : List (Expr × Expr) → Eval σ Members
  | [] => pure ms
  | (key, value) :: rest => do
    let k ← eval .handled key
    let v ← eval .handled value
    let name ← ask fun env => k.propertyKey env.zone
    members (ms.insert name v) rest

/-- The value of the last expression. -/
def sequence (last : Value) : List Expr → Eval σ Value
  | [] => pure last
  | e :: es => do sequence (← eval .handled e) es

def document (parts : List Expr) : Eval σ Value :=
  match parts with
  | [] => pure .undefined
  | [e] => eval .handled e
  | parts => return .ofChars (← glued (eval .handled) parts)

/-- An island goes through the default filter unless it has filters of its own. -/
def island (body : Expr) : Eval σ Value := do
  match ← ask fun env => env.options.islandFilter? with
  | some name =>
    match body with
    | .filter _ _ => eval .handled body
    | body => applyFilters (eval .handled) limit body [.mk name []]
  | none => eval .handled body

def inNamespace (name : String) (body : Expr) : Eval σ Value := do
  match ← ask fun env => env.options.namespaces.lookup name with
  | some r => inScope (.inNamespace r) (eval .handled body)
  | none => fault (.unsupportedNamespace name)

/-- The built-in rule for a node. -/
def rule : Expr → Eval σ Value
  | .document parts => document eval parts
  | .raw s | .templateRaw s | .text s | .identifier s => pure (.text s)
  | .island body => island limit eval body
  | .filter input calls => applyFilters (eval .handled) limit input calls
  | .template parts => return .ofChars (← glued (eval .handled) parts)
  | .getter host key => getter eval host key
  | .unary op e => do
    let v ← eval .handled e
    ask fun env => op.apply env.zone v
  | .binary op left right => binary eval op left right
  | .conditional test consequent alternate => do
    if (← eval .handled test).isTruthy then eval .handled consequent
    else eval .handled alternate
  | .variable name => lookUp name
  | .inNamespace name body => inNamespace eval name body
  | .literal l => pure (.ofLiteral l)
  | .number x => pure (.number x)
  | .array es => return .array (← all (eval .handled) es)
  | .object entries => return .object (← members eval [] entries)
  | .call name args => call limit eval name args
  | .sequence es => sequence eval .undefined es
  | .function params body => makeFunction params body

end Rules

/-- The handler that a node is left to. -/
def handlerFor (o : Options σ) (entry : Entry) (e : Expr) : Option (Expr → Action σ) :=
  match entry with
  | .handled => o.nodeHandler? e.kind
  | .builtin => none

/-- Evaluation with a limit on nested steps. -/
def within : Nat → Entry → Expr → Eval σ Value
  | 0, _, _ => exhausted
  | n + 1, entry, e => do
    match ← ask fun env => handlerFor env.options entry e with
    | some run => perform n (within n) (run e)
    | none => rule n (within n) e

def evaluate (limit : Nat) (e : Expr) : Eval σ Value := within limit .handled e

/-- Deeper than the memory of a machine lets an evaluation nest. -/
def usualLimit : Nat := 1000000000

end TemplateFormula.Eval
