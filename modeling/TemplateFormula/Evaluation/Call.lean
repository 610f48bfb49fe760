import TemplateFormula.Builtin.Table
import TemplateFormula.Evaluation.Pipeline

/-!
# Calls

A call of a name reaches a handler of the user, a built-in function, or a filter with the first
argument as its input, whichever comes first. The lazy functions receive their arguments
unevaluated. Function values are called from built-in functions and handlers only.
-/

namespace TemplateFormula

inductive LazyFunction where
  | choose
  | all
  | any
  | agree
  | firstCase
deriving Repr, DecidableEq

def LazyFunction.ofName? : String → Option LazyFunction
  | "IF" => some choose
  | "AND" => some all
  | "OR" => some any
  | "XOR" => some agree
  | "IFS" => some firstCase
  | _ => none

/-- Who evaluates a node: the handler of its kind, if there is one, or the built-in rule. -/
inductive Entry where
  | handled
  | builtin
deriving Repr, DecidableEq

namespace Eval

variable {σ : Type}

section Lazy

variable (eval : Expr → Eval σ Value)

/-- The value of an expression that may be missing. -/
def force : Option Expr → Eval σ Value
  | some e => eval e
  | none => pure .undefined

/-- Whether all conditions hold; those behind the first that fails are not evaluated. -/
def allHold : List Expr → Eval σ Bool
  | [] => pure true
  | e :: es => do
    if (← eval e).isTruthy then allHold es else return false

def anyHolds : List Expr → Eval σ Bool
  | [] => pure false
  | e :: es => do
    if (← eval e).isTruthy then return true else anyHolds es

/-- The value behind the first condition that holds. A value without a condition is the default. -/
def firstCase : List Expr → Eval σ Value
  | [] => pure .undefined
  | [e] => eval e
  | c :: v :: rest => do
    if (← eval c).isTruthy then eval v else firstCase rest

def callLazy (f : LazyFunction) (args : List Expr) : Eval σ Value :=
  match f with
  | .choose => do
    if (← force eval args[0]?).isTruthy then force eval args[1]? else force eval args[2]?
  | .all => return .boolean (← allHold eval args)
  | .any => return .boolean (← anyHolds eval args)
  | .agree => do
    let a ← force eval args[0]?
    let b ← force eval args[1]?
    return .boolean (a.isTruthy == b.isTruthy)
  | .firstCase => firstCase eval args

end Lazy

section Calls

variable (limit : Nat) (eval : Entry → Expr → Eval σ Value)

def callClosure (f : Closure) (args : List Value) : Eval σ Value :=
  inScope (.locals (Scope.bind [] f.params args)) (eval .handled f.body)

def callValue (f : Value) (args : List Value) : Eval σ Value :=
  match f with
  | .function f => callClosure eval f args
  | v => fault (.typeError (v.typeName ++ " is not a function"))

/-- The values of a function at the items of a list and their positions. -/
def mapItems (f : Closure) : Nat → List Value → Eval σ (List Value)
  | _, [] => pure []
  | i, v :: vs => do
    let w ← callClosure eval f [v, .ofNat i]
    return w :: (← mapItems f (i + 1) vs)

def filterItems (f : Closure) : Nat → List Value → Eval σ (List Value)
  | _, [] => pure []
  | i, v :: vs => do
    let keep := (← callClosure eval f [v, .ofNat i]).isTruthy
    let kept ← filterItems f (i + 1) vs
    return if keep then v :: kept else kept

def mapName : String := "ARRAYMAP"

def filterName : String := "ARRAYFILTER"

def randomName : String := "RAND"

/-- A function over the items of a list, given the list and a function value. What is no list has
no items. -/
def overItems (name : String) (run : Closure → Nat → List Value → Eval σ (List Value))
    (args : List Value) : Eval σ Value :=
  match Argument.orUndefined args 1 with
  | .function f => do
    return .array (← run f 0 ((Argument.orUndefined args 0).asArray?.getD []))
  | v => fault (.typeError (name ++ " expects a function, got " ++ v.typeName))

/-- A built-in function on evaluated arguments. -/
def eager? (name : String) : Option (List Value → Eval σ Value) :=
  if name = mapName then some (overItems name (mapItems eval))
  else if name = filterName then some (overItems name (filterItems eval))
  else if name = randomName then some fun _ => do return .number (← random)
  else (Builtin.find? name).map fun f args => do ofResult (← ask fun env => f env.clock args)

/-- Carries out what a handler does. -/
def perform : Action σ → Eval σ Value
  | .done v => pure v
  | .fail e => fault e
  | .evaluate e next => do
    let r ← attempt (eval .handled e)
    perform (next r)
  | .evaluateBuiltin e next => do
    let r ← attempt (eval .builtin e)
    perform (next r)
  | .call f args next => do
    let r ← attempt (callValue eval f args)
    perform (next r)
  | .applyFilter name input args next => do
    match ← ask fun env => env.options.findFilter? name with
    | none => perform (next (.error (.unknownFilter name)))
    | some f =>
      let r ← attempt (runFilter limit f input args [])
      perform (next (r.map (·.1)))
  | .lookUp name next => do
    let v ← lookUp name
    perform (next v)
  | .depth next => do
    let n ← gets Machine.depth
    perform (next n)
  | .data next => do
    let v ← ask Environment.data
    perform (next v)
  | .read next => do
    let s ← gets Machine.user
    perform (next s)
  | .write s next => do
    setUser s
    perform next

/-- The arguments as a handler of a function receives them. -/
def handlerArgs (name : String) (args : List Expr) : Eval σ (List Arg) :=
  match LazyFunction.ofName? name with
  | some _ => pure (args.map .deferred)
  | none => do
    return (← all (eval .handled) args).map .ready

def callBuiltin (name : String) (args : List Expr) : Eval σ Value :=
  match LazyFunction.ofName? name, eager? eval name with
  | some f, _ => callLazy (eval .handled) f args
  | none, some f => do f (← all (eval .handled) args)
  | none, none => do
    match ← ask fun env => env.options.findFilter? name with
    | some f =>
      let values ← all (eval .handled) args
      return (← runFilter limit f (Argument.orUndefined values 0) values.tail []).1
    | none => fault (.unknownFunction name)

def call (name : String) (args : List Expr) : Eval σ Value := do
  match ← ask fun env => env.options.functionHandler? name with
  | some (.call run) => perform limit eval (run (← handlerArgs eval name args))
  | some (.node run) => perform limit eval (run (.call name args))
  | none => callBuiltin limit eval name args

end Calls

end Eval

end TemplateFormula
