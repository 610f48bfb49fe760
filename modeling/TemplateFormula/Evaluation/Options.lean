import TemplateFormula.Filter.Table
import TemplateFormula.Resolver
import TemplateFormula.Text.CamelCase

/-!
# Options of an evaluation

What a user adds to the language: handlers for kinds of nodes and for function calls, filters, and
namespaces. The meaning of a handler is a program of the steps that it may take, among them
evaluation of further expressions and access to a state of its own, of type `σ`.
-/

namespace TemplateFormula

/-- An argument of a call, evaluated or left to the callee. -/
inductive Arg where
  | ready (v : Value)
  | deferred (e : Expr)

namespace Arg

def isReady : Arg → Bool
  | ready _ => true
  | deferred _ => false

def value? : Arg → Option Value
  | ready v => some v
  | deferred _ => none

end Arg

/-- What a handler does. A step that may fail hands its error to what follows. -/
inductive Action (σ : Type) where
  | done (v : Value)
  | fail (e : EvalError)
  | evaluate (e : Expr) (next : Except EvalError Value → Action σ)
  /-- Evaluates a node without asking the handler of its kind. -/
  | evaluateBuiltin (e : Expr) (next : Except EvalError Value → Action σ)
  /-- Calls a function value. -/
  | call (f : Value) (args : List Value) (next : Except EvalError Value → Action σ)
  | applyFilter (name : String) (input : Value) (args : List Value)
      (next : Except EvalError Value → Action σ)
  | lookUp (name : String) (next : Value → Action σ)
  /-- Asks for the number of scopes. -/
  | depth (next : Nat → Action σ)
  | data (next : Value → Action σ)
  | read (next : σ → Action σ)
  | write (s : σ) (next : Action σ)

namespace Action

variable {σ : Type}

def ofResult : Except EvalError Value → Action σ
  | .ok v => done v
  | .error e => fail e

/-- Continues with the value of an argument. -/
def force (arg : Arg) (next : Value → Action σ) : Action σ :=
  match arg with
  | .ready v => next v
  | .deferred e => evaluate e fun
    | .ok v => next v
    | .error e => fail e

end Action

/-- A handler of nodes of one kind, or of calls of one function. -/
inductive Handler (σ : Type) where
  | node (run : Expr → Action σ)
  | call (run : List Arg → Action σ)

structure Options (σ : Type) where
  handlers : List (String × Handler σ)
  /-- Filters that come before the built-in ones. -/
  filters : FilterTable
  /-- The filter for islands without a filter of their own. -/
  defaultFilter : Option String
  namespaces : List (String × Resolver)

namespace Options

variable {σ : Type}

def usual : Options σ := ⟨[], [], some "html", []⟩

/-- Replaces the entry with this key, or adds one. -/
def put {α : Type} (key : String) (a : α) (entries : List (String × α)) : List (String × α) :=
  (key, a) :: entries.filter (·.1 != key)

/-- Names of handlers are in camel case, however they are given. -/
def handlerKey (name : String) : String := String.ofList (Text.camelCase name.toList)

variable (o : Options σ)

def withHandler (name : String) (h : Handler σ) : Options σ :=
  { o with handlers := put (handlerKey name) h o.handlers }

def withFilter (name : String) (f : Filter) : Options σ :=
  { o with filters := o.filters.register name f }

def withNamespace (name : String) (r : Resolver) : Options σ :=
  { o with namespaces := put name r o.namespaces }

def findFilter? (name : String) : Option Filter :=
  match o.filters.find? name with
  | some f => some f
  | none => Filter.builtin.find? name

def nodeHandler? (k : Kind) : Option (Expr → Action σ) :=
  match o.handlers.lookup k.name with
  | some (.node h) => some h
  | _ => none

def functionKey (name : String) : String := "fn" ++ name

/-- The handler of calls of a function. -/
def functionHandler? (name : String) : Option (Handler σ) :=
  o.handlers.lookup (functionKey name)

/-- The default filter without blanks and bars around its name. -/
def islandFilter? : Option String := do
  let name ← o.defaultFilter
  match Text.trim ((Text.trimStart name.toList).dropWhile (· == '|')) with
  | [] => none
  | cs => some (String.ofList cs)

end Options

end TemplateFormula
