import TemplateFormula.Evaluation.Evaluator
import TemplateFormula.Source.Parser

/-!
# Evaluating and rendering source texts

A source text is parsed and its tree evaluated in an environment. Rendering shows the value as
text and never fails, and a path into the data is looked up even if it is no expression.
-/

namespace TemplateFormula

/-- Why a source text has no value. -/
inductive Failure where
  | parse (e : ParseError)
  | evaluation (e : EvalError)
  | exhausted

namespace Failure

def ofHalt : Halt → Failure
  | .fault e => evaluation e
  | .exhausted => exhausted

def message : Failure → String
  | parse e => e.message
  | evaluation e => e.message
  | exhausted => "Evaluation nested too deeply"

end Failure

variable {σ : Type}

/-- Evaluates a tree with the usual limit on nested steps. -/
def evaluateExpr (e : Expr) (env : Environment σ) (m : Machine σ) :
    Except Failure Value × Machine σ :=
  let (r, m) := Eval.evaluate Eval.usualLimit e env m
  (r.mapError .ofHalt, m)

def evaluateSource (source : String) (options : ParseOptions) (env : Environment σ)
    (m : Machine σ) : Except Failure Value × Machine σ :=
  match parse source options with
  | .ok e => evaluateExpr e env m
  | .error e => (.error (.parse e), m)

/-- Calls a function value. -/
def callValue (f : Value) (args : List Value) (env : Environment σ) (m : Machine σ) :
    Except Failure Value × Machine σ :=
  let (r, m) := Eval.callValue (Eval.within Eval.usualLimit) f args env m
  (r.mapError .ofHalt, m)

/-- The environment without extensions of the user. -/
def Environment.plain (clock : Calendar.Clock) (data : Value) (defaultFilter : Option String) :
    Environment Unit :=
  ⟨{ Options.usual with defaultFilter := defaultFilter }, clock, data⟩

/-- The value of a source text under the built-in language. -/
def evaluate (source : String) (options : ParseOptions) (env : Environment Unit) :
    Except Failure Value :=
  (evaluateSource source options env (Machine.start env.clock ())).1

/-- The text that a value is rendered as. Missing values are empty. -/
def Value.rendered (zone : Calendar.Zone) (v : Value) : String := String.ofList (v.shownChars zone)

/-- Renders a template; one that fails is rendered as itself. -/
def render (template : String) (env : Environment Unit) : String :=
  match evaluate template .template env with
  | .ok v => v.rendered env.zone
  | .error _ => template

/-- The value at a path into the data. -/
def resolveVariable (path : String) (clock : Calendar.Clock) (data : Value) : Value :=
  match evaluate path .variableChain (.plain clock data none) with
  | .ok v => v
  | .error _ => Path.resolve path.toList data

end TemplateFormula
