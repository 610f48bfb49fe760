import TemplateFormula.Json.Printer
import TemplateFormula.Render

/-!
# Commands

Rendering a template, evaluating an expression and checking a source text, against data given as
JSON text.
-/

namespace TemplateFormula.Command

inductive Error where
  | source (e : Failure)
  /-- The data is no JSON. -/
  | data

def Error.message : Error → String
  | source (.parse e) => "Parse error: " ++ e.message
  | source e => "Evaluation error: " ++ e.message
  | data => "Invalid JSON"

/-- The data in a text. No text and a blank one are an empty object. -/
def readData (input : Option String) : Except Error Value :=
  match Text.trim ((input.getD "").toList) with
  | [] => .ok (.object [])
  | cs =>
    match Json.parse? cs with
    | some v => .ok v
    | none => .error .data

structure RenderOptions where
  defaultFilter : Option String
  /-- Report errors, where otherwise the template is printed as it is. -/
  strict : Bool

def RenderOptions.usual : RenderOptions := ⟨some "html", false⟩

def render (template : String) (input : Option String) (options : RenderOptions)
    (clock : Calendar.Clock) : Except Error String := do
  let env := Environment.plain clock (← readData input) options.defaultFilter
  if options.strict then
    let v ← (TemplateFormula.evaluate template .template env).mapError .source
    return v.rendered env.zone
  else return TemplateFormula.render template env

def evaluate (expression : String) (input : Option String) (pretty : Bool)
    (clock : Calendar.Clock) : Except Error String := do
  let env := Environment.plain clock (← readData input) RenderOptions.usual.defaultFilter
  let v ← (TemplateFormula.evaluate expression .expression env).mapError .source
  return Json.print env.zone (if pretty then 2 else 0) v

/-- The tree of a source text, a template or an expression. -/
def check (source : String) (form : SourceForm) : Except Error Expr :=
  (parse source { ParseOptions.template with form := form }).mapError fun e => .source (.parse e)

end TemplateFormula.Command
