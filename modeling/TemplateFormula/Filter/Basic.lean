import TemplateFormula.Evaluation.Error
import TemplateFormula.Value.Argument
import TemplateFormula.Value.Member

/-!
# Filters

A filter receives the piped value and its arguments. Beyond computing a value it can run other
filters and see and change the queue of filters that wait behind it, so its meaning is a program of
such steps.
-/

namespace TemplateFormula

inductive FilterProgram where
  | done (v : Value)
  | fail (e : EvalError)
  /-- Runs another filter. -/
  | apply (name : String) (input : Value) (args : List Value)
      (next : Except EvalError Value → FilterProgram)
  /-- Asks whether there is a filter of a name. -/
  | known (name : String) (next : Bool → FilterProgram)
  /-- Reads the queue of waiting filters. -/
  | waiting (next : List FilterCall → FilterProgram)
  /-- Replaces the queue of waiting filters. -/
  | replaceWaiting (calls : List FilterCall) (next : FilterProgram)

/-- What every filter sees besides its input and arguments. -/
structure FilterContext where
  clock : Calendar.Clock
  data : Value

abbrev Filter := FilterContext → Value → List Value → FilterProgram

abbrev FilterTable := List (String × Filter)

namespace FilterTable

def find? (t : FilterTable) (name : String) : Option Filter := t.lookup name

/-- Adds a filter in place of one with the same name. -/
def register (t : FilterTable) (name : String) (f : Filter) : FilterTable :=
  (name, f) :: t.filter (·.1 != name)

/-- The names of the filters in ascending order. -/
def names (t : FilterTable) : List String :=
  (t.map (·.1)).mergeSort fun a b => Text.order a.toList b.toList != .gt

end FilterTable

/-- A filter that only computes a value. -/
def Filter.ofFunction (f : FilterContext → Value → List Value → Except EvalError Value) : Filter :=
  fun ctx input args =>
    match f ctx input args with
    | .ok v => .done v
    | .error e => .fail e

/-- A filter that only computes a value and cannot fail. -/
def Filter.ofTotal (f : FilterContext → Value → List Value → Value) : Filter :=
  fun ctx input args => .done (f ctx input args)

namespace FilterContext

variable (ctx : FilterContext)

def zone : Calendar.Zone := ctx.clock.zone

/-- Reads an argument that may name data: text with commas is a list, other text is a path that
falls back to the text itself, and what is no text stands for itself. -/
def resolve (v : Value) : Value :=
  match v with
  | .text s =>
    if s.toList.contains ',' then .array ((Text.commaList s.toList).map Value.ofChars)
    else
      match Path.resolve s.toList ctx.data with
      | .undefined => v
      | found => found
  | v => v

end FilterContext

/-- A run of filters over a queue of waiting ones. -/
abbrev FilterRun := ExceptT Halt (StateM (List FilterCall))

namespace FilterProgram

variable (find? : String → Option Filter)

/-- Carries out a program, given how to run another filter. -/
def run (enter : Filter → Value → List Value → FilterRun Value) : FilterProgram → FilterRun Value
  | done v => pure v
  | fail e => throw (.fault e)
  | apply name input args next => fun queue =>
    match find? name with
    | none => run enter (next (.error (.unknownFilter name))) queue
    | some f =>
      match enter f input args queue with
      | (.ok v, queue) => run enter (next (.ok v)) queue
      | (.error (.fault e), queue) => run enter (next (.error e)) queue
      | (.error .exhausted, queue) => (.error .exhausted, queue)
  | known name next => run enter (next (find? name).isSome)
  | waiting next => fun queue => run enter (next queue) queue
  | replaceWaiting calls next => fun _ => run enter next calls

/-- Runs a filter, in which filters may run others down to a limit. -/
def runFilter (ctx : FilterContext) : Nat → Filter → Value → List Value → FilterRun Value
  | 0, _, _, _ => throw .exhausted
  | n + 1, f, input, args => run find? (runFilter ctx n) (f ctx input args)

end FilterProgram

end TemplateFormula
