import TemplateFormula.Evaluation.Error
import TemplateFormula.Value.Argument

/-!
# Built-in functions

A built-in function receives the values of its arguments and the clock. Functions that leave
arguments unevaluated or call function values belong to the evaluator.
-/

namespace TemplateFormula

abbrev Builtin := Calendar.Clock → List Value → Except EvalError Value

namespace Builtin

/-- A function that cannot fail. -/
def ofTotal (f : Calendar.Zone → List Value → Value) : Builtin := fun clock args =>
  .ok (f clock.zone args)

def ofNumber (f : Float → Float) : Builtin := ofTotal fun zone args =>
  .number (f (Argument.number zone args 0))

def ofText (f : List Char → List Char) : Builtin := ofTotal fun zone args =>
  .ofChars (f (Argument.chars zone args 0))

end Builtin

end TemplateFormula
