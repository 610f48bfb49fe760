/-!
# Evaluation errors
-/

namespace TemplateFormula

inductive EvalError where
  | unknownFilter (name : String)
  | unknownFunction (name : String)
  | unsupportedNamespace (name : String)
  | typeError (message : String)
  /-- Raised by a handler or filter of the user. -/
  | custom (message : String)
deriving Repr, DecidableEq

def EvalError.message : EvalError → String
  | unknownFilter name => "filter `" ++ name ++ "` does not exist"
  | unknownFunction name => "function `" ++ name ++ "` is not defined"
  | unsupportedNamespace name => "Unsupported namespace: " ++ name
  | typeError message => "Type error: " ++ message
  | custom message => message

/-- Why an evaluation stopped without a value. -/
inductive Halt where
  | fault (e : EvalError)
  /-- The limit on nested steps was reached. -/
  | exhausted
deriving Repr, DecidableEq

end TemplateFormula
