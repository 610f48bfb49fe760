import TemplateFormula.Evaluation.Machine

/-!
# Filter chains

The value of the input goes through the filters in turn. A filter is looked up before its arguments
are evaluated, and may change the queue of those behind it, so the run of a chain is bounded by a
number of filters.
-/

namespace TemplateFormula.Eval

variable {σ : Type} (eval : Expr → Eval σ Value)

def all : List Expr → Eval σ (List Value)
  | [] => pure []
  | e :: es => do
    let v ← eval e
    return v :: (← all es)

def shown (v : Value) : Eval σ (List Char) := ask fun env => v.shownChars env.zone

/-- The texts of expressions one after another, where missing values are empty. -/
def glued : List Expr → Eval σ (List Char)
  | [] => pure []
  | e :: es => do
    let cs ← shown (← eval e)
    return cs ++ (← glued es)

mutual

def filterArg : FilterArg → Eval σ Value
  | .text s => pure (.text s)
  | .expr e => eval e
  | .mixed parts => do
    return .ofChars (← filterParts parts)

def filterParts : List FilterArg → Eval σ (List Char)
  | [] => pure []
  | a :: as => do
    let cs ← shown (← filterArg a)
    return cs ++ (← filterParts as)

end

def filterArgs : List FilterArg → Eval σ (List Value)
  | [] => pure []
  | a :: as => do
    let v ← filterArg eval a
    return v :: (← filterArgs as)

/-- Sends a value through at most so many filters. -/
def pipe (limit : Nat) : Nat → Value → List FilterCall → Eval σ Value
  | _, v, [] => pure v
  | 0, _, _ :: _ => exhausted
  | n + 1, v, call :: waiting => do
    match ← ask fun env => env.options.findFilter? call.name with
    | none => fault (.unknownFilter call.name)
    | some f =>
      let args ← filterArgs eval call.args
      let (v, waiting) ← runFilter limit f v args waiting
      pipe limit n v waiting

def applyFilters (limit : Nat) (input : Expr) (calls : List FilterCall) : Eval σ Value := do
  pipe eval limit limit (← eval input) calls

end TemplateFormula.Eval
