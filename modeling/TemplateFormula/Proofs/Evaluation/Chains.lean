import TemplateFormula.Proofs.Evaluation.Limits

/-!
# Filter chains as nested calls

A built-in filter can be called like a function, with its input as the first argument. A chain of
built-in filters gives what the calls nested in one another give: the arguments are evaluated in the
same order, behind the input that they belong to, and no built-in filter looks at those that wait.
-/

namespace TemplateFormula

mutual

/-- The expression that an argument of a filter stands for. -/
def FilterArg.asExpr : FilterArg → Expr
  | .text s => .text s
  | .expr e => e
  | .mixed parts => .template (asExprs parts)

def FilterArg.asExprs : List FilterArg → List Expr
  | [] => []
  | a :: as => a.asExpr :: asExprs as

end

/-- A call of the filter as a function of its input. -/
def FilterCall.onInput (input : Expr) (call : FilterCall) : Expr :=
  .call call.name (input :: FilterArg.asExprs call.args)

/-- The calls that a chain of filters stands for, the first innermost. -/
def FilterCall.nested (input : Expr) (calls : List FilterCall) : Expr :=
  calls.foldl FilterCall.onInput input

/-- A chain of built-in filters that no extension of a user takes part in: no handlers, and no filter
in place of a built-in one. Where a user has filters of other names, which `map` can reach, these
leave the queue of waiting filters alone. Without any there is nothing to ask of them. -/
structure Options.LeavesChain {σ : Type} (o : Options σ) (calls : List FilterCall) : Prop where
  handlers : o.handlers = []
  oblivious : ∀ entry ∈ o.filters, Filter.Oblivious entry.2
  builtin : ∀ call ∈ calls, o.filters.find? call.name = none ∧
    (Filter.builtin.find? call.name).isSome

theorem Options.LeavesChain.tail {σ : Type} {o : Options σ} {call : FilterCall}
    {calls : List FilterCall} (h : o.LeavesChain (call :: calls)) : o.LeavesChain calls :=
  ⟨h.handlers, h.oblivious, fun c hc => h.builtin c (List.mem_cons_of_mem call hc)⟩

namespace Eval

def isFunctionName (name : String) : Bool :=
  (LazyFunction.ofName? name).isSome || name == mapName || name == filterName ||
    name == randomName || (Builtin.find? name).isSome

variable {σ : Type} {env : Environment σ}

section Arguments

theorem same_rule_of_free (free : env.options.handlers = []) (e : Expr) :
    Same env (fun n => within n .handled e) fun n => rule n (within n) e := by
  apply same_rule
  rw [Options.nodeHandler?, free]
  rfl

mutual

theorem same_arg (free : env.options.handlers = []) : (a : FilterArg) →
    Same env (fun n => within n .handled a.asExpr) fun n => filterArg (within n .handled) a
  | .text s => same_rule_of_free free (.text s)
  | .expr e => .refl (within_grows .handled e)
  | .mixed parts =>
    (same_rule_of_free free (.template (FilterArg.asExprs parts))).trans
      (.bind (same_parts free parts) fun _ => .refl .steady)

theorem same_parts (free : env.options.handlers = []) : (parts : List FilterArg) →
    Same env (fun n => glued (within n .handled) (FilterArg.asExprs parts))
      fun n => filterParts (within n .handled) parts
  | [] => .refl .steady
  | a :: as =>
    .bind (same_arg free a) fun _ => .bind (.refl .steady) fun _ =>
      .bind (same_parts free as) fun _ => .refl .steady

end

end Arguments

theorem filtered_grows (f : Filter) (input : Value) (args : List Value) :
    Grows env fun n => filtered n f input args := by
  have run : Grows env fun n => runFilter n f input args [] :=
    fun n m => Extends.runFilter env n f input args [] m
  exact run.bind fun p => .steady

/-- A chain of built-in filters, with no queue that they could change. -/
def chain (eval : Expr → Eval σ Value) (limit : Nat) : List FilterCall → Value → Eval σ Value
  | [], v => pure v
  | call :: calls, v => Simulation.link eval limit call v (chain eval limit calls)

section Chains

variable {call : FilterCall} {calls : List FilterCall}

end Chains

end Eval

end TemplateFormula
