import TemplateFormula.Proofs.Evaluation.Rules
import TemplateFormula.Proofs.Renaming.Options

/-!
# Evaluations in lockstep

A simulation between two evaluations in one environment reaches every node, whatever handlers,
filters and namespaces a user has added, if it respects the steps that these can take. The second
evaluation may number functions differently and may have a higher limit.
-/

namespace TemplateFormula.Eval

variable {σ : Type}

/-- A relation between computations up to a renaming of function values, which the steps of
evaluation and the steps of a user's extensions respect. The limits of the second evaluation are
higher by a number. -/
structure Lockstep (ρ : Nat → Nat) (env : Environment σ) (more : Nat) where
  distinct : Function.Injective ρ
  respects : env.Respects ρ
  Holds : ∀ {α β : Type}, (α → β) → Eval σ α → Eval σ β → Prop
  congr : ∀ {α β : Type} {r : α → β} {x x' : Eval σ α} {y y' : Eval σ β},
    Holds r x y → x env = x' env → y env = y' env → Holds r x' y'
  pure : ∀ {α β : Type} (r : α → β) (a : α), Holds r (pure a) (pure (r a))
  bind : ∀ {α β γ δ : Type} {r : α → β} {s : γ → δ} {x : Eval σ α} {y : Eval σ β}
    {f : α → Eval σ γ} {g : β → Eval σ δ},
    Holds r x y → (∀ a, Holds s (f a) (g (r a))) → Holds s (x >>= f) (y >>= g)
  fault : ∀ {α β : Type} (r : α → β) (e : EvalError), Holds r (fault e) (fault e)
  /-- A limit that the first evaluation has met and the second may not have met. -/
  spent : ∀ {α β : Type} (r : α → β) {n k : Nat} (y : Eval σ β), n < k →
    Holds r exhausted (if n + more < k then exhausted else y)
  lookUp : ∀ name, Holds (Value.rename ρ) (lookUp name) (lookUp name)
  makeFunction : ∀ params body,
    Holds (Value.rename ρ) (makeFunction params body) (makeFunction params body)
  random : Holds id random random
  runFilter : ∀ (n : Nat) {f : Filter}, Filter.Respects ρ f → ∀ input args waiting,
    Holds (Prod.map (Value.rename ρ) id) (runFilter n f input args waiting)
      (runFilter (n + more) f (input.rename ρ) (args.map (Value.rename ρ)) waiting)
  attempt : ∀ {α β : Type} {r : α → β} {x : Eval σ α} {y : Eval σ β},
    Holds r x y → Holds (Except.map r) (attempt x) (attempt y)
  inScope : ∀ (s : Scope) {α β : Type} {r : α → β} {x : Eval σ α} {y : Eval σ β},
    Holds r x y → Holds r (inScope s x) (inScope (s.rename ρ) y)
  depth : Holds id (gets Machine.depth) (gets Machine.depth)
  user : Holds id (gets Machine.user) (gets Machine.user)
  setUser : ∀ s, Holds id (setUser s) (setUser s)

namespace Lockstep

variable {ρ : Nat → Nat} {env : Environment σ} {more : Nat} (L : Lockstep ρ env more)

/-- Without the steps of a user's extensions this is a simulation. -/
def simulation (n : Nat) :
    Simulation PUnit σ σ ρ env env (fun _ => n) fun _ => n + more where
  distinct := L.distinct
  clock_eq := rfl
  Holds r x y := L.Holds r (x ⟨⟩) (y ⟨⟩)
  congr h hx hy := L.congr h (hx ⟨⟩) (hy ⟨⟩)
  pure := L.pure
  bind hx hf := L.bind hx hf
  fault := L.fault
  lookUp := L.lookUp
  makeFunction := L.makeFunction
  random := L.random
  bounded := by
    intro α β r x y k h
    by_cases under : n < k
    · simp only [if_pos under]
      exact L.spent r _ under
    · simp only [if_neg under, if_neg (show ¬ n + more < k by omega)]
      exact h
  filtered := by
    intro name f found input args
    have own := Filter.builtin_respects L.distinct (name, f) (Filter.mem_of_find? found)
    exact L.bind (L.runFilter n own input args []) fun p => L.pure (Value.rename ρ) p.1

variable {L}

/-- A computation that asks for something in the environment goes on as one that has it. -/
theorem ask {α γ δ : Type} {s : γ → δ} {h : Environment σ → α} {f : α → Eval σ γ}
    {g : α → Eval σ δ} (after : L.Holds s (f (h env)) (g (h env))) :
    L.Holds s (ask h >>= f) (Eval.ask h >>= g) := L.congr after rfl rfl

variable {n : Nat} {eval eval' : Entry → Expr → Eval σ Value}

section Rules

variable (covers : ∀ entry e, L.Holds (Value.rename ρ) (eval entry e) (eval' entry e))
include covers

theorem callClosure (f : Closure) (args : List Value) :
    L.Holds (Value.rename ρ) (callClosure eval f args)
      (Eval.callClosure eval' f (args.map (Value.rename ρ))) := by
  have body := L.inScope (.locals (Scope.bind [] f.params args)) (covers .handled f.body)
  have bound : Scope.rename ρ (.locals (Scope.bind [] f.params args)) =
      .locals (Scope.bind [] f.params (args.map (Value.rename ρ))) :=
    congrArg Scope.locals (Scope.bind_rename ρ [] f.params args).symm
  rw [bound] at body
  exact body

theorem callValue (f : Value) (args : List Value) :
    L.Holds (Value.rename ρ) (callValue eval f args)
      (Eval.callValue eval' (f.rename ρ) (args.map (Value.rename ρ))) := by
  have fails (v : Value) := L.fault (Value.rename ρ)
    (.typeError (v.typeName ++ " is not a function"))
  cases f with
  | function f =>
    rw [Value.rename_function]
    exact callClosure covers f args
  | array items => simpa [Eval.callValue, Value.typeName] using fails (.array items)
  | object ms => simpa [Eval.callValue, Value.typeName] using fails (.object ms)
  | _ => simpa [Eval.callValue] using fails _

/-- The filters of a chain may change the queue, so the induction is on the number of filters that
may still run. -/
theorem pipe (k : Nat) (v : Value) (calls : List FilterCall) :
    L.Holds (Value.rename ρ) (pipe (eval .handled) n k v calls)
      (Eval.pipe (eval' .handled) (n + more) (k + more) (v.rename ρ) calls) := by
  induction k generalizing v calls with
  | zero =>
    cases calls with
    | nil =>
      rw [Simulation.pipe_nil, Simulation.pipe_nil]
      exact L.pure (Value.rename ρ) v
    | cons call calls =>
      apply L.congr (L.spent (Value.rename ρ) (n := 0) (k := 1)
        (Eval.pipe (eval' .handled) (n + more) (0 + more) (v.rename ρ) (call :: calls))
        Nat.zero_lt_one) rfl
      by_cases equal : more = 0
      · subst equal
        rfl
      · rw [if_neg (by omega)]
  | succ k ih =>
    rw [Nat.succ_add]
    cases calls with
    | nil => exact L.pure (Value.rename ρ) v
    | cons call calls =>
      apply ask
      cases found : env.options.findFilter? call.name with
      | none => exact L.fault _ _
      | some f =>
        have own := L.respects.options.filter L.distinct found
        have args : (L.simulation n).Holds (List.map (Value.rename ρ))
            (fun _ => filterArgs (eval .handled) call.args)
            fun _ => filterArgs (eval' .handled) call.args :=
          Simulation.filterArgs fun e _ => covers .handled e
        apply L.bind args
        intro args
        apply L.bind (L.runFilter n own v args calls)
        intro p
        exact ih p.1 p.2

theorem applyFilters (input : Expr) (calls : List FilterCall) :
    L.Holds (Value.rename ρ) (applyFilters (eval .handled) n input calls)
      (Eval.applyFilters (eval' .handled) (n + more) input calls) :=
  L.bind (covers .handled input) fun v => pipe covers n v calls

theorem perform {a a' : Action σ} (h : Action.Renamed ρ a a') :
    L.Holds (Value.rename ρ) (perform n eval a) (Eval.perform (n + more) eval' a') := by
  induction h with
  | done v => exact L.pure (Value.rename ρ) v
  | fail e => exact L.fault _ e
  | @evaluate e _ _ _ ih => exact L.bind (L.attempt (covers .handled e)) ih
  | @evaluateBuiltin e _ _ _ ih => exact L.bind (L.attempt (covers .builtin e)) ih
  | @call f args _ _ _ ih => exact L.bind (L.attempt (callValue covers f args)) ih
  | @applyFilter name input args next next' _ ih =>
    rw [Eval.perform, Eval.perform]
    apply ask
    cases found : env.options.findFilter? name with
    | none => exact ih (.error (.unknownFilter name))
    | some f =>
      have own := L.respects.options.filter L.distinct found
      apply L.bind (L.attempt (L.runFilter n own input args []))
      intro r
      have after := ih (r.map (·.1))
      cases r with
      | error e => exact after
      | ok p => exact after
  | @lookUp name _ _ _ ih => exact L.bind (L.lookUp name) ih
  | depth _ ih => exact L.bind L.depth ih
  | data _ ih =>
    apply ask
    have after := ih env.data
    rw [L.respects.data] at after
    exact after
  | read _ ih => exact L.bind L.user ih
  | @write s _ _ _ ih => exact L.bind (L.setUser s) fun _ => ih

theorem all (es : List Expr) :
    L.Holds (List.map (Value.rename ρ)) (all (eval .handled) es)
      (Eval.all (eval' .handled) es) := by
  have values : (L.simulation 0).Holds (List.map (Value.rename ρ))
      (fun _ => Eval.all (eval .handled) es) fun _ => Eval.all (eval' .handled) es :=
    Simulation.all fun e _ => covers .handled e
  exact values

theorem handlerArgs (name : String) (args : List Expr) :
    L.Holds (List.map (Arg.rename ρ)) (handlerArgs eval name args)
      (Eval.handlerArgs eval' name args) := by
  rw [Eval.handlerArgs, Eval.handlerArgs]
  cases LazyFunction.ofName? name with
  | some f =>
    have deferred := L.pure (List.map (Arg.rename ρ)) (args.map .deferred)
    rw [Arg.rename_deferred] at deferred
    exact deferred
  | none =>
    apply L.bind (all covers args)
    intro values
    have ready := L.pure (List.map (Arg.rename ρ)) (values.map .ready)
    rw [Arg.rename_ready] at ready
    exact ready

theorem callBuiltin (name : String) (args : List Expr) :
    L.Holds (Value.rename ρ) (callBuiltin n eval name args)
      (Eval.callBuiltin (n + more) eval' name args) := by
  let S := L.simulation n
  rw [Eval.callBuiltin, Eval.callBuiltin]
  cases LazyFunction.ofName? name with
  | some f =>
    have each (e : Expr) (_ : e ∈ args) : S.Covers (fun _ => eval) (fun _ => eval') e :=
      covers .handled e
    exact Simulation.callLazy each f
  | none =>
    have calls : S.CoversCalls (fun _ => eval) fun _ => eval' := callClosure covers
    obtain none_eq | ⟨f, f', some_eq, runs⟩ := Simulation.eager calls name
    · simp only [none_eq ⟨⟩]
      apply ask
      cases found : env.options.findFilter? name with
      | none => exact L.fault _ _
      | some f =>
        have own := L.respects.options.filter L.distinct found
        apply L.bind (all covers args)
        intro vs
        have run := L.runFilter n own (Argument.orUndefined vs 0) vs.tail []
        rw [← Argument.orUndefined_rename, List.map_tail] at run
        exact L.bind run fun p => L.pure (Value.rename ρ) p.1
    · simp only [some_eq ⟨⟩]
      exact L.bind (all covers args) runs

theorem call (name : String) (args : List Expr) :
    L.Holds (Value.rename ρ) (call n eval name args) (Eval.call (n + more) eval' name args) := by
  apply ask
  cases found : env.options.functionHandler? name with
  | none => exact callBuiltin covers name args
  | some h =>
    have own := L.respects.options.handler found
    cases h with
    | node run => exact perform covers (own (.call name args))
    | call run =>
      apply L.bind (handlerArgs covers name args)
      intro args
      exact perform covers (own args)

theorem island (body : Expr) :
    L.Holds (Value.rename ρ) (island n eval body) (Eval.island (n + more) eval' body) := by
  apply ask
  cases env.options.islandFilter? with
  | none => exact covers .handled body
  | some name =>
    have piped := applyFilters (n := n) covers body [.mk name []]
    cases body with
    | filter input calls => exact covers .handled _
    | _ => exact piped

theorem inNamespace (name : String) (body : Expr) :
    L.Holds (Value.rename ρ) (inNamespace eval name body) (Eval.inNamespace eval' name body) := by
  apply ask
  cases found : env.options.namespaces.lookup name with
  | none => exact L.fault _ _
  | some r =>
    have inside := L.inScope (.inNamespace r) (covers .handled body)
    rw [Scope.rename, L.respects.options.namespace found] at inside
    exact inside

theorem rule (e : Expr) :
    L.Holds (Value.rename ρ) (rule n eval e) (Eval.rule (n + more) eval' e) := by
  have options : (L.simulation n).CoversOptions (fun _ => eval) (fun _ => eval') e :=
    { island := fun body _ => island covers body
      filter := fun input calls _ => applyFilters covers input calls
      inNamespace := fun name body _ => inNamespace covers name body
      call := fun name args _ => call covers name args }
  exact Simulation.ruleOf e options fun e' _ => covers .handled e'

end Rules

variable (L)

theorem within (n : Nat) (entry : Entry) (e : Expr) :
    L.Holds (Value.rename ρ) (within n entry e) (Eval.within (n + more) entry e) := by
  induction n generalizing entry e with
  | zero =>
    apply L.congr (L.spent (Value.rename ρ) (n := 0) (k := 1) (Eval.within (0 + more) entry e)
      Nat.zero_lt_one) rfl
    by_cases equal : more = 0
    · subst equal
      rfl
    · rw [if_neg (by omega)]
  | succ n ih =>
    rw [Nat.succ_add]
    apply ask
    cases found : handlerFor env.options entry e with
    | none => exact rule ih e
    | some run =>
      cases entry with
      | handled => exact perform ih (L.respects.options.nodeHandler found e)
      | builtin => cases found

end Lockstep

end TemplateFormula.Eval
