import TemplateFormula.Evaluation.Machine
import TemplateFormula.Proofs.Renaming.Value

/-!
# Extensions under renaming

Handlers, filters and resolvers of the user get function values and pass them on, but they cannot
see what the numbers of functions are. So their steps are the same where functions are numbered
anew.
-/

namespace TemplateFormula

variable {σ : Type} (ρ : Nat → Nat)

def Arg.rename : Arg → Arg
  | .ready v => .ready (v.rename ρ)
  | .deferred e => .deferred e

theorem Arg.rename_ready (values : List Value) :
    (values.map .ready).map (Arg.rename ρ) = (values.map (Value.rename ρ)).map .ready := by
  simp [Arg.rename, Function.comp_def]

theorem Arg.rename_deferred (es : List Expr) :
    (es.map .deferred).map (Arg.rename ρ) = es.map .deferred := by
  simp [Arg.rename, Function.comp_def]

namespace Action

/-- Actions that take the same steps with renamed values. -/
inductive Renamed : Action σ → Action σ → Prop
  | done (v : Value) : Renamed (.done v) (.done (v.rename ρ))
  | fail (e : EvalError) : Renamed (.fail e) (.fail e)
  | evaluate {e : Expr} {next next' : Except EvalError Value → Action σ}
      (after : ∀ r, Renamed (next r) (next' (r.map (Value.rename ρ)))) :
      Renamed (.evaluate e next) (.evaluate e next')
  | evaluateBuiltin {e : Expr} {next next' : Except EvalError Value → Action σ}
      (after : ∀ r, Renamed (next r) (next' (r.map (Value.rename ρ)))) :
      Renamed (.evaluateBuiltin e next) (.evaluateBuiltin e next')
  | call {f : Value} {args : List Value} {next next' : Except EvalError Value → Action σ}
      (after : ∀ r, Renamed (next r) (next' (r.map (Value.rename ρ)))) :
      Renamed (.call f args next) (.call (f.rename ρ) (args.map (Value.rename ρ)) next')
  | applyFilter {name : String} {input : Value} {args : List Value}
      {next next' : Except EvalError Value → Action σ}
      (after : ∀ r, Renamed (next r) (next' (r.map (Value.rename ρ)))) :
      Renamed (.applyFilter name input args next)
        (.applyFilter name (input.rename ρ) (args.map (Value.rename ρ)) next')
  | lookUp {name : String} {next next' : Value → Action σ}
      (after : ∀ v, Renamed (next v) (next' (v.rename ρ))) :
      Renamed (.lookUp name next) (.lookUp name next')
  | depth {next next' : Nat → Action σ} (after : ∀ n, Renamed (next n) (next' n)) :
      Renamed (.depth next) (.depth next')
  | data {next next' : Value → Action σ} (after : ∀ v, Renamed (next v) (next' (v.rename ρ))) :
      Renamed (.data next) (.data next')
  | read {next next' : σ → Action σ} (after : ∀ s, Renamed (next s) (next' s)) :
      Renamed (.read next) (.read next')
  | write {s : σ} {next next' : Action σ} (after : Renamed next next') :
      Renamed (.write s next) (.write s next')

end Action

/-- A handler that takes the same steps whatever the numbers of functions are. -/
def Handler.Respects : Handler σ → Prop
  | .node run => ∀ e, Action.Renamed ρ (run e) (run e)
  | .call run => ∀ args, Action.Renamed ρ (run args) (run (args.map (Arg.rename ρ)))

structure Options.Respects (o : Options σ) : Prop where
  handlers : ∀ entry ∈ o.handlers, entry.2.Respects ρ
  filters : ∀ entry ∈ o.filters, Filter.Respects ρ entry.2
  namespaces : ∀ entry ∈ o.namespaces, ∀ name, (entry.2 name).rename ρ = entry.2 name

/-- An environment in which the numbers of functions have no part. -/
structure Environment.Respects (env : Environment σ) : Prop where
  options : env.options.Respects ρ
  data : env.data.rename ρ = env.data

section Same

theorem Value.rename_id_result (r : Except EvalError Value) : r.map (Value.rename id) = r := by
  cases r with
  | error e => rfl
  | ok v => exact congrArg Except.ok (Value.rename_id v)

theorem FilterProgram.renamed_id (p : FilterProgram) : Renamed id p p := by
  induction p with
  | done v =>
    have h := Renamed.done (ρ := id) v
    rwa [Value.rename_id] at h
  | fail e => exact .fail e
  | apply name input args next ih =>
    have h : Renamed id (.apply name input args next) (.apply name _ _ next) :=
      .apply (fun e => ih _) fun v => by
        rw [Value.rename_id]
        exact ih _
    rwa [Value.rename_id, Value.rename_id_items] at h
  | known name next ih => exact .known ih
  | waiting next ih => exact .waiting ih
  | replaceWaiting calls next ih => exact .replaceWaiting ih

theorem Action.renamed_id (a : Action σ) : Renamed id a a := by
  have result {next : Except EvalError Value → Action σ} (ih : ∀ r, Renamed id (next r) (next r))
      (r : Except EvalError Value) : Renamed id (next r) (next (r.map (Value.rename id))) := by
    rw [Value.rename_id_result]
    exact ih r
  have value {next : Value → Action σ} (ih : ∀ v, Renamed id (next v) (next v)) (v : Value) :
      Renamed id (next v) (next (v.rename id)) := by
    rw [Value.rename_id]
    exact ih v
  induction a with
  | done v =>
    have h := Renamed.done (σ := σ) (ρ := id) v
    rwa [Value.rename_id] at h
  | fail e => exact .fail e
  | evaluate e next ih => exact .evaluate (result ih)
  | evaluateBuiltin e next ih => exact .evaluateBuiltin (result ih)
  | call f args next ih =>
    have h : Renamed id (.call f args next) (.call _ _ next) := .call (result ih)
    rwa [Value.rename_id, Value.rename_id_items] at h
  | applyFilter name input args next ih =>
    have h : Renamed id (.applyFilter name input args next) (.applyFilter name _ _ next) :=
      .applyFilter (result ih)
    rwa [Value.rename_id, Value.rename_id_items] at h
  | lookUp name next ih => exact .lookUp (value ih)
  | depth next ih => exact .depth ih
  | data next ih => exact .data (value ih)
  | read next ih => exact .read ih
  | write s next ih => exact .write ih

theorem Filter.respects_id (f : Filter) : Respects id f := by
  intro ctx input args
  have same : ctx.rename id = ctx := by rw [FilterContext.rename, Value.rename_id]
  rw [same, Value.rename_id, Value.rename_id_items]
  exact FilterProgram.renamed_id _

theorem Handler.respects_id (h : Handler σ) : h.Respects id := by
  have kept : Arg.rename id = id := by
    funext arg
    cases arg with
    | ready v => exact congrArg Arg.ready (Value.rename_id v)
    | deferred e => rfl
  cases h with
  | node run => exact fun e => Action.renamed_id _
  | call run =>
    intro args
    rw [kept, List.map_id]
    exact Action.renamed_id _

theorem Environment.respects_id (env : Environment σ) : env.Respects id where
  options :=
    { handlers := fun entry _ => entry.2.respects_id
      filters := fun entry _ => Filter.respects_id entry.2
      namespaces := fun _ _ _ => Value.rename_id _ }
  data := Value.rename_id _

end Same

section Scopes

def Scope.rename : Scope → Scope
  | .root => .root
  | .inNamespace r => .inNamespace fun name => (r name).rename ρ
  | .locals bindings => .locals (Members.rename ρ bindings)

theorem Scope.rename_id (s : Scope) : s.rename id = s := by
  cases s with
  | root => rfl
  | inNamespace r => exact congrArg inNamespace (funext fun name => Value.rename_id (r name))
  | locals bindings =>
    have same : Members.rename id bindings = bindings := by
      simp only [Members.rename, Value.rename_id, List.map_id']
    exact congrArg locals same

theorem Scope.lookUp_rename (data : Value) (name : String) (scopes : List Scope) :
    lookUp (data.rename ρ) name (scopes.map (Scope.rename ρ)) =
      (lookUp data name scopes).rename ρ := by
  induction scopes with
  | nil => simp [lookUp]
  | cons s scopes ih =>
    cases s with
    | root =>
      by_cases whole : name = Path.wholeName
      · simp [lookUp, Scope.rename, whole]
      · simp [lookUp, Scope.rename, whole]
    | inNamespace r => rfl
    | locals bindings =>
      simp only [List.map_cons, Scope.rename, lookUp, Members.lookup_rename]
      cases bindings.lookup name with
      | none => exact ih
      | some v => rfl

theorem Scope.bind_rename (bound : List (String × Value)) (params : List String)
    (args : List Value) :
    bind (Members.rename ρ bound) params (args.map (Value.rename ρ)) =
      Members.rename ρ (bind bound params args) := by
  induction params generalizing bound args with
  | nil => rfl
  | cons p params ih =>
    have first : (args.map (Value.rename ρ)).headD .undefined =
        (args.headD .undefined).rename ρ := by cases args <;> simp
    rw [bind, bind, first, ← Members.rename_cons ρ (p, args.headD .undefined), ← List.map_tail, ih]

end Scopes

section Found

variable {ρ} {o : Options σ} (respects : o.Respects ρ)
include respects

theorem Options.Respects.handler {key : String} {h : Handler σ}
    (found : o.handlers.lookup key = some h) : h.Respects ρ := by
  obtain ⟨before, after, split, _⟩ := List.lookup_eq_some_iff.mp found
  exact respects.handlers (key, h) (by rw [split]; simp)

theorem Options.Respects.nodeHandler {k : Kind} {run : Expr → Action σ}
    (found : o.nodeHandler? k = some run) (e : Expr) : Action.Renamed ρ (run e) (run e) := by
  unfold Options.nodeHandler? at found
  split at found
  · next h present =>
    cases found
    exact respects.handler present e
  · cases found

theorem Options.Respects.namespace {name : String} {r : Resolver}
    (found : o.namespaces.lookup name = some r) : (fun key => (r key).rename ρ) = r := by
  obtain ⟨before, after, split, _⟩ := List.lookup_eq_some_iff.mp found
  exact funext (respects.namespaces (name, r) (by rw [split]; simp))

theorem Options.Respects.filter (distinct : Function.Injective ρ) {name : String} {f : Filter}
    (found : o.findFilter? name = some f) : Filter.Respects ρ f := by
  unfold Options.findFilter? at found
  split at found
  · next g present =>
    cases found
    obtain ⟨before, after, split, _⟩ := List.lookup_eq_some_iff.mp present
    exact respects.filters (name, f) (by rw [split]; simp)
  · obtain ⟨before, after, split, _⟩ := List.lookup_eq_some_iff.mp found
    exact Filter.builtin_respects distinct (name, f) (by rw [split]; simp)

end Found

end TemplateFormula
