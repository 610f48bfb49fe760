import TemplateFormula.Render
import TemplateFormula.Proofs.Evaluation.Comparison
import TemplateFormula.Proofs.Evaluation.Filtering

/-!
# Simulations between evaluations

The rules of evaluation are built from a few steps. A relation between computations that the steps
respect is respected by every rule, so what two evaluations have in common is shown for the steps
alone. Computations come in families, so that a statement can be about all limits at once, and the
second evaluation may see functions under other numbers.
-/

namespace TemplateFormula

/-- The environment without extensions of the user, for any state of theirs. -/
def Environment.bare (σ : Type) (clock : Calendar.Clock) (data : Value) (filter : Option String) :
    Environment σ :=
  ⟨⟨[], [], filter, []⟩, clock, data⟩

theorem Environment.bare_clock (σ τ : Type) (clock : Calendar.Clock) (data : Value)
    (filter : Option String) :
    (bare τ clock (data.rename id) filter).clock = (bare σ clock data filter).clock := rfl

namespace Machine

variable {σ : Type} (m : Machine σ)

/-- The machine in which the body of a called function is evaluated. -/
def enter (f : Closure) (args : List Value) : Machine σ :=
  { m with scopes := .locals (Scope.bind [] f.params args) :: m.scopes }

def leave : Machine σ := { m with scopes := m.scopes.tail }

end Machine

namespace Eval

section Bind

variable {σ α β : Type} {env : Environment σ} {x : Eval σ α} {f : α → Eval σ β}
  {m m₁ : Machine σ}

theorem bind_of_ok {a : α} (first : x env m = (.ok a, m₁)) : (x >>= f) env m = f a env m₁ := by
  rw [bind_def, first]

theorem bind_of_value {a : α} (value : (x env m).1 = .ok a) :
    (x >>= f) env m = f a env (x env m).2 := bind_of_ok (Prod.ext value rfl)

theorem bind_of_error {h : Halt} (first : x env m = (.error h, m₁)) :
    (x >>= f) env m = (.error h, m₁) := by
  rw [bind_def, first]

/-- Computations on results that something was done to, as computations on the results. -/
theorem bind_eq_map {γ δ : Type} {r : γ → α} {s : δ → β} {x₀ : Eval σ γ} {f₀ : γ → Eval σ δ}
    (first : x env = (r <$> x₀) env) (next : ∀ c, f (r c) env = (s <$> f₀ c) env) :
    (x >>= f) env = (s <$> (x₀ >>= f₀)) env := by
  funext m
  rw [map_eq_pure_bind] at first
  rw [map_eq_pure_bind, bind_assoc, bind_def, first, bind_def, bind_def]
  rcases x₀ env m with ⟨h | c, m₁⟩
  · rfl
  · exact (congrFun (next c) m₁).trans (by rw [map_eq_pure_bind])

/-- Where no handler takes a node, it follows the built-in rule. -/
theorem within_builtin {σ : Type} {env : Environment σ} {n : Nat} {e : Expr}
    (h : env.options.nodeHandler? e.kind = none) (m : Machine σ) :
    within (n + 1) .handled e env m = rule n (within n) e env m := by
  simp only [within, bind_def, ask, handlerFor, h]

end Bind

theorem callClosure_apply {σ : Type} (eval : Entry → Expr → Eval σ Value) (f : Closure)
    (args : List Value) (env : Environment σ) (m : Machine σ) :
    callClosure eval f args env m =
      ((eval .handled f.body env (m.enter f args)).1,
        (eval .handled f.body env (m.enter f args)).2.leave) := rfl

section Bare

variable {σ : Type} (clock : Calendar.Clock) (data : Value) (filter : Option String)

theorem findFilter?_bare (name : String) :
    (Environment.bare σ clock data filter).options.findFilter? name =
      Filter.builtin.find? name := rfl

end Bare

/-- A run of one filter with nothing behind it. -/
def filtered {σ : Type} (limit : Nat) (f : Filter) (input : Value) (args : List Value) :
    Eval σ Value := do
  return (← runFilter limit f input args []).1

section Filters

variable {σ : Type}

theorem filtered_eq (env : Environment σ) (limit : Nat) (f : Filter) (input : Value)
    (args : List Value) (m : Machine σ) :
    filtered limit f input args env m = ((FilterProgram.runFilter env.options.findFilter?
      env.filterContext limit f input args []).1, m) := by
  simp only [filtered, runFilter, bind_def]
  rcases FilterProgram.runFilter env.options.findFilter? env.filterContext limit f input args []
    with ⟨_ | _, _⟩ <;> rfl

theorem findFilter?_of_free {o : Options σ} (free : o.filters = []) :
    o.findFilter? = Filter.builtin.find? := by
  funext name
  rw [Options.findFilter?, free]
  rfl

theorem filtered_apply (clock : Calendar.Clock) (data : Value) (filter : Option String)
    (limit : Nat) (f : Filter) (input : Value) (args : List Value) (m : Machine σ) :
    filtered limit f input args (.bare σ clock data filter) m =
      ((FilterProgram.runFilter Filter.builtin.find? ⟨clock, data⟩ limit f input args []).1,
        m) := by
  rw [filtered_eq, findFilter?_of_free rfl]
  rfl

/-- A built-in filter leaves the chain behind it alone. -/
theorem quiet_builtin {env : Environment σ} (free : env.options.filters = []) {name : String}
    {f : Filter} (found : env.options.findFilter? name = some f) {limit : Nat} {input : Value}
    {args : List Value} : FilterProgram.Quiet (FilterProgram.runFilter env.options.findFilter?
      env.filterContext limit f input args) := by
  rw [findFilter?_of_free free] at found ⊢
  exact FilterProgram.runFilter_quiet (fun name g found => Filter.oblivious_of_find? found) _ _
    (Filter.oblivious_of_find? found) input args

/-- The chain behind a filter that leaves the queue alone is the one that was there before it. -/
theorem runFilter_of_quiet {env : Environment σ} {limit : Nat} {f : Filter}
    {input : Value} {args : List Value}
    (quiet : FilterProgram.Quiet (FilterProgram.runFilter env.options.findFilter? env.filterContext
      limit f input args)) (waiting : List FilterCall) :
    runFilter limit f input args waiting env =
      (do return (← filtered limit f input args, waiting) : Eval σ (Value × List FilterCall))
        env := by
  obtain ⟨r, hr⟩ := quiet
  funext m
  simp only [filtered, runFilter, bind_def, hr]
  cases r <;> rfl

variable (env : Environment σ) {name : String} {args : List FilterArg}

theorem pipe_unknown (unknown : env.options.findFilter? name = none) (eval : Expr → Eval σ Value)
    (limit n : Nat) (v : Value) (calls : List FilterCall) :
    pipe eval limit (n + 1) v (.mk name args :: calls) env =
      (fault (.unknownFilter name) : Eval σ Value) env := by
  funext m
  simp only [pipe, bind_def, ask, FilterCall.name, unknown]

variable (args) in
/-- One filter of a chain that leaves the others as they are. -/
theorem pipe_found {f : Filter} (found : env.options.findFilter? name = some f)
    (quiet : ∀ {limit input args}, FilterProgram.Quiet (FilterProgram.runFilter
      env.options.findFilter? env.filterContext limit f input args))
    (eval : Expr → Eval σ Value) (limit n : Nat) (v : Value) (calls : List FilterCall) :
    pipe eval limit (n + 1) v (.mk name args :: calls) env =
      (do
        let vs ← filterArgs eval args
        let w ← filtered limit f v vs
        pipe eval limit n w calls : Eval σ Value) env := by
  funext m
  simp only [pipe, bind_def, ask, FilterCall.name, found, FilterCall.args]
  rcases filterArgs eval args env m with ⟨e | vs, m₁⟩
  · rfl
  · simp only [runFilter_of_quiet quiet, bind_def]
    rcases filtered limit f v vs env m₁ with ⟨_ | _, _⟩ <;> rfl

end Filters

/-- A relation between two families of computations up to a renaming of function values, which the
steps of evaluation respect. -/
structure Simulation (ι σ τ : Type) (ρ : Nat → Nat) (env : Environment σ) (env' : Environment τ)
    (limit limit' : ι → Nat) where
  distinct : Function.Injective ρ
  clock_eq : env'.clock = env.clock
  Holds : ∀ {α β : Type}, (α → β) → (ι → Eval σ α) → (ι → Eval τ β) → Prop
  congr : ∀ {α β : Type} {r : α → β} {x x' : ι → Eval σ α} {y y' : ι → Eval τ β},
    Holds r x y → (∀ i, x i env = x' i env) → (∀ i, y i env' = y' i env') → Holds r x' y'
  pure : ∀ {α β : Type} (r : α → β) (a : α), Holds r (fun _ => pure a) fun _ => pure (r a)
  bind : ∀ {α β γ δ : Type} {r : α → β} {s : γ → δ} {x : ι → Eval σ α} {y : ι → Eval τ β}
    {f : ι → α → Eval σ γ} {g : ι → β → Eval τ δ},
    Holds r x y → (∀ a, Holds s (fun i => f i a) fun i => g i (r a)) →
      Holds s (fun i => x i >>= f i) fun i => y i >>= g i
  fault : ∀ {α β : Type} (r : α → β) (e : EvalError),
    Holds r (fun _ => fault e) fun _ => fault e
  lookUp : ∀ name, Holds (Value.rename ρ) (fun _ => lookUp name) fun _ => lookUp name
  makeFunction : ∀ params body,
    Holds (Value.rename ρ) (fun _ => makeFunction params body) fun _ => makeFunction params body
  random : Holds id (fun _ => random) fun _ => random
  bounded : ∀ {α β : Type} {r : α → β} {x : ι → Eval σ α} {y : ι → Eval τ β} (k : Nat),
    Holds r x y →
      Holds r (fun i => if limit i < k then exhausted else x i)
        fun i => if limit' i < k then exhausted else y i
  filtered : ∀ {name : String} {f : Filter}, Filter.builtin.find? name = some f →
    ∀ input args,
      Holds (Value.rename ρ) (fun i => filtered (limit i) f input args)
        fun i => filtered (limit' i) f (input.rename ρ) (args.map (Value.rename ρ))

namespace Simulation

variable {ι σ τ : Type} {ρ : Nat → Nat} {env : Environment σ} {env' : Environment τ}
  {limit limit' : ι → Nat} (S : Simulation ι σ τ ρ env env' limit limit')

section Steps

variable {α β γ δ : Type}

include S in
theorem zone_eq : env'.zone = env.zone := congrArg Calendar.Clock.zone S.clock_eq

/-- A step that asks for what both environments agree on. -/
theorem bind_ask {s : γ → δ} {h : Environment σ → α} {h' : Environment τ → β}
    {f : ι → α → Eval σ γ} {g : ι → β → Eval τ δ}
    (after : S.Holds s (fun i => f i (h env)) fun i => g i (h' env')) :
    S.Holds s (fun i => ask h >>= f i) fun i => ask h' >>= g i :=
  S.congr after (fun _ => rfl) fun _ => rfl

/-- A simulation as a comparison. Its second computation follows one whose results the first one
shows, in whatever way. -/
def comparison : Comparison ι σ τ id (Closure.rename ρ) env env' where
  faithful _ _ := Iff.rfl
  faithful' := Closure.rename_faithful S.distinct
  zone_eq := S.zone_eq
  Holds r r' x y := ∃ x₀, (∀ i, x i env = (r <$> x₀ i) env) ∧ S.Holds r' x₀ y
  congr := by
    rintro _ _ _ r r' x x₁ y y₁ ⟨x₀, first, second⟩ hx hy
    exact ⟨x₀, fun i => (hx i).symm.trans (first i), S.congr second (fun _ => rfl) hy⟩
  pure r r' c := ⟨fun _ => Pure.pure c, fun _ => rfl, S.pure r' c⟩
  bind := by
    rintro _ _ _ _ _ _ r r' s s' x y f g ⟨x₀, hx, first⟩ next
    obtain ⟨f₀, after⟩ := Classical.axiomOfChoice next
    exact ⟨fun i => x₀ i >>= fun c => f₀ c i,
      fun i => bind_eq_map (hx i) fun c => (after c).1 i, S.bind first fun c => (after c).2⟩
  fault r r' e := ⟨fun _ => Eval.fault e, fun _ => rfl, S.fault r' e⟩

theorem comparison_iff {r : α → α} (same : ∀ a, r a = a) {r' : α → β} {x : ι → Eval σ α}
    {y : ι → Eval τ β} : S.comparison.Holds r r' x y ↔ S.Holds r' x y := by
  obtain rfl : r = id := funext same
  constructor
  · rintro ⟨x₀, first, second⟩
    exact S.congr second (fun i => ((first i).trans (by rw [id_map])).symm) fun _ => rfl
  · exact fun h => ⟨x, fun i => by rw [id_map], h⟩

theorem gives_iff {x : ι → Eval σ Value} {y : ι → Eval τ Value} :
    S.comparison.Gives x y ↔ S.Holds (Value.rename ρ) x y := by
  rw [Value.rename_eq]
  exact S.comparison_iff Value.relabel_id

theorem givesAll_iff {x : ι → Eval σ (List Value)} {y : ι → Eval τ (List Value)} :
    S.comparison.GivesAll x y ↔ S.Holds (List.map (Value.rename ρ)) x y := by
  rw [Value.rename_eq]
  exact S.comparison_iff fun vs => by rw [funext Value.relabel_id]; exact List.map_id vs

end Steps

variable (eval : ι → Entry → Expr → Eval σ Value) (eval' : ι → Entry → Expr → Eval τ Value)

/-- The values of an expression correspond. -/
def Covers (e : Expr) : Prop :=
  S.Holds (Value.rename ρ) (fun i => eval i .handled e) fun i => eval' i .handled e

/-- The values of function calls correspond. The number of a function has no part in its call. -/
def CoversCalls : Prop :=
  ∀ f args, S.Holds (Value.rename ρ) (fun i => callClosure (eval i) f args)
    fun i => callClosure (eval' i) f (args.map (Value.rename ρ))

variable {S eval eval'}

section Parts

variable {es : List Expr}

theorem Covers.compared {e : Expr} (covers : S.Covers eval eval' e) :
    S.comparison.Covers eval eval' e e := S.gives_iff.2 covers

theorem CoversCalls.compared (calls : S.CoversCalls eval eval') (f : Closure) :
    S.comparison.CoversCall eval eval' f (f.rename ρ) := by
  intro args
  have called := calls f args
  rw [Value.rename_eq] at called
  rw [funext Value.relabel_id, List.map_id']
  exact (S.comparison_iff Value.relabel_id).2 called

theorem covers_same (covers : ∀ e ∈ es, S.Covers eval eval' e) :
    List.Forall₂ (S.comparison.Covers eval eval') es es :=
  List.forall₂_same.2 fun e member => (covers e member).compared

theorem all (covers : ∀ e ∈ es, S.Covers eval eval' e) :
    S.Holds (List.map (Value.rename ρ)) (fun i => all (eval i .handled) es)
      fun i => Eval.all (eval' i .handled) es :=
  S.givesAll_iff.1 (Comparison.all (covers_same covers))

theorem glued (covers : ∀ e ∈ es, S.Covers eval eval' e) :
    S.Holds id (fun i => glued (eval i .handled) es)
      fun i => Eval.glued (eval' i .handled) es :=
  (S.comparison_iff fun _ => rfl).1 (Comparison.glued (covers_same covers))

theorem callLazy (covers : ∀ e ∈ es, S.Covers eval eval' e) (f : LazyFunction) :
    S.Holds (Value.rename ρ) (fun i => callLazy (eval i .handled) f es)
      fun i => Eval.callLazy (eval' i .handled) f es :=
  S.gives_iff.1 (Comparison.callLazy (covers_same covers) f)

end Parts

section Filters

variable {clock : Calendar.Clock} {data : Value} {filter : Option String}

theorem pipe_nil {υ : Type} (eval : Expr → Eval υ Value) (limit n : Nat) (v : Value) :
    Eval.pipe eval limit n v [] = Pure.pure v := by
  cases n <;> rfl

/-- One filter of a chain, and what follows on its value. -/
def link {υ : Type} (eval : Expr → Eval υ Value) (limit : Nat) (call : FilterCall) (v : Value)
    (next : Value → Eval υ Value) : Eval υ Value :=
  match Filter.builtin.find? call.name with
  | none => Eval.fault (.unknownFilter call.name)
  | some f => do
    let args ← Eval.filterArgs eval call.args
    let w ← Eval.filtered limit f v args
    next w

theorem pipe_cons {υ : Type} (eval : Expr → Eval υ Value) (limit n : Nat) (v : Value)
    (call : FilterCall) (calls : List FilterCall) :
    Eval.pipe eval limit n v (call :: calls) (.bare υ clock data filter) =
      (if n < 1 then exhausted
        else link eval limit call v fun w => Eval.pipe eval limit (n - 1) w calls)
        (.bare υ clock data filter) := by
  cases n with
  | zero => rfl
  | succ n =>
    obtain ⟨name, args⟩ := call
    rw [if_neg (Nat.not_lt.mpr (Nat.succ_le_succ (Nat.zero_le n))), Nat.add_sub_cancel, link]
    have find_eq (name : String) :
        (Environment.bare υ clock data filter).options.findFilter? name =
          Filter.builtin.find? name := findFilter?_bare clock data filter name
    cases found : Filter.builtin.find? name with
    | none =>
      simp only [FilterCall.name, found]
      exact pipe_unknown _ ((find_eq name).trans found) eval limit n v calls
    | some f =>
      simp only [FilterCall.name, found]
      have known := (find_eq name).trans found
      exact pipe_found _ args known (quiet_builtin rfl known) eval limit n v calls

/-- The same for a chain of which so many filters have run. -/
theorem pipe_step {υ : Type} (eval : Expr → Eval υ Value) (limit k : Nat) (v : Value)
    (call : FilterCall) (calls : List FilterCall) :
    Eval.pipe eval limit (limit - k) v (call :: calls) (.bare υ clock data filter) =
      (if limit < k + 1 then exhausted
        else link eval limit call v fun w => Eval.pipe eval limit (limit - (k + 1)) w calls)
        (.bare υ clock data filter) := by
  rw [pipe_cons, Nat.sub_sub]
  by_cases h : limit < k + 1
  · rw [if_pos h, if_pos (by omega)]
  · rw [if_neg h, if_neg (by omega)]

variable {calls : List FilterCall}

theorem filterArgs {args : List FilterArg}
    (covers : ∀ e, sizeOf e < sizeOf args → S.Covers eval eval' e) :
    S.Holds (List.map (Value.rename ρ)) (fun i => Eval.filterArgs (eval i .handled) args)
      fun i => Eval.filterArgs (eval' i .handled) args := by
  have each := FilterArg.Layer.refls args fun e member =>
    (covers e (FilterArg.sizeOf_lt_all args e member)).compared
  exact S.givesAll_iff.1 (Comparison.filterArgs each)

theorem linked {call : FilterCall}
    (covers : ∀ e, sizeOf e < sizeOf call.args → S.Covers eval eval' e) (v : Value)
    (next : ι → Value → Eval σ Value) (next' : ι → Value → Eval τ Value)
    (after : ∀ w, S.Holds (Value.rename ρ) (fun i => next i w) fun i => next' i (w.rename ρ)) :
    S.Holds (Value.rename ρ) (fun i => link (eval i .handled) (limit i) call v (next i))
      fun i => link (eval' i .handled) (limit' i) call (v.rename ρ) (next' i) := by
  simp only [link]
  cases found : Filter.builtin.find? call.name with
  | none => exact S.fault _ _
  | some f =>
    apply S.bind (filterArgs covers)
    intro vs
    apply S.bind (S.filtered found v vs)
    exact after

-- From here on the environments are without extensions of the user.
variable {S : Simulation ι σ τ ρ (.bare σ clock data filter) (.bare τ clock (data.rename ρ) filter)
    limit limit'}

theorem pipe
    (covers : ∀ call ∈ calls, ∀ e, sizeOf e < sizeOf call.args → S.Covers eval eval' e)
    (v : Value) (k : Nat) :
    S.Holds (Value.rename ρ)
      (fun i => Eval.pipe (eval i .handled) (limit i) (limit i - k) v calls)
      fun i => Eval.pipe (eval' i .handled) (limit' i) (limit' i - k) (v.rename ρ) calls := by
  -- Every filter of the chain is one step closer to the limit, which `k` counts.
  induction calls generalizing v k with
  | nil =>
    apply S.congr (S.pure (Value.rename ρ) v)
    · exact fun i => by rw [pipe_nil]
    · exact fun i => by rw [pipe_nil]
  | cons call calls ih =>
    have first := covers call (by simp)
    have rest (w : Value) := ih (fun call h => covers call (by simp [h])) w (k + 1)
    apply S.congr (S.bounded (k + 1) (linked first v
      (fun i w => Eval.pipe (eval i .handled) (limit i) (limit i - (k + 1)) w calls)
      (fun i w => Eval.pipe (eval' i .handled) (limit' i) (limit' i - (k + 1)) w calls) rest))
    · exact fun i => (pipe_step (eval i .handled) (limit i) k v call calls).symm
    · exact fun i => (pipe_step (eval' i .handled) (limit' i) k (v.rename ρ) call calls).symm

theorem applyFilters {input : Expr} (first : S.Covers eval eval' input)
    (covers : ∀ call ∈ calls, ∀ e, sizeOf e < sizeOf call.args → S.Covers eval eval' e) :
    S.Holds (Value.rename ρ)
      (fun i => Eval.applyFilters (eval i .handled) (limit i) input calls)
      fun i => Eval.applyFilters (eval' i .handled) (limit' i) input calls := by
  apply S.bind first
  intro v
  exact pipe covers v 0

end Filters

end Simulation

end Eval

end TemplateFormula
