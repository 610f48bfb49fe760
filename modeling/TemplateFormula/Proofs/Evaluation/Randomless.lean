import TemplateFormula.Proofs.Evaluation.Isolation

/-!
# Evaluation without random numbers

Where no handler takes part and no function can be reached that calls for a random number, an
evaluation leaves the machine as it was, but for the functions that it has made, and its value
brings no such function into reach either. The filters of a user may be any that bring none into
reach themselves.
-/

namespace TemplateFormula

open Eval (randomName)

/-- Neither the expression nor a function written in it calls for a random number. -/
def Expr.Randomless (e : Expr) : Prop := ∀ args, ¬ e.Contains (.call randomName args)

def Closure.Randomless (f : Closure) : Prop := f.body.Randomless

def Value.Randomless (v : Value) : Prop := v.OnlyFunctions Closure.Randomless

def FilterCall.Randomless (c : FilterCall) : Prop := ∀ e ∈ FilterArg.allExprs c.args, e.Randomless

theorem Expr.Randomless.part {e part : Expr} (h : e.Randomless) (member : part ∈ e.parts) :
    part.Randomless := fun args inside => h args (.inside member inside)

theorem Expr.Randomless.of_parts {e : Expr} (own : ∀ args, e ≠ .call randomName args)
    (parts : ∀ part ∈ e.parts, part.Randomless) : e.Randomless := by
  intro args inside
  cases inside with
  | here => exact own args rfl
  | inside member rest => exact parts _ member args rest

theorem Value.FunctionFree.randomless {v : Value} (free : v.FunctionFree) : v.Randomless :=
  free.only _

/-- Programs that bring no function into reach that calls for a random number. Other filters, and
the calls that wait, bring in none either. -/
inductive FilterProgram.Randomless : FilterProgram → Prop
  | done {v : Value} (own : v.Randomless) : Randomless (.done v)
  | fail (e : EvalError) : Randomless (.fail e)
  | apply {name : String} {input : Value} {args : List Value}
      {next : Except EvalError Value → FilterProgram} (input_own : input.Randomless)
      (args_own : ∀ v ∈ args, v.Randomless) (failed : ∀ e, Randomless (next (.error e)))
      (gone : ∀ v : Value, v.Randomless → Randomless (next (.ok v))) :
      Randomless (.apply name input args next)
  | known {name : String} {next : Bool → FilterProgram} (after : ∀ b, Randomless (next b)) :
      Randomless (.known name next)
  | waiting {next : List FilterCall → FilterProgram}
      (after : ∀ calls : List FilterCall, (∀ c ∈ calls, c.Randomless) → Randomless (next calls)) :
      Randomless (.waiting next)
  | replaceWaiting {calls : List FilterCall} {next : FilterProgram}
      (calls_own : ∀ c ∈ calls, c.Randomless) (after : Randomless next) :
      Randomless (.replaceWaiting calls next)

def Filter.Randomless (f : Filter) : Prop :=
  ∀ ctx input args, ctx.data.Randomless → input.Randomless → (∀ v ∈ args, v.Randomless) →
    (f ctx input args).Randomless

variable {σ : Type}

/-- An environment in which nothing but an expression can call for a random number. -/
structure Environment.Randomless (env : Environment σ) : Prop where
  data : env.data.Randomless
  filters : ∀ entry ∈ env.options.filters, entry.2.Randomless
  answers : ∀ entry ∈ env.options.namespaces, ∀ name, (entry.2 name).Randomless

/-- A machine in whose scopes no name stands for a function that calls for a random number. -/
def Machine.Randomless (env : Environment σ) (m : Machine σ) : Prop :=
  ∀ name, (Scope.lookUp env.data name m.scopes).Randomless

/-- The machine after so many functions more have been made. -/
def Machine.made (m : Machine σ) (k : Nat) : Machine σ := { m with functions := m.functions + k }

theorem Machine.made_zero (m : Machine σ) : m.made 0 = m := rfl

theorem Machine.made_made (m : Machine σ) (k l : Nat) : (m.made k).made l = m.made (k + l) := by
  simp only [made, Nat.add_assoc]

section Blanking

-- Whether functions are in reach becomes an equation here: blanking those with such calls changes
-- nothing. What is known of computations on relabeled functions then speaks of it.

open scoped Classical in
/-- A blank function in place of one that calls for a random number. -/
noncomputable def Closure.blanked (f : Closure) : Closure :=
  if f.Randomless then f else blank f.id

theorem Closure.blanked_randomless (f : Closure) : f.blanked.Randomless := by
  unfold blanked
  split
  · assumption
  · exact .of_parts nofun nofun

theorem Closure.blanked_faithful : Faithful blanked := by
  have id_eq (f : Closure) : f.blanked.id = f.id := by
    unfold blanked
    split <;> rfl
  intro f g
  rw [id_eq, id_eq]

namespace Value

theorem Randomless.blanked {v : Value} (h : v.Randomless) : v.relabel Closure.blanked = v :=
  h Closure.blanked fun _ own => if_pos own

theorem relabel_randomless (v : Value) : (v.relabel Closure.blanked).Randomless := by
  intro κ fixed
  have same : κ ∘ Closure.blanked = Closure.blanked :=
    funext fun f => fixed f.blanked f.blanked_randomless
  rw [relabel_relabel, same]

/-- A value brings no call for a random number into reach if it stays the same where functions with
such calls are blanked. -/
theorem randomless_iff {v : Value} : v.Randomless ↔ v.relabel Closure.blanked = v :=
  ⟨Randomless.blanked, fun same => same ▸ relabel_randomless v⟩

theorem items_blanked {vs : List Value} :
    (∀ v ∈ vs, v.Randomless) ↔ vs.map (relabel Closure.blanked) = vs := by
  simp only [randomless_iff]
  exact List.map_inj_left.symm.trans (by rw [List.map_id'])

theorem randomless_array {items : List Value} :
    (array items).Randomless ↔ ∀ v ∈ items, v.Randomless := by
  rw [randomless_iff, relabel_array, array.injEq, items_blanked]

theorem randomless_function {f : Closure} : (function f).Randomless ↔ f.Randomless := by
  rw [randomless_iff, relabel_function, function.injEq]
  exact ⟨fun same => same ▸ f.blanked_randomless, fun own => if_pos own⟩

end Value

end Blanking

section Filters

open FilterProgram

/-- A program that takes the same steps on blanked functions, given no others, brings in none. -/
theorem FilterProgram.Relabeled.randomless {p p' : FilterProgram}
    (h : Relabeled Closure.blanked p p') (same : p' = p) (oblivious : Oblivious p) :
    p.Randomless := by
  induction h with
  | done v =>
    injection same with same
    exact .done (Value.randomless_iff.2 same)
  | fail e => exact .fail e
  | @apply name input args next next' _ _ failed gone =>
    injection same with _ input_same args_same next_same
    subst next_same
    cases oblivious with
    | apply after =>
      refine .apply (Value.randomless_iff.2 input_same) (Value.items_blanked.2 args_same)
        (fun e => failed e rfl (after _)) fun v own => gone v ?_ (after _)
      rw [own.blanked]
  | known _ ih =>
    injection same with _ next_same
    subst next_same
    cases oblivious with
    | known after => exact .known fun b => ih b rfl (after b)
  | waiting | replaceWaiting => cases oblivious

theorem Filter.builtin_randomless {name : String} {f : Filter}
    (found : builtin.find? name = some f) : f.Randomless := by
  intro ctx input args data_own input_own args_own
  have related := natural_of_find? Closure.blanked_faithful found ctx input args
  have context : ctx.relabel Closure.blanked = ctx := by
    rw [FilterContext.relabel, data_own.blanked]
  rw [context, input_own.blanked, Value.items_blanked.1 args_own] at related
  exact related.randomless rfl (oblivious_of_find? found ctx input args)

/-- A value and waiting calls that bring no call for a random number into reach. -/
structure FilterProgram.Free (o : FilterOutcome) : Prop where
  value : ∀ v, o.1 = .ok v → v.Randomless
  waiting : ∀ c ∈ o.2, c.Randomless

namespace FilterProgram

theorem free_error (h : Halt) {queue : List FilterCall} (queue_own : ∀ c ∈ queue, c.Randomless) :
    Free (.error h, queue) := ⟨nofun, queue_own⟩

variable {find? : String → Option Filter}

theorem run_free {enter : Filter → Value → List Value → FilterRun Value}
    (entered : ∀ name f, find? name = some f → ∀ input args queue, input.Randomless →
      (∀ v ∈ args, v.Randomless) → (∀ c ∈ queue, c.Randomless) → Free (enter f input args queue))
    {p : FilterProgram} (h : p.Randomless) {queue : List FilterCall}
    (queue_own : ∀ c ∈ queue, c.Randomless) : Free (run find? enter p queue) := by
  induction h generalizing queue with
  | done own => exact ⟨fun v value => Except.ok.inj value ▸ own, queue_own⟩
  | fail e => exact free_error _ queue_own
  | @apply name input args next input_own args_own _ _ failed gone =>
    cases found : find? name with
    | none =>
      simp only [run, found]
      exact failed _ queue_own
    | some f =>
      rw [run_apply enter found]
      have first := entered name f found input args queue input_own args_own queue_own
      generalize enter f input args queue = o at first
      obtain ⟨(e | _) | v, queue⟩ := o
      · exact failed e first.waiting
      · exact free_error _ first.waiting
      · exact gone v (first.value v rfl) first.waiting
  | known _ ih => exact ih _ queue_own
  | waiting _ ih => exact ih queue queue_own queue_own
  | replaceWaiting calls_own _ ih => exact ih calls_own

theorem runFilter_free (filters : ∀ name f, find? name = some f → f.Randomless)
    {ctx : FilterContext} (data : ctx.data.Randomless) (n : Nat) {f : Filter} (own : f.Randomless)
    {input : Value} (input_own : input.Randomless) {args : List Value}
    (args_own : ∀ v ∈ args, v.Randomless) {queue : List FilterCall}
    (queue_own : ∀ c ∈ queue, c.Randomless) : Free (runFilter find? ctx n f input args queue) := by
  induction n generalizing f input args queue with
  | zero => exact free_error _ queue_own
  | succ n ih =>
    refine run_free ?_ (own ctx input args data input_own args_own) queue_own
    intro name g found input args queue input_own args_own queue_own
    exact ih (filters name g found) input_own args_own queue_own

end FilterProgram

theorem Environment.Randomless.filter {env : Environment σ} (quiet : env.Randomless) {name : String}
    {f : Filter} (found : env.options.findFilter? name = some f) : f.Randomless := by
  unfold Options.findFilter? at found
  split at found
  · next g own =>
    cases found
    exact quiet.filters (name, f) (Filter.mem_of_find? own)
  · exact Filter.builtin_randomless found

end Filters

namespace Eval

variable {env : Environment σ}

/-- Computations that change of the machine only how many functions have been made, with results of
some kind. -/
def Calm {α : Type} (env : Environment σ) (P : α → Prop) (x : Eval σ α) : Prop :=
  ∀ m, m.Randomless env → (∃ k, (x env m).2 = m.made k) ∧ ∀ a, (x env m).1 = .ok a → P a

namespace Calm

variable {α β : Type} {P : α → Prop} {Q : β → Prop}

theorem pure {a : α} (own : P a) : Calm env P (Pure.pure a) :=
  fun m _ => ⟨⟨0, m.made_zero.symm⟩, fun _ value => Except.ok.inj value ▸ own⟩

theorem halt (h : Halt) : Calm env P (halt h) := fun m _ => ⟨⟨0, m.made_zero.symm⟩, nofun⟩

theorem bind {x : Eval σ α} {f : α → Eval σ β} (first : Calm env P x)
    (next : ∀ a, P a → Calm env Q (f a)) : Calm env Q (x >>= f) := by
  intro m own
  rw [bind_def]
  have first := first m own
  generalize x env m = p at first
  obtain ⟨h | a, m₁⟩ := p
  · exact ⟨first.1, nofun⟩
  · obtain ⟨⟨k, rfl⟩, value⟩ := first
    obtain ⟨⟨l, after⟩, value⟩ := next a (value a rfl) (m.made k) own
    exact ⟨⟨k + l, after.trans (m.made_made k l)⟩, value⟩

theorem mono {P' : α → Prop} {x : Eval σ α} (h : Calm env P x) (weaker : ∀ a, P a → P' a) :
    Calm env P' x := fun m own => ⟨(h m own).1, fun a value => weaker a ((h m own).2 a value)⟩

theorem congr {x y : Eval σ α} (h : Calm env P x) (same : x env = y env) : Calm env P y := by
  intro m own
  rw [← same]
  exact h m own

theorem bind_ask {h : Environment σ → α} {f : α → Eval σ β} (after : Calm env Q (f (h env))) :
    Calm env Q (ask h >>= f) := after.congr rfl

/-- A scope is entered in which no name stands for a function that calls for a random number. -/
theorem inScope {s : Scope} {x : Eval σ α} (h : Calm env P x)
    (own : ∀ m : Machine σ, m.Randomless env →
      Machine.Randomless env { m with scopes := s :: m.scopes }) :
    Calm env P (inScope s x) := by
  intro m outside
  obtain ⟨⟨k, after⟩, value⟩ := h _ (own m outside)
  refine ⟨⟨k, ?_⟩, value⟩
  simp only [Eval.inScope, after]
  rfl

end Calm

/-- Calm computations as a comparison, where the second computation has no part. -/
noncomputable def calming (env : Environment σ) :
    Comparison PUnit σ σ Closure.blanked Closure.blanked env env where
  faithful := Closure.blanked_faithful
  faithful' := Closure.blanked_faithful
  zone_eq := rfl
  Holds r _ x _ := Calm env (fun a => ∃ c, r c = a) (x ⟨⟩)
  congr h hx _ := h.congr (hx ⟨⟩)
  pure _ _ c := .pure ⟨c, rfl⟩
  bind hx hf := hx.bind fun _ ⟨c, same⟩ => same ▸ hf c
  fault _ _ e := .halt (.fault e)

theorem calming_gives {x y : PUnit → Eval σ Value} :
    (calming env).Gives x y ↔ Calm env Value.Randomless (x ⟨⟩) := by
  constructor
  · exact fun h => h.mono fun _ ⟨w, same⟩ => same ▸ w.relabel_randomless
  · exact fun h => h.mono fun v own => ⟨v, own.blanked⟩

theorem calming_givesAll {x y : PUnit → Eval σ (List Value)} :
    (calming env).GivesAll x y ↔ Calm env (fun vs => ∀ v ∈ vs, v.Randomless) (x ⟨⟩) := by
  constructor
  · refine fun h => h.mono ?_
    rintro _ ⟨vs, rfl⟩
    exact List.forall_mem_map.2 fun v _ => v.relabel_randomless
  · exact fun h => h.mono fun vs own => ⟨vs, Value.items_blanked.1 own⟩

section Scopes

theorem start_randomless (quiet : env.Randomless) (user : σ) :
    Machine.Randomless env (.start env.clock user) := by
  intro name
  rw [Machine.start, Scope.lookUp]
  split
  · exact quiet.data
  · rw [Value.randomless_iff, ← Value.memberAt_relabel, quiet.data.blanked]

theorem bind_randomless {bound : List (String × Value)} (bound_own : ∀ b ∈ bound, b.2.Randomless)
    (params : List String) {args : List Value} (args_own : ∀ v ∈ args, v.Randomless) :
    ∀ b ∈ Scope.bind bound params args, b.2.Randomless := by
  induction params generalizing bound args with
  | nil => exact bound_own
  | cons p params ih =>
    have first : (args.headD .undefined).Randomless := by
      cases args with
      | nil => exact fun _ _ => rfl
      | cons v vs => exact args_own v List.mem_cons_self
    exact ih (List.forall_mem_cons.2 ⟨first, bound_own⟩)
      fun v member => args_own v (List.mem_of_mem_tail member)

/-- A function is called with arguments under which no call for a random number is in reach. -/
theorem locals_randomless (params : List String) {args : List Value}
    (args_own : ∀ v ∈ args, v.Randomless) (m : Machine σ) (own : m.Randomless env) :
    Machine.Randomless env
      { m with scopes := .locals (Scope.bind [] params args) :: m.scopes } := by
  intro name
  rw [Scope.lookUp]
  cases found : (Scope.bind [] params args).lookup name with
  | none => exact own name
  | some v =>
    obtain ⟨before, after, split, _⟩ := List.lookup_eq_some_iff.1 found
    exact bind_randomless (List.forall_mem_nil _) params args_own (name, v) (by rw [split]; simp)

end Scopes

theorem calm_runFilter (quiet : env.Randomless) {f : Filter} (own : f.Randomless) (limit : Nat)
    {input : Value} (input_own : input.Randomless) {args : List Value}
    (args_own : ∀ v ∈ args, v.Randomless) {queue : List FilterCall}
    (queue_own : ∀ c ∈ queue, c.Randomless) :
    Calm env (fun p => p.1.Randomless ∧ ∀ c ∈ p.2, c.Randomless)
      (runFilter limit f input args queue) := by
  intro m _
  have filters (name : String) (g : Filter) (found : env.options.findFilter? name = some g) :
      g.Randomless := quiet.filter found
  have free : FilterProgram.Free (FilterProgram.runFilter env.options.findFilter? env.filterContext
      limit f input args queue) :=
    FilterProgram.runFilter_free filters quiet.data limit own input_own args_own queue_own
  rw [runFilter]
  generalize FilterProgram.runFilter env.options.findFilter? env.filterContext limit f input args
    queue = o at free
  obtain ⟨h | v, waiting⟩ := o
  · refine ⟨⟨0, m.made_zero.symm⟩, fun p value => ?_⟩
    cases value
  · refine ⟨⟨0, m.made_zero.symm⟩, fun p value => ?_⟩
    cases value
    exact ⟨free.value v rfl, free.waiting⟩

section Rules

variable {n : Nat} (covers : ∀ e : Expr, e.Randomless → Calm env Value.Randomless
  (within n .handled e))

include covers

theorem calm_callClosure {f : Closure} (own : f.Randomless) {args : List Value}
    (args_own : ∀ v ∈ args, v.Randomless) :
    Calm env Value.Randomless (callClosure (within n) f args) :=
  (covers f.body own).inScope (locals_randomless f.params args_own)

/-- The values of expressions without random numbers as a comparison has them. -/
theorem calming_covers {e : Expr} (own : e.Randomless) :
    (calming env).Covers (fun _ => within n) (fun _ => within n) e e :=
  calming_gives.2 (covers e own)

theorem calm_eager {name : String} (other : name ≠ randomName)
    {f : List Value → Eval σ Value} (found : eager? (within n) name = some f) {args : List Value}
    (args_own : ∀ v ∈ args, v.Randomless) : Calm env Value.Randomless (f args) := by
  have calls (f : Closure) : (calming env).CoversCall (fun _ => within n) (fun _ => within n)
      f.blanked f.blanked := fun args => calming_gives.2 (calm_callClosure covers
        f.blanked_randomless (List.forall_mem_map.2 fun v _ => v.relabel_randomless))
  obtain none_eq | ⟨g, g', some_eq, runs⟩ := Comparison.eager calls
    (fun same => absurd same other) fun _ _ _ => rfl
  · rw [(none_eq ⟨⟩).1] at found
    cases found
  · have same : g ⟨⟩ = f := Option.some.inj ((some_eq ⟨⟩).1.symm.trans found)
    have run := calming_gives.1 (runs args)
    rwa [Value.items_blanked.1 args_own, same] at run

variable (quiet : env.Randomless)
include quiet

theorem calm_pipe (k : Nat) {v : Value} (own : v.Randomless) {calls : List FilterCall}
    (calls_own : ∀ c ∈ calls, c.Randomless) :
    Calm env Value.Randomless (pipe (within n .handled) n k v calls) := by
  induction k generalizing v calls with
  | zero =>
    cases calls with
    | nil => exact .pure own
    | cons call calls => exact .halt _
  | succ k ih =>
    cases calls with
    | nil => exact .pure own
    | cons call calls =>
      obtain ⟨call_own, rest_own⟩ := List.forall_mem_cons.1 calls_own
      refine .bind_ask ?_
      cases found : env.options.findFilter? call.name with
      | none => exact .halt _
      | some f =>
        have args : (calming env).GivesAll (fun _ => filterArgs (within n .handled) call.args)
            fun _ => filterArgs (within n .handled) call.args :=
          Comparison.filterArgs (FilterArg.Layer.refls call.args fun e member =>
            calming_gives.2 (covers e (call_own e member)))
        refine (calming_givesAll.1 args).bind fun args args_own => ?_
        refine (calm_runFilter quiet (quiet.filter found) n own args_own rest_own).bind ?_
        exact fun p p_own => ih p_own.1 p_own.2

theorem calm_applyFilters {input : Expr} (own : input.Randomless) {calls : List FilterCall}
    (calls_own : ∀ c ∈ calls, c.Randomless) :
    Calm env Value.Randomless (applyFilters (within n .handled) n input calls) :=
  (covers input own).bind fun _ v_own => calm_pipe covers quiet n v_own calls_own

theorem calm_island {body : Expr} (own : body.Randomless) :
    Calm env Value.Randomless (island n (within n) body) := by
  refine .bind_ask ?_
  cases env.options.islandFilter? with
  | none => exact covers body own
  | some name =>
    have piped : Calm env Value.Randomless
        (applyFilters (within n .handled) n body [.mk name []]) :=
      calm_applyFilters covers quiet own (by simp [FilterCall.Randomless, FilterArg.allExprs,
        FilterCall.args])
    cases body with
    | filter input calls => exact covers _ own
    | _ => exact piped

theorem calm_inNamespace {name : String} {body : Expr} (own : body.Randomless) :
    Calm env Value.Randomless (inNamespace (within n) name body) := by
  refine .bind_ask ?_
  cases found : env.options.namespaces.lookup name with
  | none => exact .halt _
  | some r =>
    obtain ⟨before, after, split, _⟩ := List.lookup_eq_some_iff.1 found
    exact (covers body own).inScope fun _ _ => quiet.answers (name, r) (by rw [split]; simp)

theorem calm_callBuiltin {name : String} (other : name ≠ randomName) {es : List Expr}
    (own : ∀ e ∈ es, e.Randomless) :
    Calm env Value.Randomless (callBuiltin n (within n) name es) := by
  have each := List.forall₂_same.2 fun e member => calming_covers covers (own e member)
  have all_calm := calming_givesAll.1 (Comparison.all each)
  unfold callBuiltin
  cases LazyFunction.ofName? name with
  | some f => exact calming_gives.1 (Comparison.callLazy each f)
  | none =>
    cases eager : eager? (within n) name with
    | some f => exact all_calm.bind fun args => calm_eager covers other eager
    | none =>
      refine .bind_ask ?_
      cases found : env.options.findFilter? name with
      | none => exact .halt _
      | some f =>
        refine all_calm.bind fun args args_own => ?_
        have input_own : (Argument.orUndefined args 0).Randomless := by
          rw [← Value.items_blanked.1 args_own, Argument.orUndefined_relabel]
          exact Value.relabel_randomless _
        have rest_own (v : Value) (member : v ∈ args.tail) : v.Randomless :=
          args_own v (List.mem_of_mem_tail member)
        refine (calm_runFilter quiet (quiet.filter found) n input_own rest_own
          (List.forall_mem_nil _)).bind ?_
        exact fun p p_own => .pure p_own.1

variable (handlers : env.options.handlers = [])
include handlers

theorem calm_call {name : String} (other : name ≠ randomName) {es : List Expr}
    (own : ∀ e ∈ es, e.Randomless) : Calm env Value.Randomless (call n (within n) name es) := by
  refine .bind_ask ?_
  have unhandled : env.options.functionHandler? name = none := by
    rw [Options.functionHandler?, handlers]
    rfl
  rw [unhandled]
  exact calm_callBuiltin covers quiet other own

/-- Every node keeps the machine calm if its parts do. -/
theorem calm_rule {e : Expr} (own : e.Randomless) :
    Calm env Value.Randomless (rule n (within n) e) := by
  let V : Vocabulary := ⟨fun name => name ≠ randomName, fun _ => True⟩
  have parts (part : Expr) (member : part ∈ e.parts) :
      (calming env).Covers (fun _ => within n) (fun _ => within n) part part :=
    calming_covers covers (own.part member)
  -- What a node does with its parts alone is the same in every comparison. The chains and the calls
  -- also ask for filters, which are calm for reasons of their own.
  have layer (spoken : e.Spoken V) : Calm env Value.Randomless (rule n (within n) e) := by
    suffices nodes : (calming env).Gives (fun _ => rule n (within n) e)
        fun _ => rule n (within n) e from calming_gives.1 nodes
    refine Comparison.rule (Expr.Layer.refl spoken parts) ?chains ?callees
    case chains =>
      rintro input _ calls _ rfl _
      refine calming_gives.2 (calm_applyFilters covers quiet (own.part List.mem_cons_self) ?_)
      intro c member e inside
      exact own.part (List.mem_cons_of_mem _ (List.mem_flatMap.2 ⟨c, member, inside⟩))
    case callees =>
      rintro name es _ rfl _
      exact calming_gives.2 (calm_call covers quiet handlers spoken fun e => own.part)
  cases e with
  | island body => exact calm_island covers quiet (own.part List.mem_cons_self)
  | «variable» name =>
    exact fun m scopes => ⟨⟨0, rfl⟩, fun v value => Except.ok.inj value ▸ scopes name⟩
  | inNamespace name body => exact calm_inNamespace covers quiet (own.part List.mem_cons_self)
  | function params body =>
    refine fun m _ => ⟨⟨1, rfl⟩, fun v value => ?_⟩
    cases value
    exact Value.randomless_function.2 (own.part List.mem_cons_self)
  | filter input calls => exact layer fun _ _ => trivial
  | call name es => exact layer fun same => own es (same ▸ .here _)
  | _ => exact layer trivial

omit covers in
/-- Where no handler takes part, an expression that does not call for a random number, in scopes
where nothing does, leaves the machine as it was but for the functions that it makes. -/
theorem calm_within (n : Nat) {e : Expr} (own : e.Randomless) :
    Calm env Value.Randomless (within n .handled e) := by
  induction n generalizing e with
  | zero => exact .halt _
  | succ n ih =>
    have unhandled : env.options.nodeHandler? e.kind = none := by
      rw [Options.nodeHandler?, handlers]
      rfl
    exact (calm_rule (fun e own => ih own) quiet handlers own).congr
      (funext fun m => (within_builtin unhandled m).symm)

end Rules

end Eval

end TemplateFormula
