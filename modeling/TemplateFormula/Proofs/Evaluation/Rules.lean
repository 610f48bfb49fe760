import TemplateFormula.Proofs.Evaluation.Simulation

/-!
# Rules under a simulation

Where the parts of an expression and the calls of functions correspond, so do the values that the
rule of the expression computes from them.
-/

namespace TemplateFormula.Eval.Simulation

variable {ι σ τ : Type} {ρ : Nat → Nat} {env : Environment σ} {env' : Environment τ}
  {limit limit' : ι → Nat} {S : Simulation ι σ τ ρ env env' limit limit'}
  {eval : ι → Entry → Expr → Eval σ Value} {eval' : ι → Entry → Expr → Eval τ Value}

/-- A function on evaluated arguments is there for both evaluations or for neither. -/
theorem eager (calls : S.CoversCalls eval eval') (name : String) :
    (∀ i, eager? (eval i) name = none ∧ eager? (eval' i) name = none) ∨
    ∃ (f : ι → List Value → Eval σ Value) (f' : ι → List Value → Eval τ Value),
      (∀ i, eager? (eval i) name = some (f i) ∧ eager? (eval' i) name = some (f' i)) ∧
      ∀ args, S.Holds (Value.rename ρ) (fun i => f i args)
        fun i => f' i (args.map (Value.rename ρ)) := by
  obtain none_eq | ⟨f, f', some_eq, runs⟩ := Comparison.eager calls.compared
    (fun _ => (S.comparison_iff fun _ => rfl).2 S.random)
    fun (f : Builtin) (_ : Builtin.find? name = some f) args => by rw [S.clock_eq]
  · exact .inl none_eq
  · refine .inr ⟨f, f', some_eq, fun args => ?_⟩
    have run := runs args
    rw [funext Value.relabel_id, List.map_id'] at run
    rw [Value.rename_eq]
    exact (S.comparison_iff Value.relabel_id).1 run

section Nodes

/-- The rules that look at the options of an evaluation correspond at an expression. -/
structure CoversOptions (S : Simulation ι σ τ ρ env env' limit limit')
    (eval : ι → Entry → Expr → Eval σ Value) (eval' : ι → Entry → Expr → Eval τ Value)
    (e : Expr) : Prop where
  island : ∀ body, e = .island body →
    S.Holds (Value.rename ρ) (fun i => Eval.island (limit i) (eval i) body)
      fun i => Eval.island (limit' i) (eval' i) body
  filter : ∀ input calls, e = .filter input calls →
    S.Holds (Value.rename ρ) (fun i => Eval.applyFilters (eval i .handled) (limit i) input calls)
      fun i => Eval.applyFilters (eval' i .handled) (limit' i) input calls
  inNamespace : ∀ name body, e = .inNamespace name body →
    S.Holds (Value.rename ρ) (fun i => Eval.inNamespace (eval i) name body)
      fun i => Eval.inNamespace (eval' i) name body
  call : ∀ name args, e = .call name args →
    S.Holds (Value.rename ρ) (fun i => Eval.call (limit i) (eval i) name args)
      fun i => Eval.call (limit' i) (eval' i) name args

/-- The rule of an expression whose parts correspond. -/
theorem ruleOf (e : Expr) (covers : S.CoversOptions eval eval' e)
    (parts : ∀ e', sizeOf e' < sizeOf e → S.Covers eval eval' e') :
    S.Holds (Value.rename ρ) (fun i => rule (limit i) (eval i) e)
      fun i => Eval.rule (limit' i) (eval' i) e := by
  have same (a : Expr) (member : a ∈ e.parts) : S.comparison.Covers eval eval' a a :=
    (parts a (Expr.sizeOf_lt_of_mem_parts member)).compared
  have layer (spoken : e.Spoken .all) (chain : ∀ input calls, e ≠ .filter input calls)
      (callee : ∀ name es, e ≠ .call name es) :
      S.Holds (Value.rename ρ) (fun i => rule (limit i) (eval i) e)
        fun i => Eval.rule (limit' i) (eval' i) e :=
    S.gives_iff.1 (Comparison.rule (.refl spoken same)
      (fun a _ calls _ own _ => absurd own (chain a calls))
      fun name es _ own _ => absurd own (callee name es))
  cases e with
  | island body => exact covers.island body rfl
  | filter input calls => exact covers.filter input calls rfl
  | «variable» name => exact S.lookUp name
  | inNamespace name body => exact covers.inNamespace name body rfl
  | call name args => exact covers.call name args rfl
  | function params body => exact S.makeFunction params body
  | _ => exact layer trivial (by simp) (by simp)

end Nodes

section Bare

variable {clock : Calendar.Clock} {data : Value} {filter : Option String}
  {S : Simulation ι σ τ ρ (.bare σ clock data filter) (.bare τ clock (data.rename ρ) filter)
    limit limit'}

theorem callFilter (name : String) {es : List Expr} (covers : ∀ e ∈ es, S.Covers eval eval' e) :
    S.Holds (Value.rename ρ)
      (fun i => do
        match ← Eval.ask fun env => env.options.findFilter? name with
        | some f =>
          let values ← Eval.all (eval i .handled) es
          return (← Eval.runFilter (limit i) f (Argument.orUndefined values 0) values.tail []).1
        | none => Eval.fault (.unknownFunction name))
      (fun i => do
        match ← Eval.ask fun env => env.options.findFilter? name with
        | some f =>
          let values ← Eval.all (eval' i .handled) es
          return (← Eval.runFilter (limit' i) f (Argument.orUndefined values 0) values.tail []).1
        | none => Eval.fault (.unknownFunction name)) := by
  apply S.bind_ask
  simp only [findFilter?_bare]
  cases found : Filter.builtin.find? name with
  | none => exact S.fault _ _
  | some f =>
    apply S.bind (all covers)
    intro vs
    have run := S.filtered found (Argument.orUndefined vs 0) vs.tail
    rw [← Argument.orUndefined_rename, List.map_tail] at run
    exact run

theorem callBuiltin (calls : S.CoversCalls eval eval') (name : String) {es : List Expr}
    (covers : ∀ e ∈ es, S.Covers eval eval' e) :
    S.Holds (Value.rename ρ) (fun i => callBuiltin (limit i) (eval i) name es)
      fun i => Eval.callBuiltin (limit' i) (eval' i) name es := by
  unfold Eval.callBuiltin
  cases LazyFunction.ofName? name with
  | some f => exact callLazy covers f
  | none =>
    obtain none_eq | ⟨f, f', some_eq, runs⟩ := eager calls name
    · simp only [none_eq]
      exact callFilter name covers
    · simp only [some_eq]
      exact S.bind (all covers) runs

theorem call (calls : S.CoversCalls eval eval') (name : String) {es : List Expr}
    (covers : ∀ e ∈ es, S.Covers eval eval' e) :
    S.Holds (Value.rename ρ) (fun i => call (limit i) (eval i) name es)
      fun i => Eval.call (limit' i) (eval' i) name es := by
  apply S.bind_ask
  exact callBuiltin calls name covers

theorem island {body : Expr} (covers : S.Covers eval eval' body) :
    S.Holds (Value.rename ρ) (fun i => island (limit i) (eval i) body)
      fun i => Eval.island (limit' i) (eval' i) body := by
  apply S.bind_ask
  have filters : (Environment.bare τ clock (data.rename ρ) filter).options.islandFilter? =
      (Environment.bare σ clock data filter).options.islandFilter? := rfl
  rw [filters]
  cases (Environment.bare σ clock data filter).options.islandFilter? with
  | none => exact covers
  | some name =>
    have bare : ∀ call ∈ [FilterCall.mk name []], ∀ e, sizeOf e < sizeOf call.args →
        S.Covers eval eval' e := by
      intro call member e size
      rw [List.mem_singleton.mp member] at size
      cases e <;> simp [FilterCall.args] at size
    have piped := applyFilters covers bare
    cases body with
    | filter input calls => exact covers
    | _ => exact piped

theorem inNamespace (name : String) (body : Expr) :
    S.Holds (Value.rename ρ) (fun i => inNamespace (eval i) name body)
      fun i => Eval.inNamespace (eval' i) name body := by
  apply S.bind_ask
  exact S.fault _ _


/-- Without extensions of the user every rule corresponds where the parts do. -/
theorem rule (calls : S.CoversCalls eval eval') (e : Expr)
    (parts : ∀ e', sizeOf e' < sizeOf e → S.Covers eval eval' e') :
    S.Holds (Value.rename ρ) (fun i => Eval.rule (limit i) (eval i) e)
      fun i => Eval.rule (limit' i) (eval' i) e := by
  refine ruleOf e ⟨?island, ?filter, fun name body _ => inNamespace name body, ?call⟩ parts
  case island =>
    rintro body rfl
    exact island (parts body (by rw [Expr.island.sizeOf_spec]; omega))
  case filter =>
    rintro input chain rfl
    apply applyFilters (parts input (by rw [Expr.filter.sizeOf_spec]; omega))
    intro call member e size
    have call_size := List.sizeOf_lt_of_mem member
    obtain ⟨name, args⟩ := call
    rw [FilterCall.mk.sizeOf_spec] at call_size
    have args_eq : (FilterCall.mk name args).args = args := rfl
    rw [args_eq] at size
    exact parts e (by rw [Expr.filter.sizeOf_spec]; omega)
  case call =>
    rintro name args rfl
    refine call calls name fun e member => parts e ?_
    have size := List.sizeOf_lt_of_mem member
    rw [Expr.call.sizeOf_spec]
    omega

end Bare

end TemplateFormula.Eval.Simulation
