import TemplateFormula.Proofs.Evaluation.Leading

/-!
# Results of corresponding expressions

Related expressions lead each other in scopes where their names mean corresponding things: by
induction on the limit of the first, one node at a time. A step on the one side may have none on the
other, since an island without effect can be missing there. Functions are called in scopes of the
caller, so only names that mean the same everywhere may stand free in them, unless a function is
written in the call itself.
-/

namespace TemplateFormula.Eval

open Value (Seen relabel)

variable {σ : Type} {S : Setting σ} {C : Names → Expr → Expr → Prop}

section Scopes

variable (uniform : S.Uniform C) (s s' : List Scope)

/-- Leading as a comparison, for given scopes. -/
noncomputable def leading :
    Comparison Nat σ σ (ownSide C) (otherSide C) S.environment S.environment' where
  faithful := Closure.left_faithful
  faithful' := uniform.pairs.right_faithful
  zone_eq := uniform.zone
  Holds r r' x y := ∀ i, Leads S r r' s s' (x i) y
  congr h hx hy := fun i => (h i).congr (hx i) (k := 0) fun n _ => hy n
  pure r r' c := fun _ => .pure r r' c
  bind hx hf := fun i => (hx i).bind fun c => hf c i
  fault r r' e := fun _ => .fault r r' e

end Scopes

section Filters

variable {s s' : List Scope}

theorem quiet_ofTotal (g : FilterContext → Value → List Value → Value) {env : Environment σ}
    {limit : Nat} {input : Value} {args : List Value} :
    FilterProgram.Quiet (FilterProgram.runFilter env.options.findFilter? env.filterContext limit
      (.ofTotal g) input args) := by
  cases limit with
  | zero => exact ⟨.error .exhausted, fun _ => rfl⟩
  | succ n => exact ⟨.ok (g env.filterContext input args), fun _ => rfl⟩

theorem Leads.ofTotal {κ κ' : Closure → Closure} {g : FilterContext → Value → List Value → Value}
    {input : Value} {args : List Value} (result : Value)
    (own : g S.environment.filterContext (input.relabel κ) (args.map (relabel κ)) =
      result.relabel κ)
    (other : g S.environment'.filterContext (input.relabel κ') (args.map (relabel κ')) =
      result.relabel κ') (limit : Nat) :
    Leads S (relabel κ) (relabel κ') s s'
      (filtered limit (.ofTotal g) (input.relabel κ) (args.map (relabel κ)))
      fun n => filtered n (.ofTotal g) (input.relabel κ') (args.map (relabel κ')) := by
  cases limit with
  | zero => exact .exhausted
  | succ limit =>
    refine (Leads.pure (relabel κ) (relabel κ') result).congr_succ ?_ fun n => ?_
    · funext m
      rw [filtered_eq]
      exact congrArg (fun v => (Except.ok v, m)) own.symm
    · funext m
      rw [filtered_eq]
      exact congrArg (fun v => (Except.ok v, m)) other.symm

theorem filtered_relabel {κ : Closure → Closure} (faithful : Closure.Faithful κ)
    (env : Environment σ) (free : env.options.filters = []) {ctx : FilterContext}
    (context : env.filterContext = ctx.relabel κ) {name : String} {f : Filter}
    (found : Filter.builtin.find? name = some f) (input : Value) (args : List Value) (limit : Nat)
    (m : Machine σ) :
    filtered limit f (input.relabel κ) (args.map (relabel κ)) env m =
      ((FilterProgram.runFilter Filter.builtin.find? ctx limit f input args []).1.map (relabel κ),
        m) := by
  rw [filtered_eq, findFilter?_of_free free, context,
    FilterProgram.outcome_relabeled faithful ctx limit found]

/-- A built-in filter can see which functions are equal, and so it does the same on both sides. -/
theorem Leads.builtinFilter {κ κ' : Closure → Closure} (faithful : Closure.Faithful κ)
    (faithful' : Closure.Faithful κ') (free : S.options.filters = []) (clock : S.clock' = S.clock)
    (data : Seen κ κ' S.data S.data') {name : String} {f : Filter}
    (found : S.options.findFilter? name = some f) (input : Value) (args : List Value)
    (limit : Nat) :
    Leads S (relabel κ) (relabel κ') s s'
      (filtered limit f (input.relabel κ) (args.map (relabel κ)))
      fun n => filtered n f (input.relabel κ') (args.map (relabel κ')) := by
  obtain ⟨d, own_data, other_data⟩ := data
  rw [findFilter?_of_free free] at found
  have context : S.environment.filterContext = FilterContext.relabel κ ⟨S.clock, d⟩ :=
    congrArg (FilterContext.mk S.clock) own_data
  have context' : S.environment'.filterContext = FilterContext.relabel κ' ⟨S.clock, d⟩ := by
    rw [FilterContext.relabel, ← other_data, ← clock]
    rfl
  intro m m' beside ended
  have other := filtered_relabel faithful' S.environment' free context' found input args
    limit m'
  have grows : Grows S.environment' fun n =>
      filtered n f (input.relabel κ') (args.map (relabel κ')) := filtered_grows f _ _
  have later {n : Nat} (hn : limit ≤ n) := grows.later hn (m := m')
  rw [filtered_relabel faithful S.environment free context found] at ended ⊢
  rw [other] at later
  generalize (FilterProgram.runFilter Filter.builtin.find? ⟨S.clock, d⟩ limit f input args []).1 = r
    at ended later
  cases r with
  | ok v => exact ⟨_, .ok v, beside, limit, fun n hn => later hn (by simp [Except.map])⟩
  | error h =>
    cases h with
    | fault e => exact ⟨_, .fault e, beside, limit, fun n hn => later hn (by simp [Except.map])⟩
    | exhausted => exact absurd rfl ended

variable (uniform : S.Uniform C)
include uniform

theorem quiet_of_known {name : String} {f : Filter} (known : S.vocabulary.filter name)
    (found : S.options.findFilter? name = some f) {env : Environment σ}
    (options : env.options = S.options) {limit : Nat} {input : Value} {args : List Value} :
    FilterProgram.Quiet (FilterProgram.runFilter env.options.findFilter? env.filterContext limit f
      input args) := by
  obtain rfl | rfl | ⟨free, _⟩ := uniform.filters known found
  · exact quiet_ofTotal _
  · exact quiet_ofTotal _
  · rw [← options] at free found
    exact quiet_builtin free found

theorem leads_filtered {name : String} {f : Filter} (known : S.vocabulary.filter name)
    (found : S.options.findFilter? name = some f) (input : Value) (args : List Value)
    (limit : Nat) :
    Leads S (relabel (ownSide C)) (relabel (otherSide C)) s s'
      (filtered limit f (input.relabel (ownSide C)) (args.map (relabel (ownSide C))))
      fun n => filtered n f (input.relabel (otherSide C))
        (args.map (relabel (otherSide C))) := by
  obtain rfl | rfl | ⟨free, clock, data⟩ := uniform.filters known found
  · exact .ofTotal input rfl rfl limit
  · exact .ofTotal (Filter.mapText Text.Html.escape input) (Filter.mapText_relabel _ _)
      (Filter.mapText_relabel _ _) limit
  · exact .builtinFilter Closure.left_faithful uniform.pairs.right_faithful free clock
      ((Value.like_iff_seen uniform.pairs).1 data) found input args limit

end Filters

section Chains

variable (uniform : S.Uniform C) {s s' : List Scope} {n : Nat}

/-- The values of two expressions correspond in given scopes, for a limit of the first. -/
abbrev Covered (s s' : List Scope) (n : Nat) (e e' : Expr) : Prop :=
  (leading uniform s s').Covers (fun _ => within n) (fun k => within k) e e'

variable {uniform}

theorem leads_pipe {calls calls' : List FilterCall}
    (each : List.Forall₂ (FilterCall.Layer S.vocabulary (Covered uniform s s' n)) calls calls')
    (j i : Nat) (v : Value) :
    Leads S (relabel (ownSide C)) (relabel (otherSide C)) s s'
      (pipe (within n .handled) n j (v.relabel (ownSide C)) calls)
      fun k => pipe (within k .handled) k (k - i) (v.relabel (otherSide C)) calls' := by
  -- `j` counts down on the one side what `i` counts up on the other.
  induction each generalizing j i v with
  | nil =>
    simp only [Simulation.pipe_nil]
    exact .pure _ _ v
  | cons first _ ih =>
    obtain @⟨name, args, args', known, argsLayer⟩ := first
    cases j with
    | zero => exact .exhausted
    | succ j =>
      have step {k : Nat} (hk : i + 1 ≤ k) : k - i = k - (i + 1) + 1 := by omega
      cases found : S.options.findFilter? name with
      | none =>
        refine (Leads.fault _ _ (.unknownFilter name)).congr (k := i + 1) ?_ fun k hk => ?_
        · exact (pipe_unknown S.environment found _ _ _ _ _).symm
        · rw [step hk]
          exact (pipe_unknown S.environment' found _ _ _ _ _).symm
      | some f =>
        have own := pipe_found S.environment args found (quiet_of_known uniform known found rfl)
        have other := pipe_found S.environment' args' found (quiet_of_known uniform known found rfl)
        refine Leads.congr (k := i + 1) ?_ (own _ n j _ _).symm fun k hk => by
          rw [step hk, other]
        apply (Comparison.filterArgs argsLayer 0).bind
        intro vs
        apply (leads_filtered uniform known found v vs n).bind
        exact ih j (i + 1)

theorem leads_chain {e e' : Expr} {calls calls' : List FilterCall}
    (first : Covered uniform s s' n e e')
    (each : List.Forall₂ (FilterCall.Layer S.vocabulary (Covered uniform s s' n)) calls calls') :
    (leading uniform s s').Gives (fun _ => applyFilters (within n .handled) n e calls)
      fun k => applyFilters (within k .handled) k e' calls' :=
  fun i => (first i).bind fun v => leads_pipe each n 0 v

end Chains

section Calls

variable {uniform : S.Uniform C} {s s' : List Scope} {n : Nat}

variable (uniform s s' n) in
/-- The values of calls of corresponding functions correspond in given scopes. -/
abbrev CoveredCalls : Prop :=
  ∀ f : Closure, (leading uniform s s').CoversCall (fun _ => within n) (fun k => within k)
    (ownSide C f) (otherSide C f)

theorem isFunctionName_of_none {name : String} (strict : LazyFunction.ofName? name = none)
    {eval : Entry → Expr → Eval σ Value} (none_eq : eager? eval name = none) :
    isFunctionName name = false := by
  unfold eager? at none_eq
  split at none_eq
  · cases none_eq
  · split at none_eq
    · cases none_eq
    · split at none_eq
      · cases none_eq
      · simp_all [isFunctionName]

/-- A name that is no function's may be the name of a filter. -/
theorem leads_fallback {name : String} {es es' : List Expr} (known : S.vocabulary.filter name)
    (each : List.Forall₂ (Covered uniform s s' n) es es') :
    (leading uniform s s').Gives
      (fun _ => do
        match ← ask fun env => env.options.findFilter? name with
        | some f =>
          let values ← all (within n .handled) es
          return (← runFilter n f (Argument.orUndefined values 0) values.tail []).1
        | none => fault (.unknownFunction name))
      (fun k => do
        match ← ask fun env => env.options.findFilter? name with
        | some f =>
          let values ← all (within k .handled) es'
          return (← runFilter k f (Argument.orUndefined values 0) values.tail []).1
        | none => fault (.unknownFunction name)) := by
  apply (leading uniform s s').bind_ask
  have same : S.environment'.options = S.environment.options := rfl
  rw [same]
  cases found : S.environment.options.findFilter? name with
  | none => exact (leading uniform s s').fault _ _ _
  | some f =>
    apply (leading uniform s s').bind (Comparison.all each)
    intro vs i
    rw [Argument.orUndefined_relabel, Argument.orUndefined_relabel, ← List.map_tail,
      ← List.map_tail]
    exact leads_filtered uniform known found (Argument.orUndefined vs 0) vs.tail n

variable (uniform) in
include uniform in
theorem call_builtin {env : Environment σ} (options : env.options = S.options) (limit : Nat)
    (eval : Entry → Expr → Eval σ Value) (name : String) (es : List Expr) :
    call limit eval name es env = callBuiltin limit eval name es env := by
  have free : env.options.functionHandler? name = none := by
    rw [options, Options.functionHandler?, uniform.handlers]
    rfl
  funext m
  simp only [call, bind_def, ask, free]

theorem leads_call (calls : CoveredCalls uniform s s' n) {name : String} {es es' : List Expr}
    (known : S.vocabulary.callee name) (each : List.Forall₂ (Covered uniform s s' n) es es') :
    (leading uniform s s').Gives (fun _ => call n (within n) name es)
      fun k => call k (within k) name es' := by
  refine (leading uniform s s').congr (x := fun _ => callBuiltin n (within n) name es)
    (y := fun k => callBuiltin k (within k) name es') ?_
    (fun _ => (call_builtin uniform rfl n _ name es).symm)
    fun k => (call_builtin uniform rfl k _ name es').symm
  unfold callBuiltin
  cases lazy : LazyFunction.ofName? name with
  | some f => exact Comparison.callLazy each f
  | none =>
    obtain none_eq | ⟨f, f', some_eq, runs⟩ := Comparison.eager calls
      (fun draws _ => .random (draws ▸ known)) fun _ found => uniform.timeless known found
    · simp only [none_eq 0, fun k => (none_eq k).2]
      have own := isFunctionName_of_none lazy (none_eq 0).1
      exact leads_fallback ((uniform.fallback known).resolve_left (by simp [own])) each
    · refine (leading uniform s s').congr ((leading uniform s s').bind (Comparison.all each) runs)
        (fun i => ?_) fun i => ?_
      · simp only [(some_eq i).1]
      · simp only [(some_eq i).2]

end Calls

section Islands

variable (env : Environment σ) {body : Expr} {limit : Nat}

theorem island_of_none (none : env.options.islandFilter? = none)
    (eval : Entry → Expr → Eval σ Value) :
    island limit eval body env = eval .handled body env := by
  funext m
  simp only [island, bind_def, ask, none]

theorem island_of_chain (chain : body.isChain = true) (eval : Entry → Expr → Eval σ Value) :
    island limit eval body env = eval .handled body env := by
  funext m
  cases body with
  | filter input calls =>
    simp only [island, bind_def, ask]
    cases env.options.islandFilter? <;> rfl
  | _ => cases chain

theorem island_of_bare {name : String} (found : env.options.islandFilter? = some name)
    (bare : body.isChain = false) (eval : Entry → Expr → Eval σ Value) :
    island limit eval body env = applyFilters (eval .handled) limit body [.mk name []] env := by
  funext m
  cases body with
  | filter input calls => cases bare
  | _ => simp only [island, bind_def, ask, found]

/-- An island that the default filter leaves alone takes one step more than its body. -/
theorem island_alone (alone : env.options.LeavesAlone body)
    (eval : Entry → Expr → Eval σ Value) :
    island (limit + 1) eval body env = eval .handled body env := by
  cases found : env.options.islandFilter? with
  | none => exact island_of_none env found eval
  | some name =>
    by_cases chain : body.isChain = true
    · exact island_of_chain env chain eval
    · rw [island_of_bare env found (Bool.eq_false_iff.2 chain)]
      have raw := (alone name found).resolve_left chain
      funext m
      rw [applyFilters, bind_def]
      rcases eval .handled body env m with ⟨e | v, m₁⟩
      · rfl
      · have quiet {limit input args} : FilterProgram.Quiet (FilterProgram.runFilter
            env.options.findFilter? env.filterContext limit Filter.raw input args) :=
          quiet_ofTotal _
        simp only [pipe_found env [] raw quiet, Simulation.pipe_nil]
        rfl

theorem island_zero (m : Machine σ) :
    (island 0 (within 0) body env m).1 = .error .exhausted := by
  cases found : env.options.islandFilter? with
  | none => rw [island_of_none env found]; rfl
  | some name =>
    by_cases chain : body.isChain = true
    · rw [island_of_chain env chain]; rfl
    · rw [island_of_bare env found (Bool.eq_false_iff.2 chain)]; rfl

variable {uniform : S.Uniform C} {s s' : List Scope} {n : Nat}

theorem leads_piped {name : String} (found : S.options.islandFilter? = some name)
    {body body' : Expr} (h : Covered uniform s s' n body body') :
    (leading uniform s s').Gives
      (fun _ => applyFilters (within n .handled) n body [.mk name []])
      fun k => applyFilters (within k .handled) k body' [.mk name []] :=
  leads_chain h (.cons (.mk (uniform.islands found) .nil) .nil)

theorem leads_island {body body' : Expr} (h : Covered uniform s s' n body body')
    (chains : body.isChain = body'.isChain ∨
      S.options.LeavesAlone body ∧ S.options.LeavesAlone body') :
    (leading uniform s s').Gives (fun _ => island n (within n) body)
      fun k => island k (within k) body' := by
  obtain same | ⟨alone, alone'⟩ := chains
  · cases found : S.options.islandFilter? with
    | none =>
      exact (leading uniform s s').congr h
        (fun _ => (island_of_none S.environment found _).symm)
        fun _ => (island_of_none S.environment' found _).symm
    | some name =>
      cases chain : body.isChain with
      | true =>
        exact (leading uniform s s').congr h
          (fun _ => (island_of_chain S.environment chain _).symm)
          fun _ => (island_of_chain S.environment' (same ▸ chain) _).symm
      | false =>
        exact (leading uniform s s').congr (leads_piped found h)
          (fun _ => (island_of_bare S.environment found chain _).symm)
          fun _ => (island_of_bare S.environment' found (same ▸ chain) _).symm
  · intro i
    cases n with
    | zero => exact .of_exhausted (island_zero _)
    | succ n =>
      exact (h i).congr_succ (island_alone S.environment alone _).symm fun k =>
        (island_alone S.environment' alone' _).symm

theorem leads_inNamespace {name : String} {body body' : Expr}
    (h : ∀ r, S.options.namespaces.lookup name = some r →
      Covered uniform (.inNamespace r :: s) (.inNamespace r :: s') n body body') :
    (leading uniform s s').Gives (fun _ => inNamespace (within n) name body)
      fun k => inNamespace (within k) name body' := by
  apply (leading uniform s s').bind_ask
  have same : S.environment'.options = S.environment.options := rfl
  rw [same]
  cases found : S.environment.options.namespaces.lookup name with
  | none => exact (leading uniform s s').fault _ _ _
  | some r => exact fun i => (h r found i).inScope

end Islands

section Nodes

variable (uniform : S.Uniform C)

include uniform in
theorem within_rule {env : Environment σ} (options : env.options = S.options) (n : Nat)
    (e : Expr) : within (n + 1) .handled e env = rule n (within n) e env := by
  funext m
  apply within_builtin
  rw [options, Options.nodeHandler?, uniform.handlers]
  rfl

include uniform in
theorem within_function {env : Environment σ} (options : env.options = S.options) (n : Nat)
    (params : List String) (body : Expr) :
    within (n + 1) .handled (.function params body) env = makeFunction params body env :=
  within_rule uniform options n _

section Written

variable {name : String}
  {run : (Entry → Expr → Eval σ Value) → Closure → Nat → List Value → Eval σ (List Value)}
  (strict : LazyFunction.ofName? name = none)
  (eager : ∀ eval, eager? eval name = some (overItems name (run eval)))

variable (name run) in
/-- A call over the items of a list, where the function is written in the call. -/
def written (eval : Entry → Expr → Eval σ Value) (list : Expr) (params : List String)
    (body : Expr) : Eval σ Value := do
  let v ← eval .handled list
  let f ← makeFunction params body
  overItems name (run eval) [v, f]

include uniform strict eager

theorem call_written (env : Environment σ) (options : env.options = S.options) (k : Nat)
    (list : Expr) (params : List String) (body : Expr) :
    call (k + 1) (within (k + 1)) name [list, .function params body] env =
      written name run (within (k + 1)) list params body env := by
  rw [call_builtin uniform options, callBuiltin]
  simp only [strict, eager]
  funext m
  simp only [all, written, bind_assoc, pure_bind]
  rw [bind_def, bind_def]
  rcases within (k + 1) .handled list env m with ⟨e | v, m₁⟩
  · rfl
  · simp only [bind_def, within_function uniform options]

theorem leads_written {s s' : List Scope} {n : Nat} {list list' : Expr}
    (first : Covered uniform s s' n list list') {params params' : List String} {body body' : Expr}
    (runs : ∀ i (items : List Value), (leading uniform s s').GivesAll
      (fun _ => run (within n) ⟨i, params, body⟩ 0 (items.map (relabel (ownSide C))))
      fun k => run (within k) ⟨i, params', body'⟩ 0 (items.map (relabel (otherSide C)))) :
    (leading uniform s s').Gives (fun _ => call n (within n) name [list, .function params body])
      fun k => call k (within k) name [list', .function params' body'] := by
  intro i
  cases n with
  | zero =>
    have never (m : Machine σ) : (call 0 (within 0) name [list, .function params body]
        S.environment m).1 = .error .exhausted := by
      rw [call_builtin uniform rfl, callBuiltin]
      simp only [strict, eager]
      rfl
    exact .of_exhausted never
  | succ n =>
    refine Leads.congr_succ (x := written name run (within (n + 1)) list params body)
      (y := fun k => written name run (within k) list' params' body') ?_
      (call_written uniform strict eager S.environment rfl n list params body).symm
      fun k => (call_written uniform strict eager S.environment' rfl k _ _ _).symm
    apply (first i).bind
    intro v
    apply Leads.ofFunction
    intro j
    have own := Comparison.asItems_relabel (ownSide C) v
    have other := Comparison.asItems_relabel (otherSide C) v
    simp only [overItems, Argument.orUndefined, List.getD_cons_zero, List.getD_cons_succ, own,
      other]
    apply (runs j (v.asArray?.getD []) i).bind
    intro items
    rw [← Value.relabel_array, ← Value.relabel_array]
    exact .pure _ _ (Value.array items)

omit eager strict in
/-- A function that is written where it is called knows the names of the place. -/
theorem leads_items (loop : IsOverItems name) {s s' : List Scope} {n : Nat} {list list' : Expr}
    (first : Covered uniform s s' n list list') {params params' : List String} {body body' : Expr}
    (called : ∀ i, (leading uniform s s').CoversCall (fun _ => within n) (fun k => within k)
      ⟨i, params, body⟩ ⟨i, params', body'⟩) :
    (leading uniform s s').Gives (fun _ => call n (within n) name [list, .function params body])
      fun k => call k (within k) name [list', .function params' body'] := by
  obtain rfl | rfl := loop
  · exact leads_written uniform rfl (fun _ => by simp [eager?]) first fun i items =>
      Comparison.mapItems (called i) 0 items
  · exact leads_written uniform rfl
      (fun _ => by simp [eager?, mapName, filterName]) first fun i items =>
      Comparison.filterItems (called i) 0 items

end Written

/-- A node is evaluated by its rule, one step later. -/
theorem leads_of_rule {s s' : List Scope} {n : Nat} {e e' : Expr}
    (h : (leading uniform s s').Gives (fun _ => rule n (within n) e)
      fun k => rule k (within k) e') :
    Covered uniform s s' (n + 1) e e' := by
  intro i
  exact (h i).later.congr_succ (within_rule uniform rfl n e).symm fun k =>
    (within_rule uniform rfl k e').symm

include uniform in
/-- Given steps enough, an island that the default filter leaves alone has the value of its
body. -/
theorem within_island {env : Environment σ} (options : env.options = S.options) {body : Expr}
    (alone : S.options.LeavesAlone body) (n : Nat) :
    within (n + 2) .handled (.island body) env = within (n + 1) .handled body env := by
  rw [within_rule uniform options]
  exact island_alone env (options ▸ alone) _

/-- Where the parts of nodes are led, the nodes are. -/
theorem leads_step {n : Nat}
    (ih : ∀ {N e e' s s'}, C N e e' → Agrees S C N s s' → Agrees S C S.ambient s s' →
      Covered uniform s s' n e e') {N : Names} {s s' : List Scope} (agrees : Agrees S C N s s')
    (ambient : Agrees S C S.ambient s s') {e e' : Expr} (related : C N e e')
    (right : ∀ {body'}, C N e body' → e' = .island body' →
      Covered uniform s s' (n + 1) e body') :
    Covered uniform s s' (n + 1) e e' := by
  have parts {e e' : Expr} (h : C N e e') : Covered uniform s s' n e e' := ih h agrees ambient
  have called {outer N' : Names} {i : Nat} {params params' : List String} {body body' : Expr}
      (binds : S.Binds outer N' params params') (agrees : Agrees S C outer s s')
      (bodies : C N' body body') : (leading uniform s s').CoversCall (fun _ => within n)
        (fun k => within k) ⟨i, params, body⟩ ⟨i, params', body'⟩ := fun args i =>
    (ih bodies (.enter binds agrees args) (.enter binds.widen ambient args) i).inScope
  have calls : CoveredCalls uniform s s' n := by
    intro f args i
    obtain ⟨N, bodies, binds⟩ := uniform.bodies (uniform.pairs.sides_related f)
    exact called (i := f.id) binds ambient bodies args i
  cases uniform.closed related with
  | layer h =>
    have led := h.imp fun _ _ _ h => parts h
    refine leads_of_rule uniform (Comparison.rule led ?_ ?_)
    · rintro a a' chain chain' rfl rfl
      cases led with
      | filter input each => exact leads_chain input each
    · rintro name es es' rfl rfl
      cases led with
      | call known each => exact leads_call calls known each
  | items loop first h =>
    obtain ⟨N', bodies, binds⟩ := h
    exact leads_of_rule uniform
      (leads_items uniform loop (parts first) fun _ => called binds agrees bodies)
  | «variable» h => exact leads_of_rule uniform fun _ => .lookUp h agrees
  | function _ => exact leads_of_rule uniform fun _ => .makeFunction uniform related
  | inNamespace answers h =>
    refine leads_of_rule uniform (leads_inNamespace fun r found => ih h ?_ ?_)
    · exact .inNamespace uniform found (answers r found)
    · exact .inNamespace uniform found (ambient_answers uniform found)
  | island h chains => exact leads_of_rule uniform (leads_island (parts h) chains)
  | @dropLeft body e' alone h =>
    intro i
    cases n with
    | zero =>
      have never (m : Machine σ) :
          (within 1 .handled (.island body) S.environment m).1 = .error .exhausted := by
        rw [within_rule uniform rfl]
        exact island_zero _ m
      exact .of_exhausted never
    | succ n =>
      exact (parts h i).congr (k := 0) (within_island uniform rfl alone n).symm fun _ _ => rfl
  | @dropRight e body' alone h =>
    intro i
    refine (right h rfl i).later.congr (k := 2) rfl fun k enough => ?_
    obtain ⟨k, rfl⟩ := Nat.exists_eq_add_of_le' enough
    exact (within_island uniform rfl alone k).symm
  | pipeLeft found bare h =>
    exact leads_of_rule uniform ((leading uniform s s').congr (leads_piped found (parts h))
      (fun _ => (island_of_bare S.environment found bare _).symm) fun _ => rfl)
  | pipeRight found bare h =>
    exact leads_of_rule uniform ((leading uniform s s').congr (leads_piped found (parts h))
      (fun _ => rfl) fun _ => (island_of_bare S.environment' found bare _).symm)

/-- Related expressions lead, where the names in them mean corresponding things. -/
theorem leads_within (n : Nat) {N : Names} {e e' : Expr} {s s' : List Scope} (h : C N e e')
    (agrees : Agrees S C N s s') (ambient : Agrees S C S.ambient s s') :
    Covered uniform s s' n e e' := by
  induction n generalizing N e e' s s' with
  | zero => exact fun _ => .exhausted
  | succ n ih =>
    -- An island dropped on the right takes no step on the left.
    induction size : sizeOf e' using Nat.strongRecOn generalizing e' with
    | _ k smaller =>
      refine leads_step uniform ih agrees ambient h fun {body'} h' same => ?_
      refine smaller (sizeOf body') ?_ h' rfl
      rw [← size, same, Expr.island.sizeOf_spec]
      omega

end Nodes

section Outcomes

/-- The same error, or values that are alike. -/
inductive LikeResult (R : Closure → Closure → Prop) :
    Except EvalError Value → Except EvalError Value → Prop
  | ok {v w : Value} (like : Value.Like R v w) : LikeResult R (.ok v) (.ok w)
  | error (e : EvalError) : LikeResult R (.error e) (.error e)

theorem LikeResult.mono {R R' : Closure → Closure → Prop} (pairs : Closure.Pairs R)
    (weaker : ∀ f g, R f g → R' f g) {r r' : Except EvalError Value} (like : LikeResult R r r') :
    LikeResult R' r r' := by
  cases like with
  | ok like => exact .ok (like.mono pairs weaker)
  | error e => exact .error e

theorem LikeResult.eq {r r' : Except EvalError Value} (like : LikeResult Eq r r') : r = r' := by
  cases like with
  | ok like => rw [like.eq]
  | error e => rfl

/-- A result of evaluation in an environment, within some limit. -/
def Results (env : Environment σ) (user : σ) (e : Expr) (r : Except EvalError Value) : Prop :=
  ∃ m, Ends env (fun n => evaluate n e) (.start env.clock user) (r, m)

theorem Results.unique {env : Environment σ} {user : σ} {e : Expr} {r r' : Except EvalError Value}
    (first : Results env user e r) (second : Results env user e r') : r = r' := by
  obtain ⟨m, n, ended⟩ := first
  obtain ⟨m', n', ended'⟩ := second
  have grows : Grows env fun n => within n .handled e := within_grows .handled e
  have last := grows.ends_later (o := (r, m)) (Nat.le_max_left n n') ended
  have last' := grows.ends_later (o := (r', m')) (Nat.le_max_right n n') ended'
  have same : r.mapError Halt.fault = r'.mapError Halt.fault :=
    congrArg Prod.fst (last.symm.trans last')
  cases r <;> cases r' <;> cases same <;> rfl

theorem like_of_tally (uniform : S.Uniform C) {p q : Except Halt Value}
    (tally : Tally (relabel (ownSide C)) (relabel (otherSide C)) p q)
    {r : Except EvalError Value} (ended : p = r.mapError .fault) :
    ∃ r' : Except EvalError Value, q = r'.mapError .fault ∧
      LikeResult (Closure.Corresponds C) r r' := by
  cases tally with
  | ok u =>
    cases r with
    | error e => cases ended
    | ok v =>
      cases ended
      exact ⟨.ok _, rfl, .ok ((Value.like_iff_seen uniform.pairs).2 ⟨u, rfl, rfl⟩)⟩
  | fault e =>
    cases r with
    | ok v => cases ended
    | error e' =>
      cases ended
      exact ⟨.error e, rfl, .error e⟩

/-- A result of an expression is matched by one of a related expression. -/
theorem Results.related (sound : S.Sound C) {N : Names} {e e' : Expr} (h : C N e e')
    (names : ∀ {n n'}, N n n' → Value.Like (Closure.Corresponds C)
      (Scope.lookUp S.data n [.root]) (Scope.lookUp S.data' n' [.root])) (user : σ)
    {r : Except EvalError Value} (result : Results S.environment user e r) :
    ∃ r', Results S.environment' user e' r' ∧ LikeResult (Closure.Corresponds C) r r' := by
  obtain ⟨m₁, n, ended⟩ := result
  have seen {n n' : String} (like : Value.Like (Closure.Corresponds C)
      (Scope.lookUp S.data n [.root]) (Scope.lookUp S.data' n' [.root])) :=
    (Value.like_iff_seen sound.pairs).1 like
  have beside : Beside S [.root] [.root] (Machine.start S.clock user)
      (Machine.start S.clock' user) :=
    ⟨rfl, rfl, rfl, fun drawn => by rw [sound.random drawn]⟩
  have halted : (within n .handled e S.environment (.start S.clock user)).1 ≠
      .error .exhausted := by
    have ended : within n .handled e S.environment (.start S.clock user) = _ := ended
    rw [ended]
    exact ended_mapError r
  obtain ⟨q, tally, _, k, same⟩ := leads_within sound.toUniform n h (fun _ _ h => seen (names h))
    (fun _ _ h => seen (sound.data h)) 0 _ _ beside halted
  obtain ⟨r', finished, like⟩ := like_of_tally sound.toUniform tally (congrArg Prod.fst ended)
  refine ⟨r', ⟨q.2, k, ?_⟩, like⟩
  exact (same k (Nat.le_refl k)).trans (Prod.ext finished rfl)

/-- Related expressions have alike results, where functions that correspond are related. -/
theorem results_related (sound : S.Sound C) {N : Names} {e e' : Expr} (h : C N e e')
    (names : ∀ {n n'}, N n n' → Value.Like (Closure.Corresponds C)
      (Scope.lookUp S.data n [.root]) (Scope.lookUp S.data' n' [.root]))
    {R : Closure → Closure → Prop} (weaker : ∀ f g, f.Corresponds C g → R f g) (user : σ) :
    (∀ r, Results S.environment user e r →
      ∃ r', Results S.environment' user e' r' ∧ LikeResult R r r') ∧
    ∀ r', Results S.environment' user e' r' →
      ∃ r, Results S.environment user e r ∧ LikeResult R r r' := by
  constructor
  · intro r result
    obtain ⟨r', matched, like⟩ := Results.related sound h names user result
    exact ⟨r', matched, like.mono sound.pairs weaker⟩
  · intro r' result
    obtain ⟨r, matched, like⟩ := Results.related sound.flip (N := fun n n' => N n' n) h
      (fun h => (names h).flip sound.pairs fun _ _ => Closure.Corresponds.flip) user result
    refine ⟨r, matched, ?_⟩
    cases like with
    | ok like => exact .ok (like.flip sound.flip.pairs fun f g h => weaker g f h.flip)
    | error e => exact .error e

end Outcomes

end TemplateFormula.Eval
