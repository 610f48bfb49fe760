import TemplateFormula.Proofs.Evaluation.Lockstep

/-!
# Scopes during an evaluation

Whatever handlers and filters do, an evaluation leaves the scopes as it found them, and it depends
on the machine only through the scopes, the state of the user and the source of random numbers. Both
follow from one relation between runs on machines that number functions differently.

So evaluations may follow one another. Each leaves the machine as it found it but for the number of
functions made, the source of random numbers and the state of the user, and on a machine at rest the
next evaluation has the result that it would have had on its own, with its functions numbered from a
later number on.
-/

namespace TemplateFormula

variable {σ : Type}

/-- Machines that differ in the numbers of functions only. The functions that they make from here on
have corresponding numbers. -/
structure Machine.Renamed (ρ : Nat → Nat) (m m' : Machine σ) : Prop where
  scopes : m'.scopes = m.scopes.map (Scope.rename ρ)
  fresh : ∀ i, m'.functions + i = ρ (m.functions + i)
  random : m'.random = m.random
  user : m'.user = m.user

namespace FilterProgram

variable {ρ : Nat → Nat}

theorem runFilter_respects {find? : String → Option Filter}
    (respects : ∀ name f, find? name = some f → Filter.Respects ρ f) (ctx : FilterContext) (n : Nat)
    {f : Filter} (own : Filter.Respects ρ f) (input : Value) (args : List Value)
    (queue : List FilterCall) :
    runFilter find? (ctx.rename ρ) n f (input.rename ρ) (args.map (Value.rename ρ)) queue =
      renameOutcome ρ (runFilter find? ctx n f input args queue) := by
  rw [FilterContext.rename_eq, Value.rename_eq]
  exact (runFilter_relabeled (fun name g found => (respects name g found).natural) ctx n own.natural
    input args queue).trans (by rw [relabelOutcome, renameOutcome, Value.rename_eq])

end FilterProgram

namespace Eval

variable {ρ : Nat → Nat} {α β γ δ : Type}

/-- Outcomes that correspond, where the first run leaves the scopes as they were and keeps the
numbers that are in use. -/
structure Restores (r : α → β) (ρ : Nat → Nat) (m : Machine σ) (p : Except Halt α × Machine σ)
    (q : Except Halt β × Machine σ) : Prop where
  outcome : q.1 = p.1.map r
  renamed : p.2.Renamed ρ q.2
  scopes : p.2.scopes = m.scopes
  functions : m.functions ≤ p.2.functions

namespace Restores

theorem intro {r : α → β} {a : Except Halt α} {b : Except Halt β} {m m' : Machine σ}
    (renamed : m.Renamed ρ m') (outcome : b = a.map r) : Restores r ρ m (a, m) (b, m') :=
  ⟨outcome, renamed, rfl, Nat.le_refl _⟩

theorem bind {r : α → β} {s : γ → δ} {env : Environment σ} {x : Eval σ α} {y : Eval σ β}
    {f : α → Eval σ γ} {g : β → Eval σ δ} {m m' : Machine σ}
    (first : Restores r ρ m (x env m) (y env m'))
    (next : ∀ a m₁ m₁', m₁.Renamed ρ m₁' → Restores s ρ m₁ (f a env m₁) (g (r a) env m₁')) :
    Restores s ρ m ((x >>= f) env m) ((y >>= g) env m') := by
  rw [bind_def, bind_def]
  generalize x env m = p at first
  generalize y env m' = q at first
  obtain ⟨a, m₁⟩ := p
  obtain ⟨b, m₁'⟩ := q
  obtain ⟨outcome, renamed, scopes, functions⟩ := first
  cases outcome
  cases a with
  | error e => exact ⟨rfl, renamed, scopes, functions⟩
  | ok a =>
    have rest := next a m₁ m₁' renamed
    exact ⟨rest.outcome, rest.renamed, rest.scopes.trans scopes,
      Nat.le_trans functions rest.functions⟩

end Restores

variable {env : Environment σ}

/-- Computations whose runs correspond on machines that number functions differently. -/
def Aligned (ρ : Nat → Nat) (env : Environment σ) (r : α → β) (x : Eval σ α) (y : Eval σ β) :
    Prop :=
  ∀ m m', m.Renamed ρ m' → Restores r ρ m (x env m) (y env m')

namespace Aligned

theorem bind {r : α → β} {s : γ → δ} {x : Eval σ α} {y : Eval σ β} {f : α → Eval σ γ}
    {g : β → Eval σ δ} (first : Aligned ρ env r x y) (next : ∀ a, Aligned ρ env s (f a) (g (r a))) :
    Aligned ρ env s (x >>= f) (y >>= g) :=
  fun m m' renamed => (first m m' renamed).bind next

theorem pure (r : α → β) (a : α) : Aligned ρ env r (Pure.pure a) (Pure.pure (r a)) :=
  fun _ _ renamed => .intro renamed rfl

theorem fault (r : α → β) (e : EvalError) : Aligned ρ env r (fault e) (Eval.fault e) :=
  fun _ _ renamed => .intro renamed rfl

end Aligned

theorem runFilter_aligned (distinct : Function.Injective ρ) (respects : env.Respects ρ)
    (limit : Nat) {f : Filter} (own : Filter.Respects ρ f) (input : Value) (args : List Value)
    (waiting : List FilterCall) :
    Aligned ρ env (Prod.map (Value.rename ρ) id) (runFilter limit f input args waiting)
      (runFilter limit f (input.rename ρ) (args.map (Value.rename ρ)) waiting) := by
  intro m m' renamed
  have context : env.filterContext.rename ρ = env.filterContext := by
    rw [FilterContext.rename, Environment.filterContext, respects.data]
  have filters (name : String) (g : Filter) (found : env.options.findFilter? name = some g) :
      Filter.Respects ρ g := respects.options.filter distinct found
  have run :=
    FilterProgram.runFilter_respects filters env.filterContext limit own input args waiting
  rw [context] at run
  simp only [Eval.runFilter, run]
  rcases FilterProgram.runFilter env.options.findFilter? env.filterContext limit f input args
    waiting with ⟨h | v, after⟩
  · exact .intro renamed rfl
  · exact .intro renamed rfl

section Steps

theorem attempt_aligned {r : α → β} {x : Eval σ α} {y : Eval σ β} (h : Aligned ρ env r x y) :
    Aligned ρ env (Except.map r) (attempt x) (attempt y) := by
  intro m m' renamed
  obtain ⟨outcome, renamed, scopes, functions⟩ := h m m' renamed
  simp only [attempt]
  generalize x env m = p at outcome renamed scopes functions
  generalize y env m' = q at outcome renamed
  obtain ⟨a, m₁⟩ := p
  obtain ⟨b, m₁'⟩ := q
  cases outcome
  rcases a with (e | _) | a
  · exact ⟨rfl, renamed, scopes, functions⟩
  · exact ⟨rfl, renamed, scopes, functions⟩
  · exact ⟨rfl, renamed, scopes, functions⟩

/-- A scope is taken off again however the computation inside it ends. -/
theorem inScope_aligned (s : Scope) {r : α → β} {x : Eval σ α} {y : Eval σ β}
    (h : Aligned ρ env r x y) : Aligned ρ env r (inScope s x) (inScope (s.rename ρ) y) := by
  intro m m' renamed
  have inner : Machine.Renamed ρ { m with scopes := s :: m.scopes }
      { m' with scopes := s.rename ρ :: m'.scopes } :=
    ⟨by rw [renamed.scopes, List.map_cons], renamed.fresh, renamed.random, renamed.user⟩
  obtain ⟨outcome, after, scopes, functions⟩ := h _ _ inner
  refine ⟨outcome, ⟨?_, after.fresh, after.random, after.user⟩, ?_, functions⟩
  · exact (congrArg List.tail after.scopes).trans List.map_tail.symm
  · exact congrArg List.tail scopes

theorem setUser_aligned (s : σ) : Aligned ρ env id (setUser s) (setUser s) :=
  fun _ _ renamed => ⟨rfl, ⟨renamed.scopes, renamed.fresh, renamed.random, rfl⟩, rfl,
    Nat.le_refl _⟩

theorem gets_aligned {f : Machine σ → α} (same : ∀ m m', m.Renamed ρ m' → f m' = f m) :
    Aligned ρ env id (gets f) (gets f) :=
  fun m m' renamed => .intro renamed (congrArg Except.ok (same m m' renamed))

end Steps

/-- Evaluation respects that functions are numbered anew, if the environment does. -/
def aligning (distinct : Function.Injective ρ) (respects : env.Respects ρ) : Lockstep ρ env 0 where
  distinct := distinct
  respects := respects
  Holds := Aligned ρ env
  congr h hx hy := by
    intro m m' renamed
    rw [← hx, ← hy]
    exact h m m' renamed
  pure := .pure
  bind := .bind
  fault := .fault
  spent := by
    intro α β r n k y under m m' renamed
    rw [if_pos (show n + 0 < k from under)]
    exact .intro renamed rfl
  lookUp name := by
    intro m m' renamed
    apply Restores.intro renamed
    have found := Scope.lookUp_rename ρ env.data name m.scopes
    rw [respects.data, ← renamed.scopes] at found
    exact congrArg Except.ok found
  makeFunction params body := by
    intro m m' renamed
    have number := renamed.fresh 0
    refine ⟨?_, ⟨renamed.scopes, fun i => ?_, renamed.random, renamed.user⟩, rfl,
      Nat.le_succ _⟩
    · simp only [Nat.add_zero] at number
      simp [makeFunction, Except.map, Closure.rename, number]
    · simp only [makeFunction, Nat.add_assoc]
      exact renamed.fresh (1 + i)
  random := by
    intro m m' renamed
    have word_eq := renamed.random
    refine ⟨?_, ⟨renamed.scopes, renamed.fresh, ?_, renamed.user⟩, rfl, Nat.le_refl _⟩
    · simp [Eval.random, Except.map, word_eq]
    · simp [Eval.random, word_eq]
  runFilter n _ own input args waiting :=
    runFilter_aligned distinct respects n own input args waiting
  attempt := attempt_aligned
  inScope s _ _ _ _ _ h := inScope_aligned s h
  depth := by
    refine gets_aligned fun m m' renamed => ?_
    rw [Machine.depth, renamed.scopes, List.length_map, Machine.depth]
  user := gets_aligned fun _ _ renamed => renamed.user
  setUser := setUser_aligned

/-- Evaluation restores the scopes, and numbers of functions have no part in it. -/
theorem within_aligned (distinct : Function.Injective ρ) (respects : env.Respects ρ) (n : Nat)
    (entry : Entry) (e : Expr) :
    Aligned ρ env (Value.rename ρ) (within n entry e) (within n entry e) :=
  (aligning distinct respects).within n entry e

theorem callClosure_aligned (distinct : Function.Injective ρ) (respects : env.Respects ρ) (n : Nat)
    (f : Closure) (args : List Value) :
    Aligned ρ env (Value.rename ρ) (callClosure (within n) f args)
      (callClosure (within n) f (args.map (Value.rename ρ))) :=
  Lockstep.callClosure (L := aligning distinct respects) (within_aligned distinct respects n) f args

theorem callValue_aligned (distinct : Function.Injective ρ) (respects : env.Respects ρ) (n : Nat)
    (f : Value) (args : List Value) :
    Aligned ρ env (Value.rename ρ) (callValue (within n) f args)
      (callValue (within n) (f.rename ρ) (args.map (Value.rename ρ))) :=
  Lockstep.callValue (L := aligning distinct respects) (within_aligned distinct respects n) f args

end Eval

theorem Machine.renamed_id (m : Machine σ) : m.Renamed id m :=
  ⟨by rw [funext Scope.rename_id, List.map_id'], fun _ => rfl, rfl, rfl⟩

/-- What the environment holds before a machine makes its next function: renamings of later
functions leave it as it is. -/
def Environment.Settled (base : Nat) (env : Environment σ) : Prop :=
  ∀ ρ, Function.Injective ρ → (∀ i < base, ρ i = i) → env.Respects ρ

/-- Leaves out so many numbers from a number on. -/
def leaveOut (base gap : Nat) : Nat → Nat := fun i => if i < base then i else i + gap

theorem leaveOut_injective (base gap : Nat) : Function.Injective (leaveOut base gap) := by
  intro i j h
  simp only [leaveOut] at h
  split at h <;> split at h <;> omega

theorem leaveOut_below {base gap i : Nat} (h : i < base) : leaveOut base gap i = i := if_pos h

namespace Eval

variable {env : Environment σ}

section Scopes

theorem within_scopes (n : Nat) (entry : Entry) (e : Expr) (m : Machine σ) :
    (within n entry e env m).2.scopes = m.scopes :=
  (within_aligned Function.injective_id env.respects_id n entry e m m m.renamed_id).scopes

theorem within_functions (n : Nat) (entry : Entry) (e : Expr) (m : Machine σ) :
    m.functions ≤ (within n entry e env m).2.functions :=
  (within_aligned Function.injective_id env.respects_id n entry e m m m.renamed_id).functions

theorem callClosure_scopes (n : Nat) (f : Closure) (args : List Value) (m : Machine σ) :
    (callClosure (within n) f args env m).2.scopes = m.scopes :=
  (callClosure_aligned Function.injective_id env.respects_id n f args m m m.renamed_id).scopes

theorem callValue_scopes (n : Nat) (f : Value) (args : List Value) (m : Machine σ) :
    (callValue (within n) f args env m).2.scopes = m.scopes :=
  (callValue_aligned Function.injective_id env.respects_id n f args m m m.renamed_id).scopes

end Scopes

section Succession

/-- The machine after evaluations one after another, failed or not. -/
def afterEach (limit : Nat) (es : List Expr) (env : Environment σ) (m : Machine σ) : Machine σ :=
  es.foldl (fun m e => (evaluate limit e env m).2) m

theorem afterEach_scopes (limit : Nat) (es : List Expr) (m : Machine σ) :
    (afterEach limit es env m).scopes = m.scopes := by
  induction es generalizing m with
  | nil => rfl
  | cons e es ih => exact (ih _).trans (within_scopes limit .handled e m)

theorem afterEach_functions (limit : Nat) (es : List Expr) (m : Machine σ) :
    m.functions ≤ (afterEach limit es env m).functions := by
  induction es generalizing m with
  | nil => exact Nat.le_refl _
  | cons e es ih => exact Nat.le_trans (within_functions limit .handled e m) (ih _)

/-- Machines at rest of which the second has made further functions. -/
theorem renamed_of_rest {m m' : Machine σ} (rest : m.scopes = [.root]) (rest' : m'.scopes = [.root])
    (functions : m.functions ≤ m'.functions) (random : m'.random = m.random)
    (user : m'.user = m.user) :
    m.Renamed (leaveOut m.functions (m'.functions - m.functions)) m' := by
  refine ⟨?_, fun i => ?_, random, user⟩
  · rw [rest, rest']
    rfl
  · rw [leaveOut, if_neg (by omega)]
    omega

/-- On a machine at rest that has made further functions, a result differs in the numbers of
functions only. -/
theorem evaluate_renamed (limit : Nat) (e : Expr) {m m' : Machine σ}
    (settled : env.Settled m.functions) (rest : m.scopes = [.root]) (rest' : m'.scopes = [.root])
    (functions : m.functions ≤ m'.functions) (random : m'.random = m.random)
    (user : m'.user = m.user) :
    (evaluate limit e env m').1 = (evaluate limit e env m).1.map
      (Value.rename (leaveOut m.functions (m'.functions - m.functions))) := by
  have distinct := leaveOut_injective m.functions (m'.functions - m.functions)
  have respects := settled _ distinct fun i => leaveOut_below
  have renamed := renamed_of_rest rest rest' functions random user
  exact (within_aligned distinct respects limit .handled e m m' renamed).outcome

theorem evaluate_afterEach [Subsingleton σ] (limit : Nat) (earlier : List Expr) (e : Expr)
    {m : Machine σ} (settled : env.Settled m.functions) (rest : m.scopes = [.root]) :
    (evaluate limit e env (afterEach limit earlier env m)).1 =
      (evaluate limit e env { m with random := (afterEach limit earlier env m).random }).1.map
        (Value.rename (leaveOut m.functions
          ((afterEach limit earlier env m).functions - m.functions))) :=
  evaluate_renamed (m := { m with random := (afterEach limit earlier env m).random }) limit e
    settled rest ((afterEach_scopes limit earlier m).trans rest)
    (afterEach_functions limit earlier m) rfl (Subsingleton.elim _ _)

/-- Evaluations and calls of functions restore the scopes, whatever extensions the user has and
however they end. After any number of evaluations one scope is left, and where extensions keep no
state, a later evaluation has the same result as without the earlier ones, given the same random
numbers and up to the numbers of the functions in it. -/
theorem scopes_restored (env : Environment σ) (limit : Nat) :
    (∀ entry e m, (within limit entry e env m).2.scopes = m.scopes) ∧
    (∀ f args m, (callClosure (within limit) f args env m).2.scopes = m.scopes) ∧
    (∀ f args m, (callValue (within limit) f args env m).2.scopes = m.scopes) ∧
    (∀ earlier user, (afterEach limit earlier env (.start env.clock user)).depth = 1) ∧
    (Subsingleton σ → ∀ earlier e m, env.Settled m.functions → m.scopes = [.root] →
      (evaluate limit e env (afterEach limit earlier env m)).1 =
        (evaluate limit e env { m with random := (afterEach limit earlier env m).random }).1.map
          (Value.rename (leaveOut m.functions
            ((afterEach limit earlier env m).functions - m.functions)))) := by
  refine ⟨within_scopes limit, callClosure_scopes limit, callValue_scopes limit, ?depth, ?later⟩
  case depth =>
    intro earlier user
    rw [Machine.depth, afterEach_scopes]
    rfl
  case later =>
    intro stateless earlier e m settled rest
    exact evaluate_afterEach limit earlier e settled rest

/-- Options with a function of the user that fails. -/
def failing : Options Unit :=
  Options.usual.withHandler "fnFail" (.call fun _ => .fail (.custom "failed"))

theorem failing_settled (clock : Calendar.Clock) :
    Environment.Settled 0 ⟨failing, clock, .object []⟩ := by
  intro ρ _ _
  refine ⟨⟨?_, ?_, ?_⟩, Value.rename_object ρ []⟩
  · intro entry member
    obtain rfl := List.mem_singleton.1 member
    exact fun args => .fail _
  · exact fun _ h => absurd h List.not_mem_nil
  · exact fun _ h => absurd h List.not_mem_nil

/-- A call of a function value that fails in its body. -/
def failingCall : Expr :=
  .call mapName [.array [.text "a"], .function ["x"] (.call "Fail" [.variable "x"])]

theorem scopes_restored_failing :
    Subsingleton Unit ∧ ∀ clock,
      let env : Environment Unit := ⟨failing, clock, .object []⟩
      let m := Machine.start clock ()
      env.Settled m.functions ∧ m.scopes = [.root] ∧
      (evaluate 5 failingCall env m).1 = .error (.fault (.custom "failed")) ∧
      (evaluate 5 (.function ["x"] (.variable "x")) env (afterEach 5 [failingCall] env m)).1 =
        .ok ((Value.function ⟨0, ["x"], .variable "x"⟩).rename (leaveOut 0 1)) :=
  ⟨inferInstance, fun clock => ⟨failing_settled clock, rfl, rfl,
    (scopes_restored ⟨failing, clock, .object []⟩ 5).2.2.2.2 inferInstance [failingCall]
      (.function ["x"] (.variable "x")) (Machine.start clock ()) (failing_settled clock) rfl⟩⟩

end Succession

end Eval

end TemplateFormula
