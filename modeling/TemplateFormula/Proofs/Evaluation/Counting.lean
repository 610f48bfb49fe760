import TemplateFormula.Proofs.Evaluation.Comparison
import TemplateFormula.Proofs.Evaluation.Filtering
import TemplateFormula.Proofs.Evaluation.Simulation
import TemplateFormula.Proofs.Expr.Numbering
import TemplateFormula.Proofs.Relabeling.Likeness

/-!
# Counting computations

One function of the user returns how often it has been called. A computation with calls of it counts
from one number to another. It is followed beside a computation without them, and ends as that one,
on a machine that differs in the counter alone. Such computations can be put one behind the other.
-/

namespace TemplateFormula

namespace Closure

/-- The function itself, or nothing in its place if there are counted calls in it. -/
def silenced (f : Closure) : Closure := if f.body.counted = 0 then f else blank f.id

theorem silenced_of_silent {f : Closure} (silent : f.body.counted = 0) : f.silenced = f :=
  if_pos silent

theorem counted_silenced (f : Closure) : f.silenced.body.counted = 0 := by
  rw [silenced]
  by_cases silent : f.body.counted = 0
  · rwa [if_pos silent]
  · rw [if_neg silent]
    rfl

theorem silenced_faithful : Faithful silenced := by
  have kept (f : Closure) : f.silenced.id = f.id := by
    rw [silenced]
    split <;> rfl
  intro f g
  rw [kept, kept]

end Closure

namespace Value

/-- The value without counted calls in its functions. -/
abbrev silenced (v : Value) : Value := v.relabel Closure.silenced

/-- A value in whose functions there are no counted calls. -/
def Silent (v : Value) : Prop := v.silenced = v

theorem silenced_silent (v : Value) : v.silenced.Silent := by
  unfold Silent silenced
  induction v using nested with
  | array items ih =>
    rw [relabel_array, relabel_array, List.map_map]
    exact congrArg array (List.map_congr_left ih)
  | object ms ih =>
    rw [relabel_object, relabel_object, Members.relabel, Members.relabel, List.map_map]
    exact congrArg object (List.map_congr_left fun m member => Prod.ext rfl (ih m member))
  | function f =>
    exact congrArg function (Closure.silenced_of_silent (Closure.counted_silenced f))
  | _ => rfl

end Value

namespace Eval

/-- Returns how often it has been called. -/
def counter : Handler Nat :=
  .call fun _ => .read fun n => .write (n + 1) (.done (.number (Float.ofNat (n + 1))))

/-- The counter is the only handler. Filters of the user leave those that wait alone and pass
function values on, and what names stand for has no counted calls in it. -/
structure Counting (env : Environment Nat) : Prop where
  handlers : env.options.handlers = [(Options.functionKey countedName, counter)]
  filters : ∀ entry ∈ env.options.filters,
    Filter.Oblivious entry.2 ∧ Filter.Natural Closure.silenced entry.2
  namespaces : ∀ entry ∈ env.options.namespaces, ∀ name, (entry.2 name).Silent
  data : env.data.Silent

/-- Scopes in which every name stands for a silent value. -/
def SilentScopes (env : Environment Nat) (scopes : List Scope) : Prop :=
  ∀ name, (Scope.lookUp env.data name scopes).Silent

/-- Ends of two evaluations: with views of one result on machines that differ in the counter, or
with the same error. -/
inductive Abreast {α β γ : Type} (r : γ → α) (r' : γ → β) (scopes : List Scope) (j : Nat) :
    Except Halt α × Machine Nat → Except Halt β × Machine Nat → Prop
  | ok (c : γ) {m : Machine Nat} (kept : m.scopes = scopes) :
    Abreast r r' scopes j (.ok (r c), { m with user := j }) (.ok (r' c), m)
  | error (h : Halt) (m m' : Machine Nat) : Abreast r r' scopes j (.error h, m) (.error h, m')

/-- The first computation counts from `i` to `j`, and otherwise ends as the second. -/
def Counts (env : Environment Nat) (i j : Nat) {α β γ : Type} (r : γ → α) (r' : γ → β)
    (x : Eval Nat α) (y : Eval Nat β) : Prop :=
  ∀ m, SilentScopes env m.scopes →
    Abreast r r' m.scopes j (x env { m with user := i }) (y env m)

variable {env : Environment Nat}

section Steps

variable {α β γ α₁ β₁ γ₁ : Type} {r : γ → α} {r' : γ → β} {s : γ₁ → α₁} {s' : γ₁ → β₁} {i j k : Nat}
  {x x₁ : Eval Nat α} {y y₁ : Eval Nat β}

namespace Counts

theorem congr (h : Counts env i j r r' x y) (first : x env = x₁ env) (second : y env = y₁ env) :
    Counts env i j r r' x₁ y₁ := by
  intro m silent
  rw [← first, ← second]
  exact h m silent

theorem pure (r : γ → α) (r' : γ → β) (c : γ) :
    Counts env i i r r' (Pure.pure (r c)) (Pure.pure (r' c)) :=
  fun _ _ => .ok c rfl

theorem halt (h : Halt) : Counts env i j r r' (Eval.halt h) (Eval.halt h) :=
  fun _ _ => .error h _ _

theorem bind {f : α → Eval Nat α₁} {g : β → Eval Nat β₁} (first : Counts env i j r r' x y)
    (next : ∀ c, Counts env j k s s' (f (r c)) (g (r' c))) :
    Counts env i k s s' (x >>= f) (y >>= g) := by
  intro m silent
  have ends := first m silent
  rw [bind_def, bind_def]
  generalize x env { m with user := i } = p at ends
  generalize y env m = q at ends
  cases ends with
  | error h m₁ m₁' => exact .error h m₁ m₁'
  | @ok c m₁ kept =>
    rw [← kept] at silent ⊢
    exact next c m₁ silent

/-- Computations whose results are changed in corresponding ways. -/
theorem map {f : α → α₁} {g : β → β₁} (h : γ → γ₁) (first : Counts env i j r r' x y)
    (left : ∀ c, f (r c) = s (h c)) (right : ∀ c, g (r' c) = s' (h c)) :
    Counts env i j s s' (do return f (← x)) (do return g (← y)) := by
  refine first.bind fun c => ?_
  rw [left, right]
  exact .pure s s' (h c)

/-- A step that asks for what is there, which both do. -/
theorem bind_ask {δ : Type} {h : Environment Nat → δ} {f : δ → Eval Nat α} {g : δ → Eval Nat β}
    (after : Counts env i j r r' (f (h env)) (g (h env))) :
    Counts env i j r r' (ask h >>= f) (ask h >>= g) :=
  after.congr rfl rfl

theorem ask {h h' : Environment Nat → α} (c : γ) (left : h env = r c) (right : h' env = r c) :
    Counts env i i r r (ask h) (ask h') := by
  intro m _
  rw [Eval.ask, Eval.ask, left, right]
  exact .ok c rfl

theorem random : Counts env i i id id random random := by
  intro m _
  exact .ok (m := { m with random := nextWord m.random }) _ rfl

theorem inScope {t : Scope} (h : Counts env i j r r' x y)
    (inner : ∀ scopes, SilentScopes env scopes → SilentScopes env (t :: scopes)) :
    Counts env i j r r' (inScope t x) (inScope t y) := by
  intro m silent
  have ends := h { m with scopes := t :: m.scopes } (inner m.scopes silent)
  unfold Eval.inScope
  dsimp only at ends ⊢
  generalize x env _ = p at ends ⊢
  generalize y env _ = q at ends ⊢
  cases ends with
  | error h m₁ m₁' => exact .error h _ _
  | @ok c m₁ kept => exact .ok (m := m₁.leave) c (congrArg List.tail kept)

end Counts

end Steps

/-- Computations of views of one value, the first of which counts. -/
abbrev Gives (env : Environment Nat) (i j : Nat) (x y : Eval Nat Value) : Prop :=
  Counts env i j (Value.relabel Closure.silenced) (Value.relabel Closure.silenced) x y

theorem gives_of_silent {v : Value} (silent : v.Silent) (i : Nat) :
    Gives env i i (pure v) (pure v) := by
  have answered : Gives env i i _ _ :=
    .pure (Value.relabel Closure.silenced) (Value.relabel Closure.silenced) v
  rwa [show v.relabel Closure.silenced = v from silent] at answered

theorem gives_lookUp (name : String) (i : Nat) : Gives env i i (lookUp name) (lookUp name) :=
  fun m silent => gives_of_silent (silent name) i m silent

theorem gives_makeFunction {body : Expr} (silent : body.counted = 0) (params : List String)
    (i : Nat) : Gives env i i (makeFunction params body) (makeFunction params body) := by
  intro m _
  have kept : (Closure.mk m.functions params body).silenced = ⟨m.functions, params, body⟩ :=
    Closure.silenced_of_silent silent
  have ends : Abreast (Value.relabel Closure.silenced) (Value.relabel Closure.silenced) m.scopes i
      _ _ :=
    .ok (m := { m with functions := m.functions + 1 }) (.function ⟨m.functions, params, body⟩) rfl
  rw [Value.relabel_function, kept] at ends
  exact ends

section Environments

variable (counting : Counting env)
include counting

theorem Counting.functionHandler? (name : String) :
    env.options.functionHandler? name = if name = countedName then some counter else none := by
  have same : Options.functionKey name = Options.functionKey countedName ↔ name = countedName := by
    rw [Options.functionKey, Options.functionKey, String.append_right_inj]
  rw [Options.functionHandler?, counting.handlers, List.lookup_cons]
  by_cases own : name = countedName
  · rw [if_pos own, own, beq_self_eq_true]
  · rw [if_neg own, beq_false_of_ne fun h => own (same.1 h)]
    rfl

theorem Counting.nodeHandler? (k : Kind) : env.options.nodeHandler? k = none := by
  have other : k.name ≠ Options.functionKey countedName := by cases k <;> decide
  rw [Options.nodeHandler?, counting.handlers, List.lookup_cons, beq_false_of_ne other]
  rfl

theorem Counting.filter {name : String} {f : Filter}
    (found : env.options.findFilter? name = some f) :
    Filter.Oblivious f ∧ Filter.Natural Closure.silenced f := by
  unfold Options.findFilter? at found
  split at found
  · next g present =>
    cases found
    exact counting.filters (name, f) (Filter.mem_of_find? present)
  · exact ⟨Filter.oblivious_of_find? found,
      Filter.natural_of_find? Closure.silenced_faithful found⟩

/-- No filter looks at those that wait, so these may be numbered. -/
theorem Counting.runFilter {name : String} {f : Filter}
    (found : env.options.findFilter? name = some f) (n : Nat) (v : Value) (args : List Value)
    (waiting waiting' : List FilterCall) (i : Nat) :
    Counts env i i (fun w : Value => (w.relabel Closure.silenced, waiting))
      (fun w => (w.relabel Closure.silenced, waiting'))
      (runFilter n f (v.relabel Closure.silenced) (args.map (Value.relabel Closure.silenced))
        waiting)
      (Eval.runFilter n f (v.relabel Closure.silenced) (args.map (Value.relabel Closure.silenced))
        waiting') := by
  have oblivious (name : String) (g : Filter) (h : env.options.findFilter? name = some g) :=
    (counting.filter h).1
  have respects (name : String) (g : Filter) (h : env.options.findFilter? name = some g) :=
    (counting.filter h).2
  obtain ⟨r, quiet⟩ := FilterProgram.runFilter_quiet oblivious env.filterContext n
    (oblivious name f found) (v.relabel Closure.silenced)
    (args.map (Value.relabel Closure.silenced))
  have context : env.filterContext.relabel Closure.silenced = env.filterContext :=
    congrArg (FilterContext.mk env.clock) counting.data
  have natural := FilterProgram.runFilter_relabeled respects env.filterContext n
    (respects name f found) v args []
  rw [context, quiet] at natural
  intro m _
  unfold Eval.runFilter
  rw [quiet, quiet, show r = _ from congrArg Prod.fst natural, FilterProgram.relabelOutcome]
  rcases (FilterProgram.runFilter env.options.findFilter? env.filterContext n f v args []).1
    with h | w
  · exact .error h _ _
  · exact .ok w rfl

end Environments

section Scopes

theorem bind_silent {bound : List (String × Value)} {params : List String} {args : List Value}
    (own : ∀ b ∈ bound, b.2.Silent) (silent : ∀ v ∈ args, v.Silent) :
    ∀ b ∈ Scope.bind bound params args, b.2.Silent := by
  induction params generalizing bound args with
  | nil => exact own
  | cons p params ih =>
    refine ih (List.forall_mem_cons.2 ⟨?_, own⟩) fun v member =>
      silent v (List.mem_of_mem_tail member)
    cases args with
    | nil => exact Value.relabel_undefined _
    | cons v args => exact silent v List.mem_cons_self

theorem silentScopes_locals {bindings : List (String × Value)} {scopes : List Scope}
    (own : ∀ b ∈ bindings, b.2.Silent) (silent : SilentScopes env scopes) :
    SilentScopes env (.locals bindings :: scopes) := by
  intro name
  rw [Scope.lookUp]
  cases found : bindings.lookup name with
  | none => exact silent name
  | some v =>
    obtain ⟨before, after, split, _⟩ := List.lookup_eq_some_iff.mp found
    exact own (name, v) (by rw [split]; simp)

theorem silentScopes_start (counting : Counting env) : SilentScopes env [.root] := by
  intro name
  rw [Scope.lookUp]
  by_cases whole : name = Path.wholeName
  · rw [if_pos whole]
    exact counting.data
  · rw [if_neg whole]
    have member := Value.memberAt_relabel Closure.silenced env.data name
    rw [show env.data.relabel Closure.silenced = env.data from counting.data] at member
    exact member.symm

end Scopes

/-- Computations that do not count, whatever the counter is. -/
def silence (env : Environment Nat) :
    Comparison PUnit Nat Nat Closure.silenced Closure.silenced env env where
  faithful := Closure.silenced_faithful
  faithful' := Closure.silenced_faithful
  zone_eq := rfl
  Holds r r' x y := ∀ i, Counts env i i r r' (x ⟨⟩) (y ⟨⟩)
  congr h first second i := (h i).congr (first ⟨⟩) (second ⟨⟩)
  pure r r' c _ := .pure r r' c
  bind first next i := (first i).bind fun c => next c i
  fault _ _ e _ := .halt (.fault e)

end Eval

end TemplateFormula
