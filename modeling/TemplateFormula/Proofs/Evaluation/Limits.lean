import TemplateFormula.Proofs.Evaluation.Lockstep

/-!
# Outcomes and limits

Once an evaluation has ended within a limit, it ends in the same way within every higher one,
whatever extensions a user has added. So two evaluations are compared by the outcomes that they have
within some limit, and a rule is taken apart without counting steps.
-/

namespace TemplateFormula.Eval

variable {σ : Type}

section Raising

variable {α β γ δ : Type}

/-- A computation that a higher limit does not change once it has ended. -/
def Extends (r : α → β) (p : Except Halt α × Machine σ) (q : Except Halt β × Machine σ) : Prop :=
  p.1 ≠ .error .exhausted → q = (p.1.map r, p.2)

theorem Extends.bind {r : α → β} {s : γ → δ} {env env' : Environment σ}
    {x : Eval σ α} {y : Eval σ β} {f : α → Eval σ γ} {g : β → Eval σ δ} {m : Machine σ}
    (first : Extends r (x env m) (y env' m))
    (next : ∀ a m₁, Extends s (f a env m₁) (g (r a) env' m₁)) :
    Extends s ((x >>= f) env m) ((y >>= g) env' m) := by
  intro ended
  rw [bind_def] at ended ⊢
  rw [bind_def]
  generalize x env m = p at first ended
  obtain ⟨a, m₁⟩ := p
  cases a with
  | error e =>
    have same : y env' m = (.error e, m₁) := first fun h => ended (by cases h; rfl)
    rw [same]
    rfl
  | ok a =>
    have same : y env' m = (.ok (r a), m₁) := first (by simp)
    rw [same]
    exact next a m₁ ended

theorem Extends.attempt {r : α → β} {env : Environment σ} {x : Eval σ α} {y : Eval σ β}
    {m : Machine σ} (h : Extends r (x env m) (y env m)) :
    Extends (Except.map r) (attempt x env m) (attempt y env m) := by
  intro ended
  simp only [Eval.attempt] at ended ⊢
  generalize x env m = p at h ended
  obtain ⟨(e | _) | a, m₁⟩ := p
  · have same : y env m = (.error (.fault e), m₁) := h (by simp)
    rw [same]
    rfl
  · exact absurd rfl ended
  · have same : y env m = (.ok (r a), m₁) := h (by simp)
    rw [same]
    rfl

theorem Extends.runFilter (env : Environment σ) (n : Nat) (f : Filter) (input : Value)
    (args : List Value) (waiting : List FilterCall) (m : Machine σ) :
    Extends id (runFilter n f input args waiting env m)
      (Eval.runFilter (n + 1) f input args waiting env m) := by
  intro ended
  have below := FilterProgram.runFilter_below env.options.findFilter? env.filterContext n f input
    args waiting
  simp only [Eval.runFilter] at ended ⊢
  rcases run : FilterProgram.runFilter env.options.findFilter? env.filterContext n f input args
    waiting with ⟨h | v, after⟩
  · rw [run] at below ended
    rw [below fun met => ended (by cases met; rfl)]
    rfl
  · rw [run] at below
    rw [below (by simp)]
    rfl

/-- Evaluation respects that its limit is raised by one. -/
def raising (env : Environment σ) : Lockstep id env 1 where
  distinct := Function.injective_id
  respects := env.respects_id
  Holds r x y := ∀ m, Extends r (x env m) (y env m)
  congr h hx hy := by
    intro m
    rw [← hx, ← hy]
    exact h m
  pure r a := fun m _ => rfl
  bind hx hf := fun m => (hx m).bind hf
  fault r e := fun m _ => rfl
  spent r _ _ _ _ := fun m ended => absurd rfl ended
  lookUp name := by
    intro m _
    rw [Value.rename_id_eq]
    rfl
  makeFunction params body := fun m _ => by
    rw [Value.rename_id_eq]
    rfl
  random := fun m _ => rfl
  runFilter n f _ input args waiting := by
    rw [Value.rename_id_eq, List.map_id, Prod.map_id]
    exact Extends.runFilter env n f input args waiting
  attempt h := fun m => (h m).attempt
  inScope s α β r x y h := by
    intro m ended
    have same : y env { m with scopes := s :: m.scopes } = _ :=
      h { m with scopes := s :: m.scopes } ended
    rw [Scope.rename_id]
    simp only [inScope, same]
  depth := fun m _ => rfl
  user := fun m _ => rfl
  setUser s := fun m _ => rfl

end Raising

section Outcomes

variable {α β : Type} {env : Environment σ}

/-- A family of computations, one for each limit, that have the same outcome once they have
ended. -/
def Grows (env : Environment σ) (x : Nat → Eval σ α) : Prop :=
  ∀ n m, Extends id (x n env m) (x (n + 1) env m)

/-- The outcome within some limit. -/
def Ends (env : Environment σ) (x : Nat → Eval σ α) (m : Machine σ)
    (o : Except EvalError α × Machine σ) : Prop :=
  ∃ n, x n env m = (o.1.mapError .fault, o.2)

theorem ended_mapError (r : Except EvalError α) :
    r.mapError Halt.fault ≠ .error .exhausted := by
  cases r with
  | ok a => exact nofun
  | error e => exact nofun

namespace Grows

variable {x : Nat → Eval σ α} {f : Nat → α → Eval σ β}

theorem steady {x : Eval σ α} : Grows env fun _ => x := by
  intro n m ended
  rw [Except.map_id]
  rfl

theorem bind (hx : Grows env x) (hf : ∀ a, Grows env fun n => f n a) :
    Grows env fun n => x n >>= f n :=
  fun n m => (hx n m).bind fun a => hf a n

theorem later (h : Grows env x) {n k : Nat} (hk : n ≤ k) {m : Machine σ}
    (ended : (x n env m).1 ≠ .error .exhausted) : x k env m = x n env m := by
  induction hk with
  | refl => rfl
  | @step k _ ih =>
    have same := h k m (by rw [ih]; exact ended)
    rw [same, ih, Except.map_id]
    rfl

theorem ends_later (h : Grows env x) {n k : Nat} (hk : n ≤ k) {m : Machine σ}
    {o : Except EvalError α × Machine σ} (ends : x n env m = (o.1.mapError .fault, o.2)) :
    x k env m = (o.1.mapError .fault, o.2) := by
  have ended : (x n env m).1 ≠ .error .exhausted := by
    rw [ends]
    exact ended_mapError o.1
  rw [h.later hk ended, ends]

end Grows

/-- A computation followed by another ends with the error of the first or the outcome of the
second. -/
theorem ends_bind {x : Nat → Eval σ α} {f : Nat → α → Eval σ β} (hx : Grows env x)
    (hf : ∀ a, Grows env fun n => f n a) (m : Machine σ) (o : Except EvalError β × Machine σ) :
    Ends env (fun n => x n >>= f n) m o ↔
      (∃ e, Ends env x m (.error e, o.2) ∧ o.1 = .error e) ∨
      ∃ a m₁, Ends env x m (.ok a, m₁) ∧ Ends env (fun n => f n a) m₁ o := by
  constructor
  · rintro ⟨n, ends⟩
    have ends : (x n >>= f n) env m = _ := ends
    rcases first : x n env m with ⟨h | a, m₁⟩
    · rw [bind_of_error first] at ends
      obtain ⟨r, m'⟩ := o
      obtain ⟨failed, rfl⟩ := Prod.mk.inj ends
      cases r with
      | ok a => cases failed
      | error e =>
        cases failed
        exact .inl ⟨e, ⟨n, first⟩, rfl⟩
    · rw [bind_of_ok first] at ends
      exact .inr ⟨a, m₁, ⟨n, first⟩, n, ends⟩
  · rintro (⟨e, ⟨n, first⟩, failed⟩ | ⟨a, m₁, ⟨n, first⟩, k, last⟩)
    · refine ⟨n, (bind_of_error first).trans ?_⟩
      rw [failed]
      rfl
    · have first := hx.ends_later (Nat.le_max_left n k) first
      have last := (hf a).ends_later (Nat.le_max_right n k) last
      exact ⟨max n k, (bind_of_ok first).trans last⟩

theorem ends_pure (a : α) (m : Machine σ) (o : Except EvalError α × Machine σ) :
    Ends env (fun _ => pure a) m o ↔ o = (.ok a, m) := by
  obtain ⟨r, m'⟩ := o
  constructor
  · rintro ⟨_, ends⟩
    obtain ⟨result, rfl⟩ := Prod.mk.inj ends
    cases r with
    | error e => cases result
    | ok b =>
      cases result
      rfl
  · intro h
    cases h
    exact ⟨0, rfl⟩

theorem ends_map {x : Nat → Eval σ α} (hx : Grows env x) (f : α → β) (m : Machine σ)
    (o : Except EvalError β × Machine σ) :
    Ends env (fun n => do return f (← x n)) m o ↔ ∃ r, Ends env x m (r, o.2) ∧ o.1 = r.map f := by
  refine (ends_bind (f := fun _ a => pure (f a)) hx (fun _ => .steady) m o).trans ?_
  simp only [ends_pure]
  constructor
  · rintro (⟨e, ends, failed⟩ | ⟨a, m₁, ends, rfl⟩)
    · exact ⟨.error e, ends, failed⟩
    · exact ⟨.ok a, ends, rfl⟩
  · rintro ⟨e | a, ends, result⟩
    · exact .inl ⟨e, ends, result⟩
    · exact .inr ⟨a, o.2, ends, Prod.ext result rfl⟩

/-- Families of computations with the same outcomes. -/
structure Same (env : Environment σ) (x y : Nat → Eval σ α) : Prop where
  left : Grows env x
  right : Grows env y
  ends : ∀ m o, Ends env x m o ↔ Ends env y m o

namespace Same

variable {x y z : Nat → Eval σ α} {f g : Nat → α → Eval σ β}

theorem refl (h : Grows env x) : Same env x x := ⟨h, h, fun _ _ => Iff.rfl⟩

theorem symm (h : Same env x y) : Same env y x := ⟨h.right, h.left, fun m o => (h.ends m o).symm⟩

theorem trans (first : Same env x y) (last : Same env y z) : Same env x z :=
  ⟨first.left, last.right, fun m o => (first.ends m o).trans (last.ends m o)⟩

theorem bind (first : Same env x y) (next : ∀ a, Same env (fun n => f n a) fun n => g n a) :
    Same env (fun n => x n >>= f n) fun n => y n >>= g n := by
  refine ⟨first.left.bind fun a => (next a).left, first.right.bind fun a => (next a).right, ?_⟩
  intro m o
  rw [ends_bind first.left fun a => (next a).left, ends_bind first.right fun a => (next a).right]
  simp only [first.ends, (next _).ends]

/-- Computations that are the same from some limit on. -/
theorem of_later (hx : Grows env x) (hy : Grows env y) (k : Nat)
    (later : ∀ n, k ≤ n → x n env = y n env) : Same env x y := by
  refine ⟨hx, hy, fun m o => ⟨?_, ?_⟩⟩
  · rintro ⟨n, ends⟩
    exact ⟨max n k, by rw [← later _ (Nat.le_max_right n k),
      hx.ends_later (Nat.le_max_left n k) ends]⟩
  · rintro ⟨n, ends⟩
    exact ⟨max n k, by rw [later _ (Nat.le_max_right n k),
      hy.ends_later (Nat.le_max_left n k) ends]⟩

/-- Computations of which the first takes one step more. -/
theorem of_succ (hx : Grows env x) (hy : Grows env y) (succ : ∀ n, x (n + 1) env = y n env) :
    Same env x y := by
  refine ⟨hx, hy, fun m o => ⟨?_, ?_⟩⟩
  · rintro ⟨n, ends⟩
    exact ⟨n, by rw [← succ, hx.ends_later (Nat.le_succ n) ends]⟩
  · rintro ⟨n, ends⟩
    exact ⟨n + 1, by rw [succ, ends]⟩

/-- Computations that differ only in how they are written. -/
theorem of_eq (hx : Grows env x) (same : ∀ n, x n env = y n env) : Same env x y := by
  have hy : Grows env y := fun n m => by
    rw [← same n, ← same (n + 1)]
    exact hx n m
  exact of_later hx hy 0 fun n _ => same n

end Same

end Outcomes

section Nodes

variable {env : Environment σ}

theorem covers (env : Environment σ) (n : Nat) (entry : Entry) (e : Expr) :
    (raising env).Holds (Value.rename id) (within n entry e) (within (n + 1) entry e) :=
  (raising env).within n entry e

theorem within_grows (entry : Entry) (e : Expr) : Grows env fun n => within n entry e := by
  intro n m
  have grows := covers env n entry e m
  rwa [Value.rename_id_eq] at grows

theorem rule_grows (e : Expr) : Grows env fun n => rule n (within n) e := by
  intro n m
  have grows := Lockstep.rule (n := n) (covers env n) e m
  rwa [Value.rename_id_eq] at grows

/-- Where no handler takes a node, its evaluation is the built-in rule. -/
theorem same_rule {e : Expr} (h : env.options.nodeHandler? e.kind = none) :
    Same env (fun n => within n .handled e) fun n => rule n (within n) e :=
  .of_succ (within_grows .handled e) (rule_grows e) fun _ => funext (within_builtin h)

end Nodes

end TemplateFormula.Eval
