import TemplateFormula.Proofs.Evaluation.Setting

/-!
# One evaluation leading another

A computation leads another if, wherever it ends, the other ends with a corresponding result once
its limit is high enough. The limit of the first is fixed, so what is proved by induction on it says
nothing about the second; that one may need more steps or fewer.
-/

namespace TemplateFormula

namespace Eval

open Value (Seen relabel)

/-- Results that are views of one, or the same error. -/
inductive Tally {α β γ : Type} (r : γ → α) (r' : γ → β) : Except Halt α → Except Halt β → Prop
  | ok (c : γ) : Tally r r' (.ok (r c)) (.ok (r' c))
  | fault (e : EvalError) : Tally r r' (.error (.fault e)) (.error (.fault e))

variable {σ : Type} (S : Setting σ) (C : Names → Expr → Expr → Prop)

/-- Machines of two evaluations at the same place, in given scopes. -/
structure Beside (s s' : List Scope) (m m' : Machine σ) : Prop where
  scopes : m.scopes = s
  scopes' : m'.scopes = s'
  functions : m'.functions = m.functions
  random : S.vocabulary.callee randomName → m'.random = m.random

/-- Where the first computation ends, the second ends within high enough limits, with a
corresponding result. -/
def Leads {α β γ : Type} (r : γ → α) (r' : γ → β) (s s' : List Scope) (x : Eval σ α)
    (y : Nat → Eval σ β) : Prop :=
  ∀ m m', Beside S s s' m m' → (x S.environment m).1 ≠ .error .exhausted →
    ∃ q, Tally r r' (x S.environment m).1 q.1 ∧ Beside S s s' (x S.environment m).2 q.2 ∧
      ∃ k, ∀ n, k ≤ n → y n S.environment' m' = q

noncomputable abbrev ownSide : Closure → Closure := Closure.left (Closure.Corresponds C)

noncomputable abbrev otherSide : Closure → Closure := Closure.right (Closure.Corresponds C)

/-- What names stand for in two lists of scopes corresponds. -/
def Agrees (N : Names) (s s' : List Scope) : Prop :=
  ∀ n n', N n n' → Seen (ownSide C) (otherSide C) (Scope.lookUp S.data n s)
    (Scope.lookUp S.data' n' s')

variable {S C}

namespace Leads

variable {α β γ α₁ β₁ γ₁ : Type} {r : γ → α} {r' : γ → β} {r₁ : γ₁ → α₁} {r₁' : γ₁ → β₁}
  {s s' : List Scope} {x x₁ : Eval σ α} {y y₁ : Nat → Eval σ β}

theorem congr (h : Leads S r r' s s' x y) (left : x S.environment = x₁ S.environment) {k : Nat}
    (right : ∀ n, k ≤ n → y n S.environment' = y₁ n S.environment') :
    Leads S r r' s s' x₁ y₁ := by
  intro m m' beside ended
  rw [← left] at ended ⊢
  obtain ⟨q, tally, after, k', same⟩ := h m m' beside ended
  refine ⟨q, tally, after, max k k', fun n hn => ?_⟩
  rw [← right n (Nat.le_trans (Nat.le_max_left k k') hn)]
  exact same n (Nat.le_trans (Nat.le_max_right k k') hn)

/-- What the second computation does without any step does not matter. -/
theorem congr_succ (h : Leads S r r' s s' x y) (left : x S.environment = x₁ S.environment)
    (right : ∀ n, y (n + 1) S.environment' = y₁ (n + 1) S.environment') :
    Leads S r r' s s' x₁ y₁ := by
  refine h.congr left (k := 1) fun n positive => ?_
  cases n with
  | zero => cases positive
  | succ n => exact right n

/-- The second computation may take one step more. -/
theorem later (h : Leads S r r' s s' x y) : Leads S r r' s s' x fun n => y (n - 1) := by
  intro m m' beside ended
  obtain ⟨q, tally, after, k, same⟩ := h m m' beside ended
  exact ⟨q, tally, after, k + 1, fun n hn => same (n - 1) (Nat.le_sub_one_of_lt hn)⟩

theorem pure (r : γ → α) (r' : γ → β) (c : γ) :
    Leads S r r' s s' (Pure.pure (r c)) fun _ => Pure.pure (r' c) :=
  fun _ m' beside _ => ⟨(.ok (r' c), m'), .ok c, beside, 0, fun _ _ => rfl⟩

theorem fault (r : γ → α) (r' : γ → β) (e : EvalError) :
    Leads S r r' s s' (Eval.fault e) fun _ => Eval.fault e :=
  fun _ m' beside _ => ⟨(.error (.fault e), m'), .fault e, beside, 0, fun _ _ => rfl⟩

theorem of_exhausted (never : ∀ m, (x S.environment m).1 = .error .exhausted) :
    Leads S r r' s s' x y :=
  fun m _ _ ended => absurd (never m) ended

theorem exhausted : Leads S r r' s s' (exhausted : Eval σ α) y :=
  .of_exhausted fun _ => rfl

theorem bind {f : α → Eval σ α₁} {g : Nat → β → Eval σ β₁} (first : Leads S r r' s s' x y)
    (next : ∀ c, Leads S r₁ r₁' s s' (f (r c)) fun n => g n (r' c)) :
    Leads S r₁ r₁' s s' (x >>= f) fun n => y n >>= g n := by
  intro m m' beside ended
  rw [bind_def] at ended ⊢
  have leads := first m m' beside
  generalize x S.environment m = p at leads ended
  obtain ⟨a, m₁⟩ := p
  have going : a ≠ .error .exhausted := by
    rintro rfl
    exact ended rfl
  obtain ⟨⟨b, m₁'⟩, tally, after, k, same⟩ := leads going
  cases tally with
  | fault e => exact ⟨_, .fault e, after, k, fun n hn => bind_of_error (same n hn)⟩
  | ok c =>
    obtain ⟨q, tally, after, k', same'⟩ := next c m₁ m₁' after ended
    refine ⟨q, tally, after, max k k', fun n hn => ?_⟩
    exact (bind_of_ok (same n (Nat.le_trans (Nat.le_max_left k k') hn))).trans
      (same' n (Nat.le_trans (Nat.le_max_right k k') hn))

theorem inScope {t t' : Scope} (h : Leads S r r' (t :: s) (t' :: s') x y) :
    Leads S r r' s s' (inScope t x) fun n => Eval.inScope t' (y n) := by
  intro m m' beside ended
  have inner : Beside S (t :: s) (t' :: s') { m with scopes := t :: m.scopes }
      { m' with scopes := t' :: m'.scopes } :=
    ⟨congrArg _ beside.scopes, congrArg _ beside.scopes', beside.functions, beside.random⟩
  obtain ⟨q, tally, after, k, same⟩ := h _ _ inner ended
  refine ⟨(q.1, q.2.leave), tally, ⟨?_, ?_, after.functions, after.random⟩, k, fun n hn => ?_⟩
  · exact congrArg List.tail after.scopes
  · exact congrArg List.tail after.scopes'
  · exact congrArg (fun q : Except Halt β × Machine σ => (q.1, q.2.leave)) (same n hn)

theorem lookUp {N : Names} {n n' : String} (h : N n n') (agrees : Agrees S C N s s') :
    Leads S (relabel (ownSide C)) (relabel (otherSide C)) s s' (lookUp n)
      fun _ => Eval.lookUp n' := by
  intro m m' beside _
  obtain ⟨u, own, other⟩ := agrees n n' h
  rw [← beside.scopes] at own
  rw [← beside.scopes'] at other
  have found : Eval.lookUp n S.environment m = (.ok (u.relabel (ownSide C)), m) :=
    Prod.ext (congrArg Except.ok own) rfl
  have found' : Eval.lookUp n' S.environment' m' = (.ok (u.relabel (otherSide C)), m') :=
    Prod.ext (congrArg Except.ok other) rfl
  rw [found]
  exact ⟨_, .ok u, beside, 0, fun _ _ => found'⟩

theorem makeFunction (uniform : S.Uniform C) {N : Names} {params params' : List String}
    {body body' : Expr} (h : C N (.function params body) (.function params' body')) :
    Leads S (relabel (ownSide C)) (relabel (otherSide C)) s s' (makeFunction params body)
      fun _ => Eval.makeFunction params' body' := by
  intro m m' beside _
  have related :
      Closure.Corresponds C ⟨m.functions, params, body⟩ ⟨m'.functions, params', body'⟩ :=
    ⟨beside.functions.symm, N, h⟩
  obtain ⟨f, own, other⟩ : ∃ f, ownSide C f = _ ∧ otherSide C f = _ :=
    uniform.pairs.exists_sides related
  have made : Tally (relabel (ownSide C)) (relabel (otherSide C))
      (.ok (Value.function (ownSide C f))) (.ok (Value.function (otherSide C f))) :=
    .ok (Value.function f)
  rw [own, other] at made
  exact ⟨Eval.makeFunction params' body' S.environment' m', made,
    ⟨beside.scopes, beside.scopes', congrArg (· + 1) beside.functions, beside.random⟩, 0,
    fun _ _ => rfl⟩

/-- Functions that are made at the same place have the same number. -/
theorem ofFunction {params params' : List String} {body body' : Expr}
    {f : Value → Eval σ α₁} {g : Nat → Value → Eval σ β₁}
    (next : ∀ i, Leads S r₁ r₁' s s' (f (.function ⟨i, params, body⟩))
      fun n => g n (.function ⟨i, params', body'⟩)) :
    Leads S r₁ r₁' s s' (Eval.makeFunction params body >>= f)
      fun n => Eval.makeFunction params' body' >>= g n := by
  intro m m' beside ended
  have after : Beside S s s' { m with functions := m.functions + 1 }
      { m' with functions := m'.functions + 1 } :=
    ⟨beside.scopes, beside.scopes', congrArg (· + 1) beside.functions, beside.random⟩
  obtain ⟨q, tally, last, k, same⟩ := next m.functions _ _ after ended
  refine ⟨q, tally, last, k, fun n hn => ?_⟩
  rw [← same n hn, ← beside.functions]
  rfl

theorem random (drawn : S.vocabulary.callee randomName) :
    Leads S id id s s' random fun _ => Eval.random := by
  intro m m' beside _
  have same := beside.random drawn
  refine ⟨Eval.random S.environment' m', ?_, ?_, 0, fun _ _ => rfl⟩
  · simp only [Eval.random, same]
    exact Tally.ok _
  · exact ⟨beside.scopes, beside.scopes', beside.functions, fun _ => by simp [Eval.random, same]⟩

end Leads

section Scopes

variable {s s' : List Scope} {N : Names}

theorem lookup_bind (κ κ' : Closure → Closure) {n n' : String} {params params' : List String}
    (places : Setting.SamePlaces n n' params params') (args : List Value)
    {bound bound' : List (String × Value)}
    (before : Option.Rel (Seen κ κ') (bound.lookup n) (bound'.lookup n')) :
    Option.Rel (Seen κ κ') ((Scope.bind bound params (args.map (relabel κ))).lookup n)
      ((Scope.bind bound' params' (args.map (relabel κ'))).lookup n') := by
  induction places generalizing args bound bound' with
  | nil => exact before
  | @cons p p' _ _ same _ ih =>
    have first (κ : Closure → Closure) : (args.map (relabel κ)).headD .undefined =
        (args.headD .undefined).relabel κ := by cases args <;> rfl
    rw [Scope.bind, Scope.bind, first, first, ← List.map_tail, ← List.map_tail]
    apply ih
    by_cases h : p = n
    · rw [h, same.1 h, List.lookup_cons_self, List.lookup_cons_self]
      exact .some ⟨_, rfl, rfl⟩
    · have h' : p' ≠ n' := fun h' => h (same.2 h')
      rw [List.lookup_cons, List.lookup_cons, beq_false_of_ne (Ne.symm h),
        beq_false_of_ne (Ne.symm h')]
      exact before

theorem isSome_lookup_bind {n : String} {params : List String} (args : List Value)
    (bound : List (String × Value)) (h : n ∈ params ∨ (bound.lookup n).isSome = true) :
    ((Scope.bind bound params args).lookup n).isSome = true := by
  induction params generalizing args bound with
  | nil => exact h.resolve_left List.not_mem_nil
  | cons p params ih =>
    rw [Scope.bind]
    apply ih
    by_cases own : n = p
    · rw [own, List.lookup_cons_self]
      exact .inr rfl
    · rw [List.lookup_cons, beq_false_of_ne own]
      exact h.imp_left fun member => (List.mem_cons.1 member).resolve_left own

/-- In the body of a function names are parameters or have their meaning from outside. -/
theorem Agrees.enter {outer : Names} {params params' : List String}
    (binds : S.Binds outer N params params') (agrees : Agrees S C outer s s')
    (args : List Value) :
    Agrees S C N
      (.locals (Scope.bind [] params (args.map (relabel (ownSide C)))) :: s)
      (.locals (Scope.bind [] params' (args.map (relabel (otherSide C)))) :: s') := by
  intro n n' h
  have unbound : Option.Rel (Seen (ownSide C) (otherSide C))
      (List.lookup n ([] : List (String × Value))) (List.lookup n' ([] : List (String × Value))) :=
    .none
  have found := lookup_bind (ownSide C) (otherSide C) (binds.places h) args unbound
  have own (member : n ∈ params) :=
    isSome_lookup_bind (args.map (relabel (ownSide C))) [] (.inl member)
  simp only [Scope.lookUp]
  generalize List.lookup n _ = v at found own
  generalize List.lookup n' _ = w at found
  cases found with
  | some seen => exact seen
  | none =>
    have outside := (binds.known h).resolve_left fun member => by simpa using own member
    exact agrees n n' outside

/-- In a namespace every name is one that the resolver answers. -/
theorem Agrees.inNamespace (uniform : S.Uniform C) {name : String} {r : Resolver}
    (found : S.options.namespaces.lookup name = some r)
    (answers : ∀ n n', N n n' → r n = r n') :
    Agrees S C N (.inNamespace r :: s) (.inNamespace r :: s') := by
  intro n n' h
  simp only [Scope.lookUp]
  rw [← answers n n' h]
  obtain ⟨before, after, split, _⟩ := List.lookup_eq_some_iff.mp found
  exact (Value.like_iff_seen uniform.pairs).1
    (uniform.answers (name, r) (by rw [split]; simp) n)

theorem ambient_answers (uniform : S.Uniform C) {name : String} {r : Resolver}
    (found : S.options.namespaces.lookup name = some r) (n n' : String) (h : S.ambient n n') :
    r n = r n' := by
  obtain ⟨before, after, split, _⟩ := List.lookup_eq_some_iff.mp found
  exact uniform.answers_eq (name, r) (by rw [split]; simp) n n' h

end Scopes

end Eval

end TemplateFormula
