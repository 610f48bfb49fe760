import TemplateFormula.Proofs.Evaluation.Rules

/-!
# The nesting of function calls

An evaluation that keeps the largest number of scopes it has met, and otherwise does what
evaluation does. There is one scope for the data and one more for every function call that has not
returned.
-/

namespace TemplateFormula

/-- Machines that differ in the state of the user only. -/
structure Machine.Alike {σ τ : Type} (m : Machine σ) (m' : Machine τ) : Prop where
  scopes : m'.scopes = m.scopes
  functions : m'.functions = m.functions
  random : m'.random = m.random

namespace Eval

def noteDepth : Eval Nat Unit := fun _ m => (.ok (), { m with user := max m.user m.depth })

/-- Evaluation that notes the number of scopes at every node. -/
def watched : Nat → Entry → Expr → Eval Nat Value
  | 0, _, _ => do
    noteDepth
    exhausted
  | n + 1, _, e => do
    noteDepth
    rule n (watched n) e

variable {clock : Calendar.Clock} {data : Value} {filter : Option String}

theorem within_succ {σ : Type} (n : Nat) (entry : Entry) (e : Expr) :
    within (n + 1) entry e (.bare σ clock data filter) =
      rule n (within n) e (.bare σ clock data filter) := by
  cases entry <;> rfl

section Watching

/-- A watched computation goes as the plain one. It never lowers the note, and the scopes are
afterwards what they were. -/
structure Mirrors {α β : Type} (r : α → β) (before : Machine Nat)
    (p : Except Halt α × Machine Unit) (q : Except Halt β × Machine Nat) : Prop where
  outcome : q.1 = p.1.map r
  alike : p.2.Alike q.2
  grows : before.user ≤ q.2.user
  scopes : q.2.scopes = before.scopes

theorem Mirrors.intro {α β : Type} {r : α → β} {a : Except Halt α} {b : Except Halt β}
    {m : Machine Unit} {m' : Machine Nat} (alike : m.Alike m') (outcome : b = a.map r) :
    Mirrors r m' (a, m) (b, m') :=
  ⟨outcome, alike, Nat.le_refl _, rfl⟩

theorem Mirrors.bind {α β γ δ : Type} {r : α → β} {s : γ → δ} {env : Environment Unit}
    {env' : Environment Nat} {x : Eval Unit α} {y : Eval Nat β} {f : α → Eval Unit γ}
    {g : β → Eval Nat δ} {m : Machine Unit} {m' : Machine Nat}
    (first : Mirrors r m' (x env m) (y env' m'))
    (next : ∀ a m₁ m₁', m₁.Alike m₁' → Mirrors s m₁' (f a env m₁) (g (r a) env' m₁')) :
    Mirrors s m' ((x >>= f) env m) ((y >>= g) env' m') := by
  rw [bind_def, bind_def]
  generalize x env m = p at first
  generalize y env' m' = q at first
  obtain ⟨a, m₁⟩ := p
  obtain ⟨b, m₁'⟩ := q
  obtain ⟨outcome, alike, grows, scopes⟩ := first
  cases outcome
  cases a with
  | error e => exact ⟨rfl, alike, grows, scopes⟩
  | ok a =>
    have rest := next a m₁ m₁' alike
    exact ⟨rest.outcome, rest.alike, Nat.le_trans grows rest.grows, rest.scopes.trans scopes⟩

variable (clock data filter) in
def watching (limit : Nat) :
    Simulation PUnit Unit Nat id (.bare Unit clock data filter)
      (.bare Nat clock (data.rename id) filter) (fun _ => limit) fun _ => limit where
  distinct := Function.injective_id
  clock_eq := Environment.bare_clock Unit Nat clock data filter
  Holds r x y := ∀ m m', m.Alike m' → Mirrors r m' (x ⟨⟩ (.bare Unit clock data filter) m)
    (y ⟨⟩ (.bare Nat clock (data.rename id) filter) m')
  congr h hx hy := by
    intro m m' alike
    rw [← hx, ← hy]
    exact h m m' alike
  pure r a := fun m m' alike => .intro alike rfl
  bind hx hf := fun m m' alike => Mirrors.bind (hx m m' alike) hf
  fault r e := fun m m' alike => .intro alike rfl
  lookUp name := by
    intro m m' alike
    apply Mirrors.intro alike
    have data_eq : (Environment.bare Nat clock (data.rename id) filter).data = data :=
      Value.rename_id data
    rw [data_eq, alike.scopes]
    exact congrArg Except.ok (Value.rename_id _).symm
  makeFunction params body := by
    intro m m' alike
    have id_eq := alike.functions
    refine ⟨?_, ⟨alike.scopes, ?_, alike.random⟩, Nat.le_refl _, rfl⟩
    · simp [makeFunction, Except.map, Closure.rename, id_eq]
    · simp [makeFunction, id_eq]
  random := by
    intro m m' alike
    have word_eq := alike.random
    refine ⟨?_, ⟨alike.scopes, alike.functions, ?_⟩, Nat.le_refl _, rfl⟩
    · simp [Eval.random, Except.map, word_eq]
    · simp [Eval.random, word_eq]
  bounded := by
    intro α β r x y k h m m' alike
    by_cases under : limit < k
    · simp only [if_pos under]
      exact .intro alike rfl
    · simp only [if_neg under]
      exact h m m' alike
  filtered := by
    intro name f found input args m m' alike
    simp only [filtered_apply]
    exact .intro alike (FilterProgram.outcome_renamed Function.injective_id clock data limit found
      input args)

theorem watched_mirrors_rename (n : Nat) (e : Expr) (m : Machine Unit) (m' : Machine Nat)
    (alike : m.Alike m') :
    Mirrors (Value.rename id) m' (within n .handled e (.bare Unit clock data filter) m)
      (watched n .handled e (.bare Nat clock (data.rename id) filter) m') := by
  have noted (m' : Machine Nat) :
      m'.user ≤ (noteDepth (.bare Nat clock (data.rename id) filter) m').2.user :=
    Nat.le_max_left _ _
  induction n generalizing e m m' with
  | zero => exact ⟨rfl, ⟨alike.scopes, alike.functions, alike.random⟩, noted m', rfl⟩
  | succ n ih =>
    have calls : (watching clock data filter n).CoversCalls (fun _ => within n)
        fun _ => watched n := by
      intro f args m m' alike
      have scopes_eq : (m'.enter f args).scopes = (m.enter f args).scopes :=
        congrArg (_ :: ·) alike.scopes
      have run := ih f.body (m.enter f args) (m'.enter f args)
        ⟨scopes_eq, alike.functions, alike.random⟩
      simp only [Value.rename_id_items, callClosure_apply]
      exact ⟨run.outcome, ⟨congrArg List.tail run.alike.scopes, run.alike.functions,
        run.alike.random⟩, run.grows, congrArg List.tail run.scopes⟩
    have run := Simulation.rule calls e (fun e' _ => ih e') m
      (noteDepth (.bare Nat clock (data.rename id) filter) m').2
      ⟨alike.scopes, alike.functions, alike.random⟩
    rw [within_succ]
    exact ⟨run.outcome, run.alike, Nat.le_trans (noted m') run.grows, run.scopes⟩

variable (clock data filter) in
/-- Notes change nothing about an evaluation but the note. -/
theorem watched_mirrors (n : Nat) (e : Expr) (m : Machine Unit) (m' : Machine Nat)
    (alike : m.Alike m') :
    Mirrors id m' (within n .handled e (.bare Unit clock data filter) m)
      (watched n .handled e (.bare Nat clock data filter) m') := by
  have mirrors : Mirrors (Value.rename id) m' _
      (watched n .handled e (.bare Nat clock (data.rename id) filter) m') :=
    watched_mirrors_rename n e m m' alike
  rw [Value.rename_id, Value.rename_id_eq] at mirrors
  exact mirrors

end Watching

end Eval

end TemplateFormula
