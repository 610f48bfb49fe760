import TemplateFormula.Evaluation.Options

/-!
# Scopes and the state of an evaluation

An evaluation reads its environment, changes a machine and stops with a value or a reason. Names
are looked up through the scopes from the innermost one on.
-/

namespace TemplateFormula

inductive Scope where
  /-- The data. -/
  | root
  /-- The body of a namespace lookup, where the resolver answers every name. -/
  | inNamespace (r : Resolver)
  /-- The body of a called function. Names that are no parameters are looked up further out. -/
  | locals (bindings : List (String × Value))

namespace Scope

/-- Binds parameters to arguments; a parameter without an argument is undefined, and of two
parameters with one name the later is seen. -/
def bind (bound : List (String × Value)) : List String → List Value → List (String × Value)
  | [], _ => bound
  | p :: ps, args => bind ((p, args.headD .undefined) :: bound) ps args.tail

def lookUp (data : Value) (name : String) : List Scope → Value
  | [] => .undefined
  | root :: _ => if name = Path.wholeName then data else data.memberAt name
  | inNamespace r :: _ => r name
  | locals bindings :: outer =>
    match bindings.lookup name with
    | some v => v
    | none => lookUp data name outer

end Scope

structure Environment (σ : Type) where
  options : Options σ
  clock : Calendar.Clock
  data : Value

namespace Environment

variable {σ : Type} (env : Environment σ)

def zone : Calendar.Zone := env.clock.zone

def filterContext : FilterContext := ⟨env.clock, env.data⟩

end Environment

structure Machine (σ : Type) where
  /-- Innermost scope first. -/
  scopes : List Scope
  /-- How many function values have been made. -/
  functions : Nat
  random : UInt64
  user : σ

namespace Machine

variable {σ : Type}

def start (clock : Calendar.Clock) (user : σ) : Machine σ :=
  { scopes := [.root]
    functions := 0
    random := UInt64.ofInt (clock.zone.epochMillis clock.now) ||| 1
    user := user }

def depth (m : Machine σ) : Nat := m.scopes.length

end Machine

/-- A computation in an environment that changes a machine. -/
def Eval (σ α : Type) := Environment σ → Machine σ → Except Halt α × Machine σ

namespace Eval

variable {σ α β : Type}

instance : Monad (Eval σ) where
  pure a := fun _ m => (.ok a, m)
  bind x f := fun env m =>
    match x env m with
    | (.ok a, m) => f a env m
    | (.error h, m) => (.error h, m)

def halt (h : Halt) : Eval σ α := fun _ m => (.error h, m)

def fault (e : EvalError) : Eval σ α := halt (.fault e)

def exhausted : Eval σ α := halt .exhausted

def ofResult : Except EvalError α → Eval σ α
  | .ok a => pure a
  | .error e => fault e

def ask (f : Environment σ → α) : Eval σ α := fun env m => (.ok (f env), m)

def gets (f : Machine σ → α) : Eval σ α := fun _ m => (.ok (f m), m)

def setUser (s : σ) : Eval σ Unit := fun _ m => (.ok (), { m with user := s })

/-- The outcome of a computation, an error included. -/
def attempt (x : Eval σ α) : Eval σ (Except EvalError α) := fun env m =>
  match x env m with
  | (.ok a, m) => (.ok (.ok a), m)
  | (.error (.fault e), m) => (.ok (.error e), m)
  | (.error .exhausted, m) => (.error .exhausted, m)

/-- Runs a computation inside one more scope. -/
def inScope (s : Scope) (x : Eval σ α) : Eval σ α := fun env m =>
  let (r, after) := x env { m with scopes := s :: m.scopes }
  (r, { after with scopes := after.scopes.tail })

def lookUp (name : String) : Eval σ Value := fun env m =>
  (.ok (Scope.lookUp env.data name m.scopes), m)

/-- A new function value. -/
def makeFunction (params : List String) (body : Expr) : Eval σ Value := fun _ m =>
  (.ok (.function ⟨m.functions, params, body⟩), { m with functions := m.functions + 1 })

def nextWord (x : UInt64) : UInt64 :=
  let x := x ^^^ (x <<< 13)
  let x := x ^^^ (x >>> 7)
  x ^^^ (x <<< 17)

/-- A random number from zero up to but not including one. -/
def random : Eval σ Float := fun _ m =>
  let w := nextWord m.random
  let x := Float.ofNat (w.toNat / Number.twoPow 11) / Float.ofNat (Number.twoPow 53)
  (.ok x, { m with random := w })

/-- Runs one filter before others that wait, and returns those that still wait after it. -/
def runFilter (limit : Nat) (f : Filter) (input : Value) (args : List Value)
    (waiting : List FilterCall) : Eval σ (Value × List FilterCall) := fun env m =>
  match FilterProgram.runFilter env.options.findFilter? env.filterContext limit f input args
      waiting with
  | (.ok v, waiting) => (.ok (v, waiting), m)
  | (.error h, _) => (.error h, m)

theorem bind_def (x : Eval σ α) (f : α → Eval σ β) (env : Environment σ) (m : Machine σ) :
    (x >>= f) env m =
      match x env m with
      | (.ok a, m) => f a env m
      | (.error h, m) => (.error h, m) := rfl

@[simp] theorem pure_apply (a : α) (env : Environment σ) (m : Machine σ) :
    (pure a : Eval σ α) env m = (.ok a, m) := rfl

theorem bind_pure_eq (x : Eval σ α) : x >>= pure = x := by
  funext env m
  rw [bind_def]
  rcases x env m with ⟨_ | _, _⟩ <;> rfl

theorem bind_bind {γ : Type} (x : Eval σ α) (f : α → Eval σ β) (g : β → Eval σ γ) :
    x >>= f >>= g = x >>= fun a => f a >>= g := by
  funext env m
  simp only [bind_def]
  rcases x env m with ⟨_ | _, _⟩ <;> rfl

instance : LawfulMonad (Eval σ) :=
  LawfulMonad.mk' (Eval σ) bind_pure_eq (fun _ _ => rfl) bind_bind

end Eval

end TemplateFormula
