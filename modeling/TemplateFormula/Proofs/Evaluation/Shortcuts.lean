import TemplateFormula.Proofs.Evaluation.Limits

/-!
# Lazy functions and operators

The functions that receive their arguments unevaluated are the conditional and logical operators in
other words. They evaluate the same arguments in the same order, each at most once, and leave the
same machine behind, so not even a handler that counts its calls can tell them apart.
-/

namespace TemplateFormula

namespace Expr

/-- What stands for an argument that is not there. -/
def missing : Expr := .literal .undefined

/-- The choice by the first argument between the second and the third. -/
def choice (args : List Expr) : Expr :=
  .conditional (args[0]?.getD missing) (args[1]?.getD missing) (args[2]?.getD missing)

/-- Choices one inside the other, by every other argument. An argument left over is the default. -/
def cases : List Expr → Expr
  | [] => missing
  | [d] => d
  | c :: v :: rest => .conditional c v (cases rest)

/-- Expressions joined from the left by a logical operator, which has a value for none of them. -/
def joined (op : BinaryOp) (unit : Bool) : List Expr → Expr
  | [] => .literal (.boolean unit)
  | e :: es => es.foldl (.binary op) e

def conjunction (args : List Expr) : Expr := joined .and true args

def disjunction (args : List Expr) : Expr := joined .or false args

end Expr

open TemplateFormula.Expr (missing choice cases joined conjunction disjunction)

variable {σ : Type}

/-- Neither the lazy functions nor the nodes that they stand for have handlers. -/
structure Options.KeepsLogic (o : Options σ) : Prop where
  nodes : ∀ k ∈ [Kind.call, .conditional, .and, .or, .literal], o.nodeHandler? k = none
  functions : ∀ name ∈ ["IF", "IFS", "AND", "OR"], o.functionHandler? name = none

namespace Eval

variable {env : Environment σ}

section Operators

theorem same_literal (keeps : env.options.KeepsLogic) (l : Literal) :
    Same env (fun n => within n .handled (.literal l)) fun _ => pure (.ofLiteral l) :=
  same_rule (keeps.nodes .literal (by simp))

theorem same_conditional (keeps : env.options.KeepsLogic) (c t f : Expr) :
    Same env (fun n => within n .handled (.conditional c t f)) (fun n => do
      if (← within n .handled c).isTruthy then within n .handled t else within n .handled f) :=
  same_rule (keeps.nodes .conditional (by simp))

theorem call_lazy {name : String} {f : LazyFunction} (named : LazyFunction.ofName? name = some f)
    (free : env.options.functionHandler? name = none) (n : Nat)
    (eval : Entry → Expr → Eval σ Value) (args : List Expr) :
    call n eval name args env = callLazy (eval .handled) f args env := by
  funext m
  simp only [call, bind_def, ask, free, callBuiltin, named]

theorem same_lazy (keeps : env.options.KeepsLogic) {name : String} {f : LazyFunction}
    (named : LazyFunction.ofName? name = some f)
    (listed : name ∈ ["IF", "IFS", "AND", "OR"]) (args : List Expr) :
    Same env (fun n => within n .handled (.call name args))
      fun n => callLazy (within n .handled) f args :=
  (same_rule (keeps.nodes .call (by simp))).trans
    (.of_eq (rule_grows _) fun n => call_lazy named (keeps.functions name listed) n _ args)

theorem Same.branch {α : Type} {x x' y y' : Nat → Eval σ α} (b : Bool) (yes : Same env x x')
    (no : Same env y y') :
    Same env (fun n => if b then x n else y n) fun n => if b then x' n else y' n := by
  cases b with
  | false => exact no
  | true => exact yes

theorem same_forced (keeps : env.options.KeepsLogic) (e : Option Expr) :
    Same env (fun n => force (within n .handled) e)
      fun n => within n .handled (e.getD missing) := by
  cases e with
  | none => exact (same_literal keeps .undefined).symm
  | some e => exact .refl (within_grows .handled e)

theorem same_choice (keeps : env.options.KeepsLogic) (args : List Expr) :
    Same env (fun n => within n .handled (.call "IF" args))
      fun n => within n .handled (choice args) := by
  have chosen : Same env (fun n => callLazy (within n .handled) .choose args) (fun n => do
      if (← within n .handled (args[0]?.getD missing)).isTruthy
      then within n .handled (args[1]?.getD missing)
      else within n .handled (args[2]?.getD missing)) :=
    .bind (same_forced keeps _) fun v =>
      .branch v.isTruthy (same_forced keeps _) (same_forced keeps _)
  exact (same_lazy keeps rfl (by simp) args).trans
    (chosen.trans (same_conditional keeps _ _ _).symm)

theorem same_firstCase (keeps : env.options.KeepsLogic) : (args : List Expr) →
    Same env (fun n => firstCase (within n .handled) args)
      fun n => within n .handled (cases args)
  | [] => (same_literal keeps .undefined).symm
  | [d] => .refl (within_grows .handled d)
  | c :: v :: rest => by
    have later := same_firstCase keeps rest
    have tested : Same env (fun n => firstCase (within n .handled) (c :: v :: rest)) (fun n => do
        if (← within n .handled c).isTruthy then within n .handled v
        else within n .handled (cases rest)) :=
      .bind (.refl (within_grows .handled c)) fun w =>
        .branch w.isTruthy (.refl (within_grows .handled v)) later
    exact tested.trans (same_conditional keeps c v (cases rest)).symm

end Operators

section Logic

/-- The truth of the value of an expression. -/
def truth (n : Nat) (e : Expr) : Eval σ Bool := do
  return (← within n .handled e).isTruthy

/-- Goes on to a computation unless a truth decides. -/
def goOn (stop : Bool) (next : Eval σ Bool) (t : Bool) : Eval σ Bool :=
  if t == stop then pure stop else next

/-- Whether no expression has the truth that decides. -/
def undecided (eval : Expr → Eval σ Value) (stop : Bool) : List Expr → Eval σ Bool
  | [] => pure !stop
  | e :: es => eval e >>= fun v => goOn stop (undecided eval stop es) v.isTruthy

theorem allHold_eq (eval : Expr → Eval σ Value) (es : List Expr) :
    allHold eval es = undecided eval false es := by
  induction es with
  | nil => rfl
  | cons e es ih =>
    rw [allHold, undecided, ih]
    refine bind_congr fun v => ?_
    cases v.isTruthy <;> rfl

theorem anyHolds_eq (eval : Expr → Eval σ Value) (es : List Expr) :
    anyHolds eval es = undecided eval true es := by
  induction es with
  | nil => rfl
  | cons e es ih =>
    rw [anyHolds, undecided, ih]
    refine bind_congr fun v => ?_
    cases v.isTruthy <;> rfl

/-- The logical operators, with the truth of a left operand that decides. -/
inductive Stops : BinaryOp → Bool → Prop
  | and : Stops .and false
  | or : Stops .or true

theorem binary_truth {op : BinaryOp} {stop : Bool} (h : Stops op stop) (n : Nat)
    (left right : Expr) :
    (binary (within n) op left right >>= fun v => pure v.isTruthy : Eval σ Bool) =
      truth n left >>= goOn stop (truth n right) := by
  rw [binary, truth, bind_assoc, bind_assoc]
  refine bind_congr fun v => ?_
  rw [pure_bind]
  cases h <;> cases truthy : v.isTruthy <;> simp [goOn, truth, truthy]

theorem goOn_bind (stop : Bool) (x y : Eval σ Bool) (t : Bool) :
    goOn stop x t >>= goOn stop y = goOn stop (x >>= goOn stop y) t := by
  by_cases stops : t = stop
  · simp [goOn, stops]
  · simp [goOn, stops]

theorem undecided_cons (n : Nat) (stop : Bool) (e : Expr) (es : List Expr) :
    (undecided (within n .handled) stop (e :: es) : Eval σ Bool) =
      truth n e >>= goOn stop (undecided (within n .handled) stop es) := by
  rw [undecided, truth, bind_assoc]
  rfl

theorem truth_grows (e : Expr) : Grows env fun n => truth n e :=
  (within_grows .handled e).bind fun _ => .steady

theorem Grows.goOn {x : Nat → Eval σ Bool} (hx : Grows env x) (stop t : Bool) :
    Grows env fun n => goOn stop (x n) t := by
  unfold Eval.goOn
  cases t == stop with
  | false => exact hx
  | true => exact .steady

theorem undecided_grows (stop : Bool) (es : List Expr) :
    Grows env fun n => undecided (within n .handled) stop es := by
  induction es with
  | nil => exact .steady
  | cons e es ih => exact (within_grows .handled e).bind fun v => ih.goOn stop v.isTruthy

theorem same_binary (keeps : env.options.KeepsLogic) {op : BinaryOp} {stop : Bool}
    (h : Stops op stop) (left right : Expr) :
    Same env (fun n => truth n (.binary op left right))
      fun n => truth n left >>= goOn stop (truth n right) := by
  have free : env.options.nodeHandler? (Expr.binary op left right).kind = none :=
    keeps.nodes _ (by cases h <;> simp [Expr.kind, Kind.ofBinary])
  have ruled : Same env (fun n => truth n (.binary op left right))
      fun n => binary (within n) op left right >>= fun v => pure v.isTruthy :=
    .bind (same_rule free) fun v => .refl .steady
  exact ruled.trans (.of_eq ruled.right fun n => congrFun (binary_truth h n left right) env)

/-- The induction is on the operands that are joined last, so it is for any first operand. -/
theorem same_foldl (keeps : env.options.KeepsLogic) {op : BinaryOp} {stop : Bool}
    (h : Stops op stop) (e : Expr) (es : List Expr) :
    Same env (fun n => truth n (es.foldl (.binary op) e))
      fun n => undecided (within n .handled) stop (e :: es) := by
  induction es generalizing e with
  | nil =>
    refine .of_eq (truth_grows e) fun n => congrFun (bind_congr fun v => ?_) env
    cases stop <;> cases v.isTruthy <;> rfl
  | cons a es ih =>
    have first : Same env (fun n => undecided (within n .handled) stop (.binary op e a :: es))
        fun n => truth n e >>= goOn stop (truth n a) >>=
          goOn stop (undecided (within n .handled) stop es) := by
      simp only [undecided_cons]
      exact .bind (same_binary keeps h e a) fun t => .refl ((undecided_grows stop es).goOn stop t)
    refine (ih (.binary op e a)).trans (first.trans (.of_eq first.right fun n => congrFun ?_ env))
    rw [undecided_cons, undecided_cons, bind_assoc]
    exact bind_congr fun t => goOn_bind stop _ _ t

theorem same_joined (keeps : env.options.KeepsLogic) {op : BinaryOp} {stop : Bool}
    (h : Stops op stop) (es : List Expr) :
    Same env (fun n => undecided (within n .handled) stop es)
      fun n => truth n (joined op (!stop) es) := by
  cases es with
  | nil =>
    have unit : Same env (fun n => truth n (.literal (.boolean !stop))) fun _ =>
        pure (Value.ofLiteral (.boolean !stop)) >>= fun v => pure v.isTruthy :=
      .bind (same_literal keeps (.boolean !stop)) fun v => .refl .steady
    exact unit.symm
  | cons e es => exact (same_foldl keeps h e es).symm

theorem same_stopping (keeps : env.options.KeepsLogic) {name : String} {f : LazyFunction}
    {op : BinaryOp} {stop : Bool} (named : LazyFunction.ofName? name = some f)
    (listed : name ∈ ["IF", "IFS", "AND", "OR"]) (h : Stops op stop) (args : List Expr)
    (called : ∀ eval : Expr → Eval σ Value, callLazy eval f args = do
      return .boolean (← undecided eval stop args)) :
    Same env (fun n => within n .handled (.call name args)) (fun n => do
      return .boolean (← within n .handled (joined op (!stop) args)).isTruthy) := by
  have lazy := same_lazy keeps named listed args
  simp only [called] at lazy
  have decided : Same env (fun n => undecided (within n .handled) stop args >>= fun b =>
      pure (Value.boolean b)) fun n => truth n (joined op (!stop) args) >>= fun b =>
        pure (Value.boolean b) := .bind (same_joined keeps h args) fun b => .refl .steady
  refine lazy.trans (decided.trans (.of_eq decided.right fun n => congrFun ?_ env))
  rw [truth, bind_assoc]
  exact bind_congr fun v => pure_bind _ _

theorem same_conjunction (keeps : env.options.KeepsLogic) (args : List Expr) :
    Same env (fun n => within n .handled (.call "AND" args)) (fun n => do
      return .boolean (← within n .handled (conjunction args)).isTruthy) :=
  same_stopping keeps rfl (by simp) .and args fun eval => by rw [callLazy, allHold_eq]

theorem same_disjunction (keeps : env.options.KeepsLogic) (args : List Expr) :
    Same env (fun n => within n .handled (.call "OR" args)) (fun n => do
      return .boolean (← within n .handled (disjunction args)).isTruthy) :=
  same_stopping keeps rfl (by simp) .or args fun eval => by rw [callLazy, anyHolds_eq]

end Logic

section Visits

/-- These expressions are evaluated one after another, each once, up to the first that fails. -/
inductive Visits (env : Environment σ) : List Expr → Machine σ → Machine σ → Prop
  | nil (m : Machine σ) : Visits env [] m m
  | cons {e : Expr} {es : List Expr} {v : Value} {m m₁ m₂ : Machine σ}
      (first : Ends env (fun n => within n .handled e) m (.ok v, m₁))
      (rest : Visits env es m₁ m₂) : Visits env (e :: es) m m₂
  | fails {e : Expr} {error : EvalError} {m m₁ : Machine σ}
      (first : Ends env (fun n => within n .handled e) m (.error error, m₁)) :
      Visits env [e] m m₁

/-- An ended computation has evaluated some of these expressions in their order, each at most
once, and done nothing else. -/
def VisitsSome {α : Type} (env : Environment σ) (x : Nat → Eval σ α) (es : List Expr) : Prop :=
  ∀ m o, Ends env x m o → ∃ taken, taken.Sublist es ∧ Visits env taken m o.2

namespace VisitsSome

variable {α : Type} {x y : Nat → Eval σ α} {e : Expr} {es : List Expr}

theorem pure (a : α) (es : List Expr) : VisitsSome env (fun _ => pure a) es := by
  intro m o ends
  obtain rfl := (ends_pure a m o).1 ends
  exact ⟨[], List.nil_sublist es, .nil m⟩

theorem one (he : e ∈ es) : VisitsSome env (fun n => within n .handled e) es := by
  rintro m ⟨r, m'⟩ ends
  refine ⟨[e], List.singleton_sublist.2 he, ?_⟩
  cases r with
  | error error => exact .fails ends
  | ok v => exact .cons ends (.nil m')

/-- The first expression is evaluated before a computation that goes on with others. -/
theorem first {f : Nat → Value → Eval σ α} (grows : ∀ v, Grows env fun n => f n v)
    (next : ∀ v, VisitsSome env (fun n => f n v) es) :
    VisitsSome env (fun n => within n .handled e >>= f n) (e :: es) := by
  intro m o ends
  obtain ⟨error, ends, _⟩ | ⟨v, m₁, ends, rest⟩ :=
    (ends_bind (within_grows .handled e) grows m o).1 ends
  · exact ⟨[e], List.singleton_sublist.2 List.mem_cons_self, .fails ends⟩
  · obtain ⟨taken, inside, visits⟩ := next v m₁ o rest
    exact ⟨e :: taken, inside.cons_cons e, .cons ends visits⟩

theorem branch (b : Bool) (yes : VisitsSome env x es) (no : VisitsSome env y es) :
    VisitsSome env (fun n => if b then x n else y n) es := by
  cases b with
  | false => exact no
  | true => exact yes

theorem of_same (same : Same env x y) (h : VisitsSome env y es) : VisitsSome env x es :=
  fun m o ends => h m o ((same.ends m o).1 ends)

theorem map {β : Type} (grows : Grows env x) (f : α → β) (h : VisitsSome env x es) :
    VisitsSome env (fun n => do return f (← x n)) es := by
  intro m o ends
  obtain ⟨r, ends, _⟩ := (ends_map grows f m o).1 ends
  exact h m (r, o.2) ends

theorem weaken (e : Expr) (h : VisitsSome env x es) : VisitsSome env x (e :: es) := by
  intro m o ends
  obtain ⟨taken, inside, visits⟩ := h m o ends
  exact ⟨taken, inside.cons e, visits⟩

theorem forced (es : List Expr) (k : Nat) :
    VisitsSome env (fun n => force (within n .handled) es[k]?) es := by
  cases found : es[k]? with
  | none => exact pure Value.undefined es
  | some e => exact one (List.mem_of_getElem? found)

end VisitsSome

theorem forced_grows (e : Option Expr) : Grows env fun n => force (within n .handled) e := by
  cases e with
  | none => exact .steady
  | some e => exact within_grows .handled e

theorem Grows.branch {α : Type} {x y : Nat → Eval σ α} (b : Bool) (yes : Grows env x)
    (no : Grows env y) : Grows env fun n => if b then x n else y n := by
  cases b with
  | false => exact no
  | true => exact yes

theorem firstCase_grows : (args : List Expr) →
    Grows env fun n => firstCase (within n .handled) args
  | [] => .steady
  | [d] => within_grows .handled d
  | c :: v :: rest => (within_grows .handled c).bind fun w =>
      .branch w.isTruthy (within_grows .handled v) (firstCase_grows rest)

theorem choose_visits (args : List Expr) :
    VisitsSome env (fun n => callLazy (within n .handled) .choose args) args := by
  cases args with
  | nil => exact .pure Value.undefined []
  | cons c rest =>
    exact .first (fun v => .branch v.isTruthy (forced_grows rest[0]?) (forced_grows rest[1]?))
      fun v => .branch v.isTruthy (.forced rest 0) (.forced rest 1)

theorem firstCase_visits : (args : List Expr) →
    VisitsSome env (fun n => firstCase (within n .handled) args) args
  | [] => .pure Value.undefined []
  | [d] => .one (by simp)
  | c :: v :: rest =>
    .first (fun w => .branch w.isTruthy (within_grows .handled v) (firstCase_grows rest))
      fun w => .branch w.isTruthy (.one (by simp)) (.weaken v (firstCase_visits rest))

theorem undecided_visits (stop : Bool) (args : List Expr) :
    VisitsSome env (fun n => undecided (within n .handled) stop args) args := by
  induction args with
  | nil => exact .pure (!stop) []
  | cons e es ih =>
    refine .first (fun v => (undecided_grows stop es).goOn stop v.isTruthy) fun v => ?_
    unfold goOn
    exact .branch (v.isTruthy == stop) (.pure stop es) ih

theorem lazy_visits (keeps : env.options.KeepsLogic) {name : String}
    (listed : name ∈ ["IF", "IFS", "AND", "OR"]) (args : List Expr) :
    VisitsSome env (fun n => within n .handled (.call name args)) args := by
  have decided (stop : Bool) : VisitsSome env (fun n => do
      return Value.boolean (← undecided (within n .handled) stop args)) args :=
    .map (undecided_grows stop args) _ (undecided_visits stop args)
  have lazy {f : LazyFunction} (named : LazyFunction.ofName? name = some f)
      (visits : VisitsSome env (fun n => callLazy (within n .handled) f args) args) :
      VisitsSome env (fun n => within n .handled (.call name args)) args :=
    visits.of_same (same_lazy keeps named listed args)
  simp only [List.mem_cons, List.not_mem_nil, or_false] at listed
  rcases listed with rfl | rfl | rfl | rfl
  · exact lazy rfl (choose_visits args)
  · exact lazy rfl (firstCase_visits args)
  · refine lazy rfl ?_
    simp only [callLazy, allHold_eq]
    exact decided false
  · refine lazy rfl ?_
    simp only [callLazy, anyHolds_eq]
    exact decided true

end Visits

/-- `IF` is the conditional operator, `IFS` a nest of them, `AND` and `OR` are the truth of what the
logical operators give: the outcomes are the same, the state of the user's extensions included. The
arguments that a call evaluates it evaluates in their order, each once. -/
theorem lazy_functions_are_operators (keeps : env.options.KeepsLogic) (args : List Expr)
    (m : Machine σ) :
    (∀ o, Ends env (fun n => evaluate n (.call "IF" args)) m o ↔
      Ends env (fun n => evaluate n (choice args)) m o) ∧
    (∀ o, Ends env (fun n => evaluate n (.call "IFS" args)) m o ↔
      Ends env (fun n => evaluate n (cases args)) m o) ∧
    (∀ o, Ends env (fun n => evaluate n (.call "AND" args)) m o ↔
      ∃ r, Ends env (fun n => evaluate n (conjunction args)) m (r, o.2) ∧
        o.1 = r.map fun v => .boolean v.isTruthy) ∧
    (∀ o, Ends env (fun n => evaluate n (.call "OR" args)) m o ↔
      ∃ r, Ends env (fun n => evaluate n (disjunction args)) m (r, o.2) ∧
        o.1 = r.map fun v => .boolean v.isTruthy) ∧
    ∀ name ∈ ["IF", "IFS", "AND", "OR"], ∀ o,
      Ends env (fun n => evaluate n (.call name args)) m o →
        ∃ taken, taken.Sublist args ∧ Visits env taken m o.2 := by
  refine ⟨?choose, ?cases, ?all, ?any, ?visits⟩
  case choose => exact (same_choice keeps args).ends m
  case cases =>
    have lazy : Same env (fun n => within n .handled (.call "IFS" args))
        fun n => firstCase (within n .handled) args :=
      same_lazy keeps (f := .firstCase) rfl (by simp) args
    exact (lazy.trans (same_firstCase keeps args)).ends m
  case all =>
    exact fun o => ((same_conjunction keeps args).ends m o).trans
      (ends_map (within_grows .handled _) _ m o)
  case any =>
    exact fun o => ((same_disjunction keeps args).ends m o).trans
      (ends_map (within_grows .handled _) _ m o)
  case visits => exact fun name listed o => lazy_visits keeps listed args m o

/-- Options with a function of the user that counts its calls. -/
def ticking : Options Nat :=
  Options.usual.withHandler "fnTick"
    (.call fun _ => .read fun n => .write (n + 1) (.done (.text "tick")))

theorem ticking_keepsLogic : ticking.KeepsLogic := by
  constructor
  · intro k listed
    simp only [List.mem_cons, List.not_mem_nil, or_false] at listed
    rcases listed with rfl | rfl | rfl | rfl | rfl <;> rfl
  · intro name listed
    simp only [List.mem_cons, List.not_mem_nil, or_false] at listed
    rcases listed with rfl | rfl | rfl | rfl <;> rfl

def tick : Expr := .call "Tick" []

theorem lazy_functions_are_operators_ticking :
    ticking.KeepsLogic ∧ ∀ clock,
      let env : Environment Nat := ⟨ticking, clock, .object []⟩
      let m := Machine.start clock 0
      Ends env (fun n => evaluate n (choice [tick, .text "yes", tick])) m
        (.ok (.text "yes"), { m with user := 1 }) ∧
      Ends env (fun n => evaluate n (cases [.literal .null, tick, tick, .text "yes", tick])) m
        (.ok (.text "yes"), { m with user := 1 }) ∧
      ∃ taken, taken.Sublist [.literal .null, tick, tick] ∧
        Visits env taken m { m with user := 1 } := by
  refine ⟨ticking_keepsLogic, fun clock => ?_⟩
  intro env m
  have keeps : env.options.KeepsLogic := ticking_keepsLogic
  have first := lazy_functions_are_operators keeps [tick, .text "yes", tick] m
  have second :=
    lazy_functions_are_operators keeps [.literal .null, tick, tick, .text "yes", tick] m
  have third := lazy_functions_are_operators keeps [.literal .null, tick, tick] m
  refine ⟨(first.1 _).1 ⟨4, rfl⟩, (second.2.1 _).1 ⟨4, rfl⟩, ?_⟩
  exact third.2.2.2.2 "OR" (by simp) (.ok (.boolean true), { m with user := 1 }) ⟨4, rfl⟩

end Eval

end TemplateFormula
