import TemplateFormula.Proofs.Evaluation.Noninterference
import TemplateFormula.Proofs.Evaluation.Scopes

/-!
# Isolation of namespaces

In a namespace every name that no function binds is answered by the resolver. So the data and the
scopes around a namespace have no part in what is evaluated in it, if that calls built-in functions
of their arguments only, and if the functions that resolvers answer do. Functions that are made on
the way are numbered from where the machine stands.
-/

namespace TemplateFormula

namespace Value

/-- All functions in the value are of one kind: it stays the same, whatever is put in the places of
others. -/
def OnlyFunctions (P : Closure → Prop) (v : Value) : Prop :=
  ∀ κ : Closure → Closure, (∀ f, P f → κ f = f) → v.relabel κ = v

theorem FunctionFree.only {v : Value} (free : v.FunctionFree) (P : Closure → Prop) :
    v.OnlyFunctions P := fun κ _ => free κ

theorem relabel_relabel (κ κ' : Closure → Closure) (v : Value) :
    (v.relabel κ).relabel κ' = v.relabel (κ' ∘ κ) := by
  induction v using nested with
  | array items ih =>
    simp only [relabel_array, List.map_map]
    exact congrArg array (List.map_congr_left ih)
  | object ms ih =>
    simp only [relabel_object, Members.relabel, List.map_map]
    exact congrArg object (List.map_congr_left fun m hm => congrArg (Prod.mk m.1) (ih m hm))
  | _ => rfl

open scoped Classical in
theorem OnlyFunctions.like {P : Closure → Prop} {v : Value} (only : v.OnlyFunctions P)
    {R : Closure → Closure → Prop} (pairs : Closure.Pairs R) (related : ∀ f, P f → R f f) :
    Like R v v := by
  let paired (f : Closure) : Closure := if P f then Closure.both f f else f
  have sides {f : Closure} (own : P f) : Closure.sides R (paired f) = (f, f) := by
    rw [show paired f = Closure.both f f from if_pos own]
    exact pairs.sides_both (related f own)
  refine (like_iff_seen pairs).2 ⟨v.relabel paired, ?_, ?_⟩
  · rw [relabel_relabel, only]
    exact fun f own => congrArg Prod.fst (sides own)
  · rw [relabel_relabel, only]
    exact fun f own => congrArg Prod.snd (sides own)

end Value

open Eval (isFunctionName)

/-- A node that sees nothing but what names stand for: it is no filter, and no call of anything but
a built-in function of its arguments. -/
def Expr.Secluded : Expr → Prop
  | .filter _ _ => False
  | .call name _ => isFunctionName name = true ∧ name ≠ "NOW" ∧ name ≠ "TODAY" ∧ name ≠ "RAND"
  | _ => True

/-- A function in which there are such nodes only. -/
def Closure.Secluded (f : Closure) : Prop := ∀ node, f.body.Contains node → node.Secluded

namespace Isolation

variable {σ : Type} (o : Options σ) (clock clock' : Calendar.Clock) (data data' : Value)

/-- Data that need not have anything in common. -/
def setting : Setting σ :=
  { Noninterference.setting o clock clock' data data' with ambient := Eq }

/-- An expression that sees nothing but what names stand for, beside itself. -/
structure Secluded (N : Names) (e e' : Expr) : Prop where
  names : N = Eq
  same : e' = e
  nodes : ∀ node, e.Contains node → node.Secluded

variable {o clock clock' data data'}

theorem Secluded.part {N : Names} {e e' : Expr} (h : Secluded N e e') {part : Expr}
    (member : part ∈ e.parts) : Secluded N part part where
  names := h.names
  same := rfl
  nodes node inside := h.nodes node (.inside member inside)

theorem Secluded.step {N : Names} {e e' : Expr} (h : Secluded N e e') :
    Expr.Step (setting o clock clock' data data') Secluded N e e' := by
  have own := h.nodes e (.here e)
  obtain rfl := h.same
  obtain rfl := h.names
  have layer (spoken : e'.Spoken (setting o clock clock' data data').vocabulary) :
      Expr.Step (setting o clock clock' data data') Secluded Eq e' e' :=
    .layer (.refl spoken fun _ => h.part)
  cases e' with
  | island body => exact .island (h.part List.mem_cons_self) (.inl rfl)
  | «variable» n => exact .variable rfl
  | inNamespace name body =>
    exact .inNamespace (fun r _ _ _ same => congrArg r same) (h.part List.mem_cons_self)
  | function params body =>
    exact .function ⟨Eq, h.part List.mem_cons_self,
      fun same => .of_eq same params, fun same => .of_eq same params, .inr⟩
  | filter input calls => exact own.elim
  | call name es => exact layer own
  | _ => exact layer trivial

theorem eq_of_corresponds {f g : Closure} (h : f.Corresponds Secluded g) : f = g := by
  obtain ⟨same_id, N, related⟩ := h
  obtain ⟨i, ps, b⟩ := f
  obtain ⟨j, qs, d⟩ := g
  have same := related.same
  cases same
  cases same_id
  rfl

theorem corresponds_self {f : Closure} (secluded : f.Secluded) : f.Corresponds Secluded f where
  id_eq := rfl
  related := by
    refine ⟨Eq, rfl, rfl, Expr.forall_contains trivial fun part member => ?_⟩
    rw [List.mem_singleton.1 member]
    exact secluded

theorem blank_secluded (i : Nat) : (Closure.blank i).Secluded :=
  Expr.forall_contains_leaf trivial rfl

theorem pairs : Closure.Pairs (Closure.Corresponds Secluded) where
  id_eq h := h.id_eq
  blank i := corresponds_self (blank_secluded i)

theorem uniform (handlers : o.handlers = [])
    (islands : ∀ name, o.islandFilter? = some name →
      o.findFilter? name = some Filter.raw ∨ o.findFilter? name = some Filter.html)
    (answers : ∀ entry ∈ o.namespaces, ∀ n, (entry.2 n).OnlyFunctions Closure.Secluded)
    (zone : clock'.zone = clock.zone) :
    (setting o clock clock' data data').Uniform Secluded where
  handlers := handlers
  zone := zone
  closed := Secluded.step
  blank := (corresponds_self (blank_secluded 0)).related
  answers entry member n := (answers entry member n).like pairs fun _ => corresponds_self
  answers_eq entry member n n' same := congrArg entry.2 same
  random drawn := absurd rfl drawn.2.2.2
  timeless known found args :=
    congrFun (Builtin.timeless_of_find? found known.2.2.1 known.2.1 zone) args
  fallback known := .inl known.1
  islands found := found
  filters known found := by
    obtain raw | html := islands _ known
    · exact .inl (Option.some.inj (found.symm.trans raw))
    · exact .inr (.inl (Option.some.inj (found.symm.trans html)))

end Isolation

namespace Eval

variable {σ : Type}

/-- A result of evaluation from a state of the machine on. -/
def ResultsAt (env : Environment σ) (m : Machine σ) (e : Expr) (r : Except EvalError Value) :
    Prop :=
  ∃ m₁, Ends env (fun n => evaluate n e) m (r, m₁)

/-- Numbers from a place on are given out so much later. -/
def renumber (first k i : Nat) : Nat := if i < first then i else i + k

theorem renumber_injective (first k : Nat) : Function.Injective (renumber first k) := by
  intro i j same
  simp only [renumber] at same
  split at same <;> split at same <;> omega

section Machines

variable {env : Environment σ} {m m' : Machine σ} {e : Expr} {v : Except EvalError Value}

/-- A lookup in a namespace is an evaluation in the scope of its resolver. -/
theorem resultsAt_inNamespace (handlers : env.options.handlers = []) {name : String} {r : Resolver}
    (found : env.options.namespaces.lookup name = some r) {body : Expr} :
    ResultsAt env m (.inNamespace name body) v ↔
      ResultsAt env { m with scopes := .inNamespace r :: m.scopes } body v := by
  have built : env.options.nodeHandler? (Expr.inNamespace name body).kind = none := by
    rw [Options.nodeHandler?, handlers]
    rfl
  have entered (n : Nat) : evaluate (n + 1) (.inNamespace name body) env m =
      inScope (.inNamespace r) (evaluate n body) env m := by
    refine (within_builtin built m).trans ?_
    simp only [rule, inNamespace, bind_def, ask, found]
    rfl
  constructor
  · rintro ⟨m₁, n, ended⟩
    cases n with
    | zero => exact absurd (congrArg Prod.fst ended).symm (ended_mapError v)
    | succ n =>
      dsimp only at ended
      rw [entered, inScope] at ended
      rcases ran : evaluate n body env { m with scopes := .inNamespace r :: m.scopes } with ⟨a, m₂⟩
      rw [ran] at ended
      have value : a = v.mapError Halt.fault := congrArg Prod.fst ended
      exact ⟨m₂, n, ran.trans (Prod.ext value rfl)⟩
  · rintro ⟨m₁, n, ended⟩
    refine ⟨{ m₁ with scopes := m₁.scopes.tail }, n + 1, ?_⟩
    dsimp only at ended ⊢
    rw [entered, inScope, ended]

/-- Functions numbered anew are the only difference between results where nothing else differs. -/
theorem resultsAt_renamed {ρ : Nat → Nat} (distinct : Function.Injective ρ)
    (respects : env.Respects ρ) (renamed : m.Renamed ρ m') :
    ResultsAt env m' e v ↔ ∃ u, v = u.map (Value.rename ρ) ∧ ResultsAt env m e u := by
  have aligned (n : Nat) := (within_aligned distinct respects n .handled e m m' renamed).outcome
  constructor
  · rintro ⟨m₁, n, ended⟩
    have same := aligned n
    have ended : within n .handled e env m' = _ := ended
    rw [ended] at same
    rcases ran : within n .handled e env m with ⟨(e | _) | u, m₂⟩
    · refine ⟨.error e, ?_, m₂, n, ran⟩
      rw [ran] at same
      cases v <;> cases same
      rfl
    · rw [ran] at same
      cases v <;> cases same
    · refine ⟨.ok u, ?_, m₂, n, ran⟩
      rw [ran] at same
      cases v <;> cases same
      rfl
  · rintro ⟨u, rfl, m₁, n, ended⟩
    have same := aligned n
    have ended : within n .handled e env m = _ := ended
    rw [ended] at same
    refine ⟨(within n .handled e env m').2, n, Prod.ext (same.trans ?_) rfl⟩
    cases u <;> rfl

end Machines

section Isolated

variable {o : Options σ} (handlers : o.handlers = [])
  (islands : ∀ name, o.islandFilter? = some name →
    o.findFilter? name = some Filter.raw ∨ o.findFilter? name = some Filter.html)
  (answers : ∀ entry ∈ o.namespaces, ∀ n, (entry.2 n).OnlyFunctions Closure.Secluded)
  {clock clock' : Calendar.Clock} (zone : clock'.zone = clock.zone)
  {name : String} {r : Resolver} (found : o.namespaces.lookup name = some r)
  {body : Expr} (secluded : ∀ node, body.Contains node → node.Secluded)
include handlers islands answers zone found secluded

/-- The data and the scopes around the one of a resolver have no part in what is evaluated there. -/
theorem resultsAt_inside (data data' : Value) {m m' : Machine σ}
    (inside : m.scopes.head? = some (.inNamespace r))
    (inside' : m'.scopes.head? = some (.inNamespace r))
    (functions : m'.functions = m.functions) {v : Except EvalError Value}
    (result : ResultsAt ⟨o, clock, data⟩ m body v) : ResultsAt ⟨o, clock', data'⟩ m' body v := by
  obtain ⟨s, scopes⟩ := List.head?_eq_some_iff.1 inside
  obtain ⟨s', scopes'⟩ := List.head?_eq_some_iff.1 inside'
  let S := Isolation.setting o clock clock' data data'
  have uniform : S.Uniform Isolation.Secluded :=
    Isolation.uniform handlers islands answers zone
  have agrees : Agrees S Isolation.Secluded Eq (.inNamespace r :: s) (.inNamespace r :: s') :=
    .inNamespace uniform found fun _ _ same => congrArg r same
  have beside : Beside S (.inNamespace r :: s) (.inNamespace r :: s') m m' :=
    ⟨scopes, scopes', functions, fun drawn => absurd rfl drawn.2.2.2⟩
  obtain ⟨m₁, n, ended⟩ := result
  have ended : within n .handled body S.environment m = _ := ended
  have halted : (within n .handled body S.environment m).1 ≠ .error .exhausted := by
    rw [ended]
    exact ended_mapError v
  obtain ⟨q, tally, _, k, same⟩ :=
    leads_within uniform n ⟨rfl, rfl, secluded⟩ agrees agrees 0 m m' beside halted
  obtain ⟨v', finished, like⟩ := like_of_tally uniform tally (congrArg Prod.fst ended)
  obtain rfl : v = v' := (like.mono uniform.pairs fun f g => Isolation.eq_of_corresponds).eq
  exact ⟨q.2, k, (same k (Nat.le_refl k)).trans (Prod.ext finished rfl)⟩

theorem resultsAt_inside_iff {data data' : Value} {m m' : Machine σ}
    (inside : m.scopes.head? = some (.inNamespace r))
    (inside' : m'.scopes.head? = some (.inNamespace r))
    (functions : m'.functions = m.functions) {v : Except EvalError Value} :
    ResultsAt ⟨o, clock, data⟩ m body v ↔ ResultsAt ⟨o, clock', data'⟩ m' body v := by
  constructor
  · exact resultsAt_inside handlers islands answers zone found secluded data data' inside inside'
      functions
  · exact resultsAt_inside handlers islands answers zone.symm found secluded data' data inside'
      inside functions.symm

/-- A lookup in a namespace has the same results whatever the data and the scopes around it, up to
the numbers of the functions that it makes. They are those of its body in the scope of the resolver
alone. -/
theorem inNamespace_isolated (data data' : Value) {m m' : Machine σ} {k : Nat}
    (made : m'.functions = m.functions + k) (respects : o.Respects (renumber m.functions k))
    (v : Except EvalError Value) :
    (ResultsAt ⟨o, clock', data'⟩ m' (.inNamespace name body) v ↔
      ∃ u, v = u.map (Value.rename (renumber m.functions k)) ∧
        ResultsAt ⟨o, clock, data⟩ m (.inNamespace name body) u) ∧
    (ResultsAt ⟨o, clock, data⟩ m (.inNamespace name body) v ↔
      ResultsAt ⟨o, clock', data'⟩ ⟨[.inNamespace r], m.functions, m'.random, m'.user⟩ body v) := by
  have entered {clock : Calendar.Clock} {data : Value} {m : Machine σ} {v} :
      ResultsAt ⟨o, clock, data⟩ m (.inNamespace name body) v ↔
        ResultsAt ⟨o, clock, data⟩ { m with scopes := .inNamespace r :: m.scopes } body v :=
    resultsAt_inNamespace handlers found
  -- The resolver alone, with functions numbered from a place on.
  let alone (i : Nat) : Machine σ := ⟨[.inNamespace r], i, m'.random, m'.user⟩
  have own {v} : ResultsAt ⟨o, clock, data⟩ m (.inNamespace name body) v ↔
      ResultsAt ⟨o, clock', .undefined⟩ (alone m.functions) body v := by
    rw [entered]
    refine resultsAt_inside_iff handlers islands answers zone found secluded ?_ ?_ ?_ <;> rfl
  have other {data : Value} {m : Machine σ} (inside : m.scopes.head? = some (.inNamespace r)) {v} :
      ResultsAt ⟨o, clock', data⟩ m body v ↔
        ResultsAt ⟨o, clock', .undefined⟩ (alone m.functions) body v := by
    refine resultsAt_inside_iff handlers islands answers ?_ found secluded inside ?_ ?_ <;> rfl
  have renamed : (alone m.functions).Renamed (renumber m.functions k) (alone m'.functions) := by
    refine ⟨?_, fun i => ?_, rfl, rfl⟩
    · exact congrArg (fun r => [Scope.inNamespace r]) (respects.namespace found).symm
    · change m'.functions + i = renumber m.functions k (m.functions + i)
      rw [renumber, if_neg (Nat.not_lt.2 (Nat.le_add_right _ i)), made, Nat.add_right_comm]
  constructor
  · rw [entered, other rfl,
      resultsAt_renamed (renumber_injective m.functions k) ⟨respects, rfl⟩ renamed]
    exact exists_congr fun u => and_congr_right fun _ => own.symm
  · exact own.trans (Iff.symm (other rfl))

end Isolated

/-- Options whose one namespace answers each name with a text of its own. -/
def stored : Options Unit := Options.usual.withNamespace "ls" fun name => .text ("stored " ++ name)

theorem stored_answers (entry : String × Resolver) (member : entry ∈ stored.namespaces)
    (name : String) : (entry.2 name).FunctionFree := by
  rw [List.mem_singleton.1 member]
  exact fun κ => rfl

/-- A function, and the items of a list under one. -/
def collected : Expr :=
  .array [.function ["x"] (.variable "a"),
    .call mapName [.array [.variable "a"], .function ["x"] (.array [.variable "x", .variable "b"])]]

theorem collected_secluded (node : Expr) (inside : collected.Contains node) : node.Secluded := by
  have leaf (name : String) (node : Expr) (inside : (Expr.variable name).Contains node) :
      node.Secluded := Expr.forall_contains_leaf trivial rfl node inside
  have listed {es : List Expr} (each : ∀ e ∈ es, ∀ node, e.Contains node → node.Secluded) :
      ∀ node, (Expr.array es).Contains node → node.Secluded := Expr.forall_contains trivial each
  have made {params : List String} {e : Expr} (each : ∀ node, e.Contains node → node.Secluded) :
      ∀ node, (Expr.function params e).Contains node → node.Secluded := by
    refine Expr.forall_contains trivial fun part member => ?_
    rw [List.mem_singleton.1 member]
    exact each
  revert node
  refine listed (List.forall_mem_cons.2 ⟨made (leaf "a"), List.forall_mem_singleton.2 ?_⟩)
  refine Expr.forall_contains (by simp [Expr.Secluded, isFunctionName, mapName]) ?_
  refine List.forall_mem_cons.2 ⟨listed (by simpa using leaf "a"), List.forall_mem_singleton.2 ?_⟩
  exact made (listed (by simpa using ⟨leaf "x", leaf "b"⟩))

theorem inNamespace_isolated_collected :
    (∀ node, collected.Contains node → node.Secluded) ∧
    ∀ (clock : Calendar.Clock) (random : UInt64),
      ResultsAt ⟨stored, clock, .object [("a", .text "one")]⟩
        ⟨[.locals [("b", .text "two")], .root], 3, random, ()⟩ (.inNamespace "ls" collected)
        (.ok (.array [.function ⟨3, ["x"], .variable "a"⟩,
          .array [.array [.text "stored a", .text "stored b"]]])) := by
  refine ⟨collected_secluded, fun clock random => ?_⟩
  have first : ResultsAt ⟨stored, clock, .null⟩ ⟨[.root], 0, 1, ()⟩ (.inNamespace "ls" collected)
      (.ok (.array [.function ⟨0, ["x"], .variable "a"⟩,
        .array [.array [.text "stored a", .text "stored b"]]])) := ⟨_, 9, rfl⟩
  have filter : stored.islandFilter? = some "html" := by decide +kernel
  refine ((inNamespace_isolated (m := ⟨[.root], 0, 1, ()⟩) (k := 3) (r := fun name => .text _)
    rfl ?islands (fun entry member n => (stored_answers entry member n).only _) rfl rfl
    collected_secluded .null _ rfl ?respects _).1).2 ⟨_, rfl, first⟩
  case islands =>
    intro name found
    rw [← Option.some.inj (filter.symm.trans found)]
    exact .inr rfl
  case respects =>
    refine ⟨nofun, nofun, fun entry member name => ?_⟩
    rw [Value.rename_eq]
    exact stored_answers entry member name _

end Eval

end TemplateFormula
