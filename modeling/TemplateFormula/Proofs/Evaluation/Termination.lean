import Mathlib.Data.Finset.Lattice.Fold
import TemplateFormula.Proofs.Evaluation.Limits
import TemplateFormula.Proofs.Evaluation.Nesting
import TemplateFormula.Proofs.Printing.RoundTrip

/-!
# Termination

Every rule evaluates smaller expressions, except that a function call evaluates the body of a
function value. So an evaluation ends if, and only if, the calls in it nest to a bounded depth.
-/

namespace TemplateFormula.Eval

variable {clock : Calendar.Clock} {data : Value} {filter : Option String}

section Limits

variable (clock data filter) in
def extending (limit : Nat) :
    Simulation PUnit Nat Nat id (.bare Nat clock data filter)
      (.bare Nat clock (data.rename id) filter) (fun _ => limit) fun _ => limit + 1 where
  distinct := Function.injective_id
  clock_eq := Environment.bare_clock Nat Nat clock data filter
  Holds r x y := ∀ m, Extends r (x ⟨⟩ (.bare Nat clock data filter) m)
    (y ⟨⟩ (.bare Nat clock (data.rename id) filter) m)
  congr h hx hy := by
    intro m
    rw [← hx, ← hy]
    exact h m
  pure r a := fun m _ => rfl
  bind hx hf := fun m => Extends.bind (hx m) hf
  fault r e := fun m _ => rfl
  lookUp name := by
    intro m _
    simp only [lookUp, Except.map, Value.rename_id]
  makeFunction params body := by
    intro m _
    simp [makeFunction, Except.map, Closure.rename]
  random := fun m _ => rfl
  bounded := by
    intro α β r x y k h m
    by_cases under : limit < k
    · simp only [if_pos under]
      exact fun ended => absurd rfl ended
    · simp only [if_neg under, if_neg (show ¬ limit + 1 < k by omega)]
      exact h m
  filtered := by
    intro name f found input args m ended
    have same := FilterProgram.runFilter_below Filter.builtin.find? ⟨clock, data⟩ limit f input
      args []
    simp only [filtered_apply] at ended ⊢
    rw [FilterProgram.outcome_renamed Function.injective_id clock data _ found, same ended]

theorem watched_extends (n : Nat) (e : Expr) (m : Machine Nat) :
    Extends (Value.rename id) (watched n .handled e (.bare Nat clock data filter) m)
      (watched (n + 1) .handled e (.bare Nat clock (data.rename id) filter) m) := by
  induction n generalizing e m with
  | zero => exact fun ended => absurd rfl ended
  | succ n ih =>
    have calls : (extending clock data filter n).CoversCalls (fun _ => watched n)
        fun _ => watched (n + 1) := by
      intro f args m ended
      simp only [Value.rename_id_items, callClosure_apply] at ended ⊢
      have same : watched (n + 1) .handled f.body (.bare Nat clock (data.rename id) filter)
          (m.enter f args) = _ := ih f.body (m.enter f args) ended
      rw [same]
    exact Simulation.rule calls e (fun e' _ => ih e')
      (noteDepth (.bare Nat clock data filter) m).2

theorem watched_mono {n k : Nat} (h : n ≤ k) (e : Expr) (m : Machine Nat)
    (ended : (watched n .handled e (.bare Nat clock data filter) m).1 ≠ .error .exhausted) :
    watched k .handled e (.bare Nat clock data filter) m =
      watched n .handled e (.bare Nat clock data filter) m := by
  induction k, h using Nat.le_induction with
  | base => rfl
  | succ k _ ih =>
    have same : watched (k + 1) .handled e (.bare Nat clock (data.rename id) filter) m = _ :=
      watched_extends k e m (by rw [ih]; exact ended)
    rw [Value.rename_id, ih] at same
    rw [same]
    rcases (watched n .handled e (.bare Nat clock data filter) m) with ⟨_ | v, _⟩
    · rfl
    · simp [Except.map, Value.rename_id]

end Limits

section Depths

/-- Computations that leave the scopes as they are and never lower the note. -/
def Keeps {α : Type} (env : Environment Nat) (x : Eval Nat α) : Prop :=
  ∀ m, m.user ≤ (x env m).2.user ∧ (x env m).2.scopes = m.scopes

/-- With limits high enough, either so many scopes are met or the outcome is the same. -/
def Decides {α : Type} (d : Nat) (env : Environment Nat) (x : Nat → Eval Nat α)
    (m : Machine Nat) : Prop :=
  ∃ k, (∀ n, k ≤ n → d ≤ (x n env m).2.user) ∨
    ∃ o, o.1 ≠ .error .exhausted ∧ ∀ n, k ≤ n → x n env m = o

structure Settles {α : Type} (d room : Nat) (env : Environment Nat) (x : Nat → Eval Nat α) :
    Prop where
  keeps : ∀ n, Keeps env (x n)
  decides : ∀ m, d ≤ m.depth + room → Decides d env x m

theorem Keeps.after {α β : Type} {env : Environment Nat} {x : Eval Nat α} {f : α → Eval Nat β}
    (next : ∀ a, Keeps env (f a)) (m : Machine Nat) :
    (x env m).2.user ≤ ((x >>= f) env m).2.user ∧
      ((x >>= f) env m).2.scopes = (x env m).2.scopes := by
  rw [bind_def]
  generalize x env m = p
  obtain ⟨e | a, m₁⟩ := p
  · exact ⟨Nat.le_refl _, rfl⟩
  · exact next a m₁

theorem Keeps.bind {α β : Type} {env : Environment Nat} {x : Eval Nat α} {f : α → Eval Nat β}
    (first : Keeps env x) (next : ∀ a, Keeps env (f a)) : Keeps env (x >>= f) := by
  intro m
  obtain ⟨grows, scopes⟩ := first m
  obtain ⟨grows', scopes'⟩ := Keeps.after (x := x) next m
  exact ⟨Nat.le_trans grows grows', scopes'.trans scopes⟩

variable {d room : Nat} {env : Environment Nat}

theorem Settles.steady {α : Type} {x : Eval Nat α} (keeps : Keeps env x)
    (ends : ∀ m, (x env m).1 ≠ .error .exhausted) : Settles d room env fun _ => x :=
  ⟨fun _ => keeps, fun m _ => ⟨0, .inr ⟨x env m, ends m, fun _ _ => rfl⟩⟩⟩

theorem Settles.bind {α β : Type} {x : Nat → Eval Nat α} {f : Nat → α → Eval Nat β}
    (first : Settles d room env x) (next : ∀ a, Settles d room env fun n => f n a) :
    Settles d room env fun n => x n >>= f n := by
  have keeps (n : Nat) (a : α) : Keeps env (f n a) := (next a).keeps n
  refine ⟨fun n => (first.keeps n).bind (keeps n), fun m below => ?_⟩
  obtain ⟨k, met | ⟨⟨e | a, m₁⟩, ends, same⟩⟩ := first.decides m below
  · exact ⟨k, .inl fun n hn => Nat.le_trans (met n hn) (Keeps.after (keeps n) m).1⟩
  · exact ⟨k, .inr ⟨(.error e, m₁), fun h => ends (by cases h; rfl),
      fun n hn => bind_of_error (same n hn)⟩⟩
  · have scopes := (first.keeps k m).2
    rw [same k (Nat.le_refl k)] at scopes
    have depth_eq : m₁.depth = m.depth := congrArg List.length scopes
    obtain ⟨l, rest⟩ := (next a).decides m₁ (by rw [depth_eq]; exact below)
    have continued (n : Nat) (hn : max k l ≤ n) : (x n >>= f n) env m = f n a env m₁ :=
      bind_of_ok (same n (by omega))
    obtain met | ⟨o, ends, same⟩ := rest
    · exact ⟨max k l, .inl fun n hn => by simpa only [continued n hn] using met n (by omega)⟩
    · exact ⟨max k l, .inr ⟨o, ends, fun n hn => (continued n hn).trans (same n (by omega))⟩⟩

theorem Decides.of_later {α : Type} {x y : Nat → Eval Nat α} {m : Machine Nat} (k : Nat)
    (later : ∀ n, k ≤ n → y n env m = x n env m) (h : Decides d env x m) : Decides d env y m := by
  obtain ⟨l, met | ⟨o, ends, same⟩⟩ := h
  · exact ⟨max k l, .inl fun n hn => by rw [later n (by omega)]; exact met n (by omega)⟩
  · exact ⟨max k l, .inr ⟨o, ends, fun n hn =>
      (later n (by omega)).trans (same n (by omega))⟩⟩

theorem Settles.bounded {α : Type} {x : Nat → Eval Nat α} (k : Nat)
    (h : Settles d room env x) :
    Settles d room env fun n => if n < k then exhausted else x n := by
  refine ⟨fun n => ?_, fun m below => (h.decides m below).of_later k fun n hn => ?_⟩
  · by_cases under : n < k
    · simp only [if_pos under]
      exact fun m => ⟨Nat.le_refl _, rfl⟩
    · simp only [if_neg under]
      exact h.keeps n
  · simp only [if_neg (Nat.not_lt.mpr hn)]

variable (clock data filter) in
def settling (d room : Nat) :
    Simulation Nat Nat Nat id (.bare Nat clock data filter)
      (.bare Nat clock (data.rename id) filter) (fun n => n) fun n => n where
  distinct := Function.injective_id
  clock_eq := Environment.bare_clock Nat Nat clock data filter
  Holds _ x _ := Settles d room (.bare Nat clock data filter) x
  congr h hx _ := by
    obtain ⟨keeps, decides⟩ := h
    constructor
    · intro n m
      rw [← hx]
      exact keeps n m
    · intro m below
      obtain ⟨k, rest⟩ := decides m below
      exact ⟨k, by simpa only [hx] using rest⟩
  pure _ a := .steady (fun m => ⟨Nat.le_refl _, rfl⟩) fun m => by simp
  bind hx hf := hx.bind hf
  fault _ e := .steady (fun m => ⟨Nat.le_refl _, rfl⟩) fun m => by simp [fault, halt]
  lookUp name := .steady (fun m => ⟨Nat.le_refl _, rfl⟩) fun m => by simp [lookUp]
  makeFunction params body :=
    .steady (fun m => ⟨Nat.le_refl _, rfl⟩) fun m => by simp [makeFunction]
  random := .steady (fun m => ⟨Nat.le_refl _, rfl⟩) fun m => by simp [random]
  bounded k h := h.bounded k
  filtered := by
    intro name f found input args
    obtain ⟨r, settled⟩ := FilterProgram.runFilter_settled ⟨clock, data⟩ found input args
    constructor
    · intro n m
      rw [filtered_apply]
      exact ⟨Nat.le_refl _, rfl⟩
    · intro m _
      refine ⟨args.length + 1, .inr ⟨(r.mapError .fault, m), ?_, fun n hn => ?_⟩⟩
      · exact ended_mapError r
      · simp only [filtered_apply, settled n hn []]

variable (clock data filter) in
theorem watched_keeps (n : Nat) (e : Expr) :
    Keeps (.bare Nat clock data filter) (watched n .handled e) := by
  intro m
  have mirrors := watched_mirrors clock data filter n e ⟨m.scopes, m.functions, m.random, ()⟩ m
    ⟨rfl, rfl, rfl⟩
  exact ⟨mirrors.grows, mirrors.scopes⟩

def Machine.noted (m : Machine Nat) : Machine Nat := { m with user := max m.user m.depth }

theorem watched_succ (n : Nat) (e : Expr) (m : Machine Nat) :
    watched (n + 1) .handled e env m = rule n (watched n) e env (Machine.noted m) := rfl

theorem noted_noted (m : Machine Nat) : Machine.noted (Machine.noted m) = Machine.noted m := by
  simp [Machine.noted, Machine.depth]

/-- Every node notes the scopes before anything else. -/
theorem depth_le_watched (n : Nat) (e : Expr) (m : Machine Nat) :
    m.depth ≤ (watched n .handled e (.bare Nat clock data filter) m).2.user := by
  cases n with
  | zero => exact Nat.le_max_right _ _
  | succ n =>
    have grows := (watched_keeps clock data filter (n + 1) e (Machine.noted m)).1
    rw [watched_succ, noted_noted, ← watched_succ] at grows
    exact Nat.le_trans (Nat.le_max_right _ _) grows

theorem callClosure_keeps (n : Nat) (f : Closure) (args : List Value) :
    Keeps (.bare Nat clock data filter) (callClosure (watched n) f args) := by
  intro m
  have body := watched_keeps clock data filter n f.body (m.enter f args)
  exact ⟨body.1, congrArg List.tail body.2⟩

theorem callClosure_decides {f : Closure} {args : List Value} {m : Machine Nat}
    (body : Decides d env (fun n => watched n .handled f.body) (m.enter f args)) :
    Decides d env (fun n => callClosure (watched n) f args) m := by
  obtain ⟨k, met | ⟨o, ends, same⟩⟩ := body
  · exact ⟨k, .inl met⟩
  · refine ⟨k, .inr ⟨(o.1, o.2.leave), ends, fun n hn => ?_⟩⟩
    have same : watched n .handled f.body env (m.enter f args) = o := same n hn
    simp only [callClosure_apply, same]

theorem watched_decides {e : Expr} {m : Machine Nat}
    (node : Decides d env (fun n => rule n (watched n) e) (Machine.noted m)) :
    Decides d env (fun n => watched n .handled e) m := by
  obtain ⟨k, met | ⟨o, ends, same⟩⟩ := node
  · refine ⟨k + 1, .inl fun n hn => ?_⟩
    obtain ⟨n, rfl⟩ := Nat.exists_eq_add_one_of_ne_zero (show n ≠ 0 by omega)
    exact met n (by omega)
  · refine ⟨k + 1, .inr ⟨o, ends, fun n hn => ?_⟩⟩
    obtain ⟨n, rfl⟩ := Nat.exists_eq_add_one_of_ne_zero (show n ≠ 0 by omega)
    exact same n (by omega)

/-- The induction is on the room for further calls, and for one depth on the expression: what a
call evaluates may be any expression, but has less room. -/
theorem watched_settles (d room : Nat) (e : Expr) :
    Settles d room (.bare Nat clock data filter) fun n => watched n .handled e := by
  induction room generalizing e with
  | zero =>
    exact ⟨fun n => watched_keeps clock data filter n e, fun m below => ⟨0, .inl fun n _ =>
      Nat.le_trans below (depth_le_watched n e m)⟩⟩
  | succ room deeper =>
    have calls : (settling clock data filter d (room + 1)).CoversCalls watched watched := by
      intro f args
      refine ⟨fun n => callClosure_keeps n f args, fun m below => ?_⟩
      have inside : d ≤ (m.enter f args).depth + room := by
        rw [show (m.enter f args).depth = m.depth + 1 from rfl]
        omega
      exact callClosure_decides ((deeper f.body).decides _ inside)
    have node (e : Expr) (parts : ∀ e', sizeOf e' < sizeOf e →
        Settles d (room + 1) (.bare Nat clock data filter) fun n => watched n .handled e') :
        Settles d (room + 1) (.bare Nat clock data filter) fun n => watched n .handled e := by
      have rule_settles := Simulation.rule calls e parts
      exact ⟨fun n => watched_keeps clock data filter n e, fun m below =>
        watched_decides (rule_settles.decides (Machine.noted m) below)⟩
    induction size : sizeOf e using Nat.strong_induction_on generalizing e with
    | _ n ih => exact node e fun e' smaller => ih (sizeOf e') (size ▸ smaller) e' rfl

end Depths

/-- The largest number of scopes that an evaluation meets within a limit. -/
def nesting (limit : Nat) (e : Expr) (clock : Calendar.Clock) (data : Value)
    (filter : Option String) : Nat :=
  (watched limit .handled e (.bare Nat clock data filter) (.start clock 0)).2.user

def Halts (e : Expr) (clock : Calendar.Clock) (data : Value) (filter : Option String) : Prop :=
  ∃ n, (evaluate n e (.plain clock data filter) (.start clock ())).1 ≠ .error .exhausted

theorem evaluate_watched (n : Nat) (e : Expr) :
    (watched n .handled e (.bare Nat clock data filter) (.start clock 0)).1 =
      (evaluate n e (.plain clock data filter) (.start clock ())).1 := by
  have mirrors := watched_mirrors clock data filter n e (.start clock ()) (.start clock 0)
    ⟨rfl, rfl, rfl⟩
  have outcome := mirrors.outcome
  rw [Except.map_id] at outcome
  exact outcome

theorem bounded_of_later {f : Nat → Nat} {n d : Nat} (later : ∀ k, n ≤ k → f k ≤ d) :
    ∃ d, ∀ k, f k ≤ d := by
  refine ⟨max d ((Finset.range n).sup f), fun k => ?_⟩
  by_cases h : n ≤ k
  · exact Nat.le_trans (later k h) (Nat.le_max_left _ _)
  · exact Nat.le_trans (Finset.le_sup (f := f) (Finset.mem_range.mpr (Nat.lt_of_not_le h)))
      (Nat.le_max_right _ _)

/-- An evaluation ends if, and only if, its calls nest to a bounded depth. -/
theorem halts_iff_nesting_bounded (e : Expr) (clock : Calendar.Clock) (data : Value)
    (filter : Option String) :
    Halts e clock data filter ↔ ∃ d, ∀ n, nesting n e clock data filter ≤ d := by
  constructor
  · rintro ⟨n, ended⟩
    rw [← evaluate_watched] at ended
    apply bounded_of_later (n := n) (d := nesting n e clock data filter)
    intro k hk
    rw [nesting, nesting, watched_mono hk e _ ended]
  · rintro ⟨d, bounded⟩
    have below : d + 1 ≤ (Machine.start clock 0).depth + (d + 1) := Nat.le_add_left _ _
    obtain ⟨k, met | ⟨o, ended, same⟩⟩ :=
      (watched_settles (d + 1) (d + 1) e).decides (.start clock 0) below
    · exact absurd (met k (Nat.le_refl k)) (Nat.not_le.mpr (Nat.lt_succ_of_le (bounded k)))
    · refine ⟨k, ?_⟩
      have same : watched k .handled e (.bare Nat clock data filter) (.start clock 0) = o :=
        same k (Nat.le_refl k)
      rw [← evaluate_watched, same]
      exact ended

section Endless

/-- A function that filters a list of itself by itself. -/
def selfBody : Expr := .call filterName [.array [.variable "x"], .variable "x"]

def selfFunction : Expr := .function ["x"] selfBody

def endless : Expr := .call "COUNT" [.call filterName [.array [selfFunction], selfFunction]]

theorem within_eager {σ : Type} {name : String} (strict : LazyFunction.ofName? name = none)
    {n : Nat} {f : List Value → Eval σ Value} (found : eager? (within n) name = some f)
    (args : List Expr) (m : Machine σ) :
    within (n + 1) .handled (.call name args) (.bare σ clock data filter) m =
      (do f (← all (within n .handled) args)) (.bare σ clock data filter) m := by
  have called : within (n + 1) .handled (.call name args) (.bare σ clock data filter) m =
      callBuiltin n (within n) name args (.bare σ clock data filter) m := by
    rw [within_succ]
    rfl
  rw [called]
  simp only [callBuiltin, strict, found]

theorem within_filterName {σ : Type} (n : Nat) (args : List Expr) (m : Machine σ) :
    within (n + 1) .handled (.call filterName args) (.bare σ clock data filter) m =
      (do overItems filterName (filterItems (within n)) (← all (within n .handled) args))
        (.bare σ clock data filter) m := by
  apply within_eager
  · decide +kernel
  · rw [eager?, if_neg (by decide), if_pos rfl]

theorem eager?_count {σ : Type} (eval : Entry → Expr → Eval σ Value) :
    ∃ f, eager? eval "COUNT" = some f := by
  have found : (Builtin.find? "COUNT").isSome = true := by decide +kernel
  obtain ⟨f, hf⟩ := Option.isSome_iff_exists.mp found
  rw [eager?, if_neg (by decide), if_neg (by decide), if_neg (by decide), hf]
  exact ⟨_, rfl⟩

theorem selfBody_exhausted (f : Closure) (params : f.params = ["x"]) (body : f.body = selfBody)
    (n : Nat) (m : Machine Unit) (bound : Scope.lookUp data "x" m.scopes = .function f) :
    (within n .handled selfBody (.bare Unit clock data filter) m).1 = .error .exhausted := by
  induction n generalizing m with
  | zero => rfl
  | succ n ih =>
    rw [selfBody, within_filterName]
    match n with
    | 0 => rfl
    | 1 => rfl
    | n + 2 =>
      have self_eq (k : Nat) : within (k + 1) .handled (.variable "x")
          (.bare Unit clock data filter) m = (.ok (.function f), m) := by
        rw [within_succ]
        exact Prod.ext (congrArg Except.ok bound) rfl
      have inner : all (within (n + 1) .handled) [.variable "x"] (.bare Unit clock data filter) m =
          (.ok [.function f], m) := by
        rw [all, bind_of_ok (self_eq n)]
        rfl
      have list_eq : within (n + 2) .handled (.array [.variable "x"])
          (.bare Unit clock data filter) m = (.ok (.array [.function f]), m) := by
        rw [within_succ]
        exact bind_of_ok inner
      have args_eq : all (within (n + 2) .handled) [.array [.variable "x"], .variable "x"]
          (.bare Unit clock data filter) m = (.ok [.array [.function f], .function f], m) := by
        rw [all, bind_of_ok list_eq, all, all, bind_def, bind_of_ok (self_eq (n + 1))]
        rfl
      have again : Scope.lookUp data "x"
          (m.enter f [.function f, .ofNat 0]).scopes = .function f := by
        simp [Machine.enter, params, Scope.bind, Scope.lookUp]
      have called : (callClosure (within (n + 2)) f [.function f, .ofNat 0]
          (.bare Unit clock data filter) m).1 = .error .exhausted := by
        rw [callClosure_apply, body]
        exact ih (m.enter f [.function f, .ofNat 0]) again
      rcases first : callClosure (within (n + 2)) f [.function f, .ofNat 0]
          (.bare Unit clock data filter) m with ⟨r, m₁⟩
      rw [first] at called
      cases called
      rw [bind_of_ok args_eq]
      exact congrArg Prod.fst (bind_of_error (bind_of_error first))

variable (clock data filter) in
theorem selfApplication_exhausted (n : Nat) (m : Machine Unit) :
    (within n .handled (.call filterName [.array [selfFunction], selfFunction])
      (.bare Unit clock data filter) m).1 = .error .exhausted := by
  match n with
  | 0 | 1 | 2 => rfl
  | n + 3 =>
    rw [within_filterName]
    have args_eq : all (within (n + 2) .handled) [.array [selfFunction], selfFunction]
        (.bare Unit clock data filter) m =
      (.ok [.array [.function ⟨m.functions, ["x"], selfBody⟩],
          .function ⟨m.functions + 1, ["x"], selfBody⟩],
        { m with functions := m.functions + 2 }) := rfl
    rw [bind_of_ok args_eq]
    have called : (callClosure (within (n + 2)) ⟨m.functions + 1, ["x"], selfBody⟩
        [.function ⟨m.functions, ["x"], selfBody⟩, .ofNat 0] (.bare Unit clock data filter)
        { m with functions := m.functions + 2 }).1 = .error .exhausted :=
      selfBody_exhausted ⟨m.functions, ["x"], selfBody⟩ rfl rfl (n + 2) _ rfl
    rcases first : callClosure (within (n + 2)) ⟨m.functions + 1, ["x"], selfBody⟩
        [.function ⟨m.functions, ["x"], selfBody⟩, .ofNat 0] (.bare Unit clock data filter)
        { m with functions := m.functions + 2 } with ⟨r, m₁⟩
    rw [first] at called
    cases called
    exact congrArg Prod.fst (bind_of_error (bind_of_error first))

theorem isName_filterName : IsName filterName :=
  ⟨⟨'A', ['R', 'R', 'A', 'Y', 'F', 'I', 'L', 'T', 'E', 'R'], rfl, rfl,
    List.all_eq_true.mp rfl⟩, by decide +kernel⟩

theorem plain_selfFunction : selfFunction.Plain := by
  have name : IsName "x" := ⟨⟨'x', [], rfl, rfl, by simp⟩, by decide⟩
  have inner : (Expr.array [.variable "x"]).Plain := .array (by simpa using .named name)
  exact .function (by simpa using name)
    (.call isName_filterName (by simpa using ⟨inner, .named name⟩))

theorem plain_endless : endless.Plain := by
  have count : IsName "COUNT" :=
    ⟨⟨'C', ['O', 'U', 'N', 'T'], rfl, rfl, List.all_eq_true.mp rfl⟩, by decide +kernel⟩
  have list : (Expr.array [selfFunction]).Plain := .array (by simpa using plain_selfFunction)
  have inner : (Expr.call filterName [.array [selfFunction], selfFunction]).Plain :=
    .call isName_filterName (by simpa using ⟨list, plain_selfFunction⟩)
  exact .call count (by simpa using inner)

theorem self_application_runs_on :
    parse ("COUNT((ARRAYFILTER(([((x) => (ARRAYFILTER(([(x)]), (x))))]), " ++
      "((x) => (ARRAYFILTER(([(x)]), (x)))))))") .expression = .ok endless ∧
    ∀ clock filter, ¬ Halts endless clock (.object []) filter := by
  constructor
  · have written : "COUNT((ARRAYFILTER(([((x) => (ARRAYFILTER(([(x)]), (x))))]), " ++
        "((x) => (ARRAYFILTER(([(x)]), (x)))))))" = String.ofList endless.written := by
      decide +kernel
    rw [written]
    exact parse_written_of_le plain_endless rfl (by decide)
  · rintro clock filter ⟨n, ended⟩
    match n with
    | 0 => exact ended rfl
    | n + 1 =>
      obtain ⟨f, found⟩ := eager?_count (σ := Unit) (within n)
      have counted : evaluate (n + 1) endless (.plain clock (.object []) filter) (.start clock ()) =
          (do f (← all (within n .handled)
            [.call filterName [.array [selfFunction], selfFunction]]))
            (.bare Unit clock (.object []) filter) (.start clock ()) :=
        within_eager (by decide +kernel) found _ _
      have inner := selfApplication_exhausted clock (.object []) filter n (.start clock ())
      rcases first : within n .handled (.call filterName [.array [selfFunction], selfFunction])
          (.bare Unit clock (.object []) filter) (.start clock ()) with ⟨r, m₁⟩
      rw [first] at inner
      cases inner
      rw [counted] at ended
      exact ended (congrArg Prod.fst (bind_of_error (bind_of_error first)))
end Endless

end TemplateFormula.Eval
