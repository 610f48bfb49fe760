import TemplateFormula.Evaluation.Evaluator
import TemplateFormula.Proofs.Expr.Layer
import TemplateFormula.Proofs.Relabeling.Collection

/-!
# Comparisons of evaluations

Two evaluations of expressions of the same shape take the same steps, and what one of them computes
at a node is another view of what the other computes there. A comparison is a relation between
computations that single steps respect; then every rule respects it at nodes of one kind whose parts
are compared.
-/

namespace TemplateFormula

namespace Eval

/-- A relation between two families of computations with results that are views of one, which single
steps of evaluation respect. -/
structure Comparison (ι σ τ : Type) (κ κ' : Closure → Closure) (env : Environment σ)
    (env' : Environment τ) where
  faithful : Closure.Faithful κ
  faithful' : Closure.Faithful κ'
  zone_eq : env'.zone = env.zone
  Holds : ∀ {α β γ : Type}, (γ → α) → (γ → β) → (ι → Eval σ α) → (ι → Eval τ β) → Prop
  congr : ∀ {α β γ : Type} {r : γ → α} {r' : γ → β} {x x₁ : ι → Eval σ α} {y y₁ : ι → Eval τ β},
    Holds r r' x y → (∀ i, x i env = x₁ i env) → (∀ i, y i env' = y₁ i env') → Holds r r' x₁ y₁
  pure : ∀ {α β γ : Type} (r : γ → α) (r' : γ → β) (c : γ),
    Holds r r' (fun _ => pure (r c)) fun _ => pure (r' c)
  bind : ∀ {α β γ α₁ β₁ γ₁ : Type} {r : γ → α} {r' : γ → β} {s : γ₁ → α₁} {s' : γ₁ → β₁}
    {x : ι → Eval σ α} {y : ι → Eval τ β} {f : ι → α → Eval σ α₁} {g : ι → β → Eval τ β₁},
    Holds r r' x y → (∀ c, Holds s s' (fun i => f i (r c)) fun i => g i (r' c)) →
      Holds s s' (fun i => x i >>= f i) fun i => y i >>= g i
  fault : ∀ {α β γ : Type} (r : γ → α) (r' : γ → β) (e : EvalError),
    Holds r r' (fun _ => fault e) fun _ => fault e

namespace Comparison

variable {ι σ τ : Type} {κ κ' : Closure → Closure} {env : Environment σ} {env' : Environment τ}
  (S : Comparison ι σ τ κ κ' env env')

/-- Computations of views of one value. -/
abbrev Gives (x : ι → Eval σ Value) (y : ι → Eval τ Value) : Prop :=
  S.Holds (Value.relabel κ) (Value.relabel κ') x y

/-- Computations of views of one list of values. -/
abbrev GivesAll (x : ι → Eval σ (List Value)) (y : ι → Eval τ (List Value)) : Prop :=
  S.Holds (List.map (Value.relabel κ)) (List.map (Value.relabel κ')) x y

section Steps

variable {α β γ α₁ β₁ γ₁ : Type}

/-- A step that asks for what is there in both environments. -/
theorem bind_ask {s : γ₁ → α₁} {s' : γ₁ → β₁} {h : Environment σ → α} {h' : Environment τ → β}
    {f : ι → α → Eval σ α₁} {g : ι → β → Eval τ β₁}
    (after : S.Holds s s' (fun i => f i (h env)) fun i => g i (h' env')) :
    S.Holds s s' (fun i => ask h >>= f i) fun i => ask h' >>= g i :=
  S.congr after (fun _ => rfl) fun _ => rfl

theorem ask {r : γ → α} {r' : γ → β} {h : Environment σ → α} {h' : Environment τ → β} {c : γ}
    (first : h env = r c) (second : h' env' = r' c) :
    S.Holds r r' (fun _ => ask h) fun _ => Eval.ask h' := by
  have answered := S.pure r r' c
  rw [← first, ← second] at answered
  exact S.congr answered (fun _ => rfl) fun _ => rfl

theorem constant {v : Value} (free : v.FunctionFree) :
    S.Gives (fun _ => Pure.pure v) fun _ => Pure.pure v := by
  have answered := S.pure (Value.relabel κ) (Value.relabel κ') v
  rwa [free κ, free κ'] at answered

/-- Computations whose results are changed in corresponding ways. -/
theorem map {r : γ → α} {r' : γ → β} {s : γ₁ → α₁} {s' : γ₁ → β₁} {x : ι → Eval σ α}
    {y : ι → Eval τ β} {f : α → α₁} {g : β → β₁} (h : γ → γ₁) (hx : S.Holds r r' x y)
    (first : ∀ c, f (r c) = s (h c)) (second : ∀ c, g (r' c) = s' (h c)) :
    S.Holds s s' (fun i => do return f (← x i)) fun i => do return g (← y i) := by
  apply S.bind hx
  intro c
  rw [first, second]
  exact S.pure s s' (h c)

end Steps

/-- The values of two expressions correspond. -/
def Covers (eval : ι → Entry → Expr → Eval σ Value) (eval' : ι → Entry → Expr → Eval τ Value)
    (e e' : Expr) : Prop :=
  S.Gives (fun i => eval i .handled e) fun i => eval' i .handled e'

/-- The values of calls of two functions correspond. -/
def CoversCall (eval : ι → Entry → Expr → Eval σ Value)
    (eval' : ι → Entry → Expr → Eval τ Value) (f f' : Closure) : Prop :=
  ∀ args : List Value,
    S.Gives (fun i => callClosure (eval i) f (args.map (Value.relabel κ)))
      fun i => callClosure (eval' i) f' (args.map (Value.relabel κ'))

variable {eval : ι → Entry → Expr → Eval σ Value} {eval' : ι → Entry → Expr → Eval τ Value}
  {S}

section Lists

variable {es es' : List Expr} (each : List.Forall₂ (S.Covers eval eval') es es')
include each

theorem all : S.GivesAll (fun i => all (eval i .handled) es)
    fun i => Eval.all (eval' i .handled) es' := by
  induction each with
  | nil => exact S.pure (List.map (Value.relabel κ)) (List.map (Value.relabel κ')) []
  | cons first _ ih =>
    apply S.bind first
    intro v
    exact S.map (v :: ·) ih (fun _ => rfl) fun _ => rfl

omit each in
theorem shown (v : Value) :
    S.Holds id id (fun _ => shown (v.relabel κ)) fun _ => Eval.shown (v.relabel κ') :=
  S.ask (c := v.shownChars env.zone) (Value.shownChars_relabel κ _ v)
    (by rw [S.zone_eq]; exact Value.shownChars_relabel κ' _ v)

theorem glued : S.Holds id id (fun i => glued (eval i .handled) es)
    fun i => Eval.glued (eval' i .handled) es' := by
  induction each with
  | nil => exact S.pure id id []
  | cons first _ ih =>
    apply S.bind first
    intro v
    apply S.bind (shown v)
    intro cs
    exact S.map (cs ++ ·) ih (fun _ => rfl) fun _ => rfl

theorem gluedText : S.Gives (fun i => do return .ofChars (← Eval.glued (eval i .handled) es))
    fun i => do return .ofChars (← Eval.glued (eval' i .handled) es') :=
  S.map Value.ofChars (glued each) (fun cs => (Value.relabel_ofChars κ cs).symm)
    fun cs => (Value.relabel_ofChars κ' cs).symm

theorem sequence (last : Value) :
    S.Gives (fun i => sequence (eval i) (last.relabel κ) es)
      fun i => Eval.sequence (eval' i) (last.relabel κ') es' := by
  induction each generalizing last with
  | nil => exact S.pure (Value.relabel κ) (Value.relabel κ') last
  | cons first _ ih =>
    apply S.bind first
    exact ih

theorem document : S.Gives (fun i => document (eval i) es)
    fun i => Eval.document (eval' i) es' := by
  cases each with
  | nil => exact S.constant fun κ => Value.relabel_undefined κ
  | cons first rest =>
    cases rest with
    | nil => exact first
    | cons second rest => exact gluedText (.cons first (.cons second rest))

omit each in
theorem members {entries entries' : List (Expr × Expr)}
    (each : List.Forall₂ (Expr.LayerEntry (S.Covers eval eval')) entries entries')
    (ms : Members) :
    S.Holds (Members.relabel κ) (Members.relabel κ')
      (fun i => members (eval i) (ms.relabel κ) entries)
      fun i => Eval.members (eval' i) (ms.relabel κ') entries' := by
  induction each generalizing ms with
  | nil => exact S.pure (Members.relabel κ) (Members.relabel κ') ms
  | cons first _ ih =>
    obtain ⟨key, value⟩ := first
    apply S.bind key
    intro k
    apply S.bind value
    intro v
    have named : S.Holds id id (fun _ => Eval.ask fun env => (k.relabel κ).propertyKey env.zone)
        fun _ => Eval.ask fun env => (k.relabel κ').propertyKey env.zone :=
      S.ask (Value.propertyKey_relabel κ _ k)
        (by rw [S.zone_eq]; exact Value.propertyKey_relabel κ' _ k)
    apply S.bind named
    intro name
    rw [id, Members.insert_relabel, Members.insert_relabel]
    exact ih (ms.insert name v)

end Lists

section Lazy

/-- Computations that go one way or the other by the truth of a value. -/
theorem branch {α β γ : Type} {r : γ → α} {r' : γ → β} {x x₁ : ι → Eval σ α}
    {y y₁ : ι → Eval τ β} {c : ι → Eval σ Value} {c' : ι → Eval τ Value} (test : S.Gives c c')
    (yes : S.Holds r r' x y) (no : S.Holds r r' x₁ y₁) :
    S.Holds r r' (fun i => c i >>= fun v => if v.isTruthy then x i else x₁ i)
      fun i => c' i >>= fun v => if v.isTruthy then y i else y₁ i := by
  apply S.bind test
  intro v
  rw [Value.isTruthy_relabel, Value.isTruthy_relabel]
  by_cases h : v.isTruthy = true
  · simpa only [if_pos h] using yes
  · simpa only [if_neg h] using no

theorem force {e e' : Option Expr} (covers : Option.Rel (S.Covers eval eval') e e') :
    S.Gives (fun i => force (eval i .handled) e) fun i => Eval.force (eval' i .handled) e' := by
  cases covers with
  | some covers => exact covers
  | none => exact S.constant fun κ => Value.relabel_undefined κ

variable {es es' : List Expr} (each : List.Forall₂ (S.Covers eval eval') es es')
include each

theorem allHold : S.Holds id id (fun i => allHold (eval i .handled) es)
    fun i => Eval.allHold (eval' i .handled) es' := by
  induction each with
  | nil => exact S.pure id id true
  | cons first _ ih => exact branch first ih (S.pure id id false)

theorem anyHolds : S.Holds id id (fun i => anyHolds (eval i .handled) es)
    fun i => Eval.anyHolds (eval' i .handled) es' := by
  induction each with
  | nil => exact S.pure id id false
  | cons first _ ih => exact branch first (S.pure id id true) ih

omit each in
theorem firstCase : {es es' : List Expr} → List.Forall₂ (S.Covers eval eval') es es' →
    S.Gives (fun i => firstCase (eval i .handled) es)
      fun i => Eval.firstCase (eval' i .handled) es'
  | _, _, .nil => S.constant fun κ => Value.relabel_undefined κ
  | _, _, .cons last .nil => last
  | _, _, .cons test (.cons value rest) => branch test value (firstCase rest)

theorem covers_getElem? (k : Nat) : Option.Rel (S.Covers eval eval') es[k]? es'[k]? := by
  induction each generalizing k with
  | nil => exact .none
  | cons first _ ih =>
    cases k with
    | zero => exact .some first
    | succ k => exact ih k

theorem callLazy (f : LazyFunction) : S.Gives (fun i => callLazy (eval i .handled) f es)
    fun i => Eval.callLazy (eval' i .handled) f es' := by
  have argument (k : Nat) := force (covers_getElem? each k)
  have truth {x : ι → Eval σ Bool} {y : ι → Eval τ Bool} (h : S.Holds id id x y) :
      S.Gives (fun i => do return .boolean (← x i)) fun i => do return .boolean (← y i) :=
    S.map Value.boolean h (fun b => (Value.relabel_boolean κ b).symm)
      fun b => (Value.relabel_boolean κ' b).symm
  cases f with
  | choose => exact branch (argument 0) (argument 1) (argument 2)
  | all => exact truth (allHold each)
  | any => exact truth (anyHolds each)
  | agree =>
    apply S.bind (argument 0)
    intro a
    apply S.map (fun b => .boolean (a.isTruthy == b.isTruthy)) (argument 1)
    all_goals
      intro b
      rw [Value.isTruthy_relabel, Value.isTruthy_relabel, Value.relabel_boolean]
  | firstCase => exact firstCase each

end Lazy

section Arguments

mutual

theorem filterArg : {a a' : FilterArg} → FilterArg.Layer (S.Covers eval eval') a a' →
    S.Gives (fun i => filterArg (eval i .handled) a) fun i => Eval.filterArg (eval' i .handled) a'
  | _, _, .text s => S.constant fun κ => Value.relabel_text κ s
  | _, _, .expr h => h
  | _, _, .mixed each =>
    S.map Value.ofChars (filterParts each) (fun cs => (Value.relabel_ofChars κ cs).symm)
      fun cs => (Value.relabel_ofChars κ' cs).symm

theorem filterParts : {as as' : List FilterArg} →
    List.Forall₂ (FilterArg.Layer (S.Covers eval eval')) as as' →
    S.Holds id id (fun i => filterParts (eval i .handled) as)
      fun i => Eval.filterParts (eval' i .handled) as'
  | _, _, .nil => S.pure id id []
  | _, _, .cons first rest => by
    apply S.bind (filterArg first)
    intro v
    apply S.bind (shown v)
    intro cs
    exact S.map (cs ++ ·) (filterParts rest) (fun _ => rfl) fun _ => rfl

end

theorem filterArgs {args args' : List FilterArg}
    (each : List.Forall₂ (FilterArg.Layer (S.Covers eval eval')) args args') :
    S.GivesAll (fun i => filterArgs (eval i .handled) args)
      fun i => Eval.filterArgs (eval' i .handled) args' := by
  induction each with
  | nil => exact S.pure (List.map (Value.relabel κ)) (List.map (Value.relabel κ')) []
  | cons first _ ih =>
    apply S.bind (filterArg first)
    intro v
    exact S.map (v :: ·) ih (fun _ => rfl) fun _ => rfl

end Arguments

section Calls

variable {f f' : Closure} (calls : S.CoversCall eval eval' f f')
include calls

theorem callItem (v : Value) (k : Nat) :
    S.Gives (fun i => callClosure (eval i) f [v.relabel κ, .ofNat k])
      fun i => callClosure (eval' i) f' [v.relabel κ', .ofNat k] := by
  have called := calls [v, .ofNat k]
  rwa [List.map_cons, List.map_cons, Value.relabel_ofNat, List.map_nil, List.map_cons,
    List.map_cons, Value.relabel_ofNat, List.map_nil] at called

theorem mapItems (k : Nat) (items : List Value) :
    S.GivesAll (fun i => mapItems (eval i) f k (items.map (Value.relabel κ)))
      fun i => Eval.mapItems (eval' i) f' k (items.map (Value.relabel κ')) := by
  induction items generalizing k with
  | nil => exact S.pure (List.map (Value.relabel κ)) (List.map (Value.relabel κ')) []
  | cons v vs ih =>
    apply S.bind (callItem calls v k)
    intro w
    exact S.map (w :: ·) (ih (k + 1)) (fun _ => rfl) fun _ => rfl

theorem filterItems (k : Nat) (items : List Value) :
    S.GivesAll (fun i => filterItems (eval i) f k (items.map (Value.relabel κ)))
      fun i => Eval.filterItems (eval' i) f' k (items.map (Value.relabel κ')) := by
  induction items generalizing k with
  | nil => exact S.pure (List.map (Value.relabel κ)) (List.map (Value.relabel κ')) []
  | cons v vs ih =>
    apply S.bind (callItem calls v k)
    intro w
    apply S.map (fun kept => if w.isTruthy then v :: kept else kept) (ih (k + 1))
    all_goals
      intro kept
      rw [Value.isTruthy_relabel]
      split <;> rfl

omit calls

theorem asItems_relabel (κ : Closure → Closure) (v : Value) :
    (v.relabel κ).asArray?.getD [] = (v.asArray?.getD []).map (Value.relabel κ) := by
  rw [Value.asArray?_relabel]
  cases v.asArray? <;> rfl

theorem overItems (name : String) {run : ι → Closure → Nat → List Value → Eval σ (List Value)}
    {run' : ι → Closure → Nat → List Value → Eval τ (List Value)}
    (runs : ∀ f k (items : List Value),
      S.GivesAll (fun i => run i (κ f) k (items.map (Value.relabel κ)))
        fun i => run' i (κ' f) k (items.map (Value.relabel κ'))) (args : List Value) :
    S.Gives (fun i => overItems name (run i) (args.map (Value.relabel κ)))
      fun i => Eval.overItems name (run' i) (args.map (Value.relabel κ')) := by
  unfold Eval.overItems
  simp only [Argument.orUndefined_relabel, asItems_relabel]
  have fails (v : Value) := S.fault (Value.relabel κ) (Value.relabel κ')
    (.typeError (name ++ " expects a function, got " ++ v.typeName))
  cases Argument.orUndefined args 1 with
  | function f =>
    exact S.map Value.array (runs f 0 _) (fun items => (Value.relabel_array κ items).symm)
      fun items => (Value.relabel_array κ' items).symm
  | array items => simpa [Value.typeName] using fails (.array items)
  | object ms => simpa [Value.typeName] using fails (.object ms)
  | _ => simpa using fails _

theorem builtin {name : String} {f : Builtin} (found : Builtin.find? name = some f)
    (timeless : ∀ args, f env'.clock args = f env.clock args) (args : List Value) :
    S.Gives
      (fun _ => do ofResult (← Eval.ask fun env => f env.clock (args.map (Value.relabel κ))))
      (fun _ => do ofResult (← Eval.ask fun env => f env.clock (args.map (Value.relabel κ')))) := by
  have result : S.Holds (Except.map (Value.relabel κ)) (Except.map (Value.relabel κ'))
      (fun _ => Eval.ask fun env => f env.clock (args.map (Value.relabel κ)))
      fun _ => Eval.ask fun env => f env.clock (args.map (Value.relabel κ')) :=
    S.ask (Builtin.find?_natural found env.clock args)
      ((timeless _).trans (Builtin.find?_natural found env.clock args))
  apply S.bind result
  intro result
  cases result with
  | ok v => exact S.pure (Value.relabel κ) (Value.relabel κ') v
  | error e => exact S.fault _ _ e

/-- A function on evaluated arguments is there for both evaluations or for neither. -/
theorem eager (calls : ∀ f, S.CoversCall eval eval' (κ f) (κ' f)) {name : String}
    (draws : name = randomName → S.Holds id id (fun _ => random) fun _ => random)
    (timeless : ∀ f, Builtin.find? name = some f → ∀ args, f env'.clock args = f env.clock args) :
    (∀ i, eager? (eval i) name = none ∧ eager? (eval' i) name = none) ∨
    ∃ (f : ι → List Value → Eval σ Value) (f' : ι → List Value → Eval τ Value),
      (∀ i, eager? (eval i) name = some (f i) ∧ eager? (eval' i) name = some (f' i)) ∧
      ∀ args : List Value, S.Gives (fun i => f i (args.map (Value.relabel κ)))
        fun i => f' i (args.map (Value.relabel κ')) := by
  unfold eager?
  by_cases maps : name = mapName
  · simp only [if_pos maps]
    exact .inr ⟨_, _, fun i => ⟨rfl, rfl⟩, overItems name fun f => mapItems (calls f)⟩
  · by_cases filters : name = filterName
    · simp only [if_neg maps, if_pos filters]
      exact .inr ⟨_, _, fun i => ⟨rfl, rfl⟩, overItems name fun f => filterItems (calls f)⟩
    · by_cases random : name = randomName
      · simp only [if_neg maps, if_neg filters, if_pos random]
        exact .inr ⟨_, _, fun i => ⟨rfl, rfl⟩, fun args => S.map Value.number (draws random)
          (fun x => (Value.relabel_number κ x).symm) fun x => (Value.relabel_number κ' x).symm⟩
      · simp only [if_neg maps, if_neg filters, if_neg random]
        cases found : Builtin.find? name with
        | none => exact .inl fun i => ⟨rfl, rfl⟩
        | some f =>
          exact .inr ⟨_, _, fun i => ⟨rfl, rfl⟩, S.builtin found (timeless f found)⟩

end Calls

section Nodes

theorem binary (op : BinaryOp) {a a' b b' : Expr} (first : S.Covers eval eval' a a')
    (second : S.Covers eval eval' b b') :
    S.Gives (fun i => binary (eval i) op a b) fun i => Eval.binary (eval' i) op a' b' := by
  apply S.bind first
  intro v
  have logical {x x₁ : ι → Eval σ Value} {y y₁ : ι → Eval τ Value} (yes : S.Gives x y)
      (no : S.Gives x₁ y₁) :
      S.Gives (fun i => if (v.relabel κ).isTruthy then x i else x₁ i)
        fun i => if (v.relabel κ').isTruthy then y i else y₁ i := by
    rw [Value.isTruthy_relabel, Value.isTruthy_relabel]
    by_cases h : v.isTruthy = true
    · simpa only [if_pos h] using yes
    · simpa only [if_neg h] using no
  have self := S.pure (Value.relabel κ) (Value.relabel κ') v
  cases op with
  | and => exact logical second self
  | or => exact logical self second
  | _ =>
    apply S.bind second
    intro w
    exact S.ask (BinaryOp.apply_relabel _ S.faithful _ v w)
      (by rw [S.zone_eq]; exact BinaryOp.apply_relabel _ S.faithful' _ v w)

theorem keyValue_relabel (key : Expr) (v : Value) :
    keyValue key (v.relabel κ) = (keyValue key v).relabel κ := by
  unfold keyValue
  cases v with
  | undefined => cases key <;> simp
  | _ => simp

theorem keyValue_congr {key key' : Expr} (name : key.ownName? = key'.ownName?) :
    keyValue key = keyValue key' := by
  funext v
  unfold keyValue
  cases v with
  | undefined => cases key <;> cases key' <;> simp_all [Expr.ownName?]
  | _ => rfl

theorem getter {host host' key key' : Expr} (first : S.Covers eval eval' host host')
    (second : S.Covers eval eval' key key') (name : key.ownName? = key'.ownName?) :
    S.Gives (fun i => getter (eval i) host key) fun i => Eval.getter (eval' i) host' key' := by
  apply S.bind first
  intro h
  apply S.bind second
  intro k
  rw [Value.isNullish_relabel, Value.isNullish_relabel]
  by_cases nullish : h.isNullish = true
  · simp only [nullish, if_true]
    exact S.constant fun κ => Value.relabel_undefined κ
  · simp only [nullish]
    refine S.ask (c := h.member env.zone (keyValue key k)) ?_ ?_
    · rw [keyValue_relabel, Value.member_relabel]
    · rw [S.zone_eq, ← keyValue_congr name, keyValue_relabel, Value.member_relabel]

/-- Rules of nodes with corresponding parts give corresponding values. Chains of filters and calls
need what the environments have under their names. -/
theorem rule {V : Vocabulary} {limit limit' : ι → Nat} {e e' : Expr}
    (h : Expr.Layer V (S.Covers eval eval') e e')
    (chains : ∀ a a' calls calls', e = .filter a calls → e' = .filter a' calls' →
      S.Gives (fun i => applyFilters (eval i .handled) (limit i) a calls)
        fun i => applyFilters (eval' i .handled) (limit' i) a' calls')
    (callees : ∀ name es es', e = .call name es → e' = .call name es' →
      S.Gives (fun i => call (limit i) (eval i) name es)
        fun i => call (limit' i) (eval' i) name es') :
    S.Gives (fun i => rule (limit i) (eval i) e) fun i => Eval.rule (limit' i) (eval' i) e' := by
  cases h with
  | document each => exact document each
  | raw s => exact S.constant fun κ => Value.relabel_text κ s
  | filter input each => exact chains _ _ _ _ rfl rfl
  | template each => exact gluedText each
  | templateRaw s => exact S.constant fun κ => Value.relabel_text κ s
  | getter first second name => exact getter first second name
  | unary op operand =>
    apply S.bind operand
    intro v
    exact S.ask (UnaryOp.apply_relabel κ _ op v)
      (by rw [S.zone_eq]; exact UnaryOp.apply_relabel κ' _ op v)
  | binary op first second => exact binary op first second
  | conditional test consequent alternate => exact branch test consequent alternate
  | identifier s => exact S.constant fun κ => Value.relabel_text κ s
  | literal l => exact S.constant fun κ => Value.relabel_ofLiteral κ l
  | number x => exact S.constant fun κ => Value.relabel_number κ x
  | text s => exact S.constant fun κ => Value.relabel_text κ s
  | array each =>
    exact S.map Value.array (all each) (fun vs => (Value.relabel_array κ vs).symm)
      fun vs => (Value.relabel_array κ' vs).symm
  | object each =>
    exact S.map Value.object (members each []) (fun ms => (Value.relabel_object κ ms).symm)
      fun ms => (Value.relabel_object κ' ms).symm
  | call known each => exact callees _ _ _ rfl rfl
  | sequence each => exact sequence each .undefined

end Nodes

end Comparison

end Eval

end TemplateFormula
