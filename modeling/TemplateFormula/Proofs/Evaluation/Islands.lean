import TemplateFormula.Proofs.Evaluation.Correspondence

/-!
# Islands inside of other expressions

An island stands for its body, piped through the default filter unless the body has filters of its
own. So it may be replaced by what it stands for wherever it is, inside of other islands as well, if
nobody looks at the island itself: a bracket key that is a bare variable can stand for its own name,
and an island around it looks whether its body is a chain of filters.
-/

namespace TemplateFormula

/-- An expression, and the same with some islands replaced by what they stand for: by their bodies
where the default filter leaves these alone, and else by their bodies piped through the default
filter. None that is replaced by its body is a bracket key with a bare variable in it. The body of
an island that stays is no chain of filters unless it was one, or unless the default filter leaves
both alone. -/
inductive Expr.Peeled {σ : Type} (o : Options σ) : Expr → Expr → Prop
  | layer {e e' : Expr} (h : Layer .all (Peeled o) e e') : Peeled o e e'
  | variable (n : String) : Peeled o (.variable n) (.variable n)
  | function (params : List String) {body body' : Expr} (h : Peeled o body body') :
      Peeled o (.function params body) (.function params body')
  | inNamespace (name : String) {body body' : Expr} (h : Peeled o body body') :
      Peeled o (.inNamespace name body) (.inNamespace name body')
  | island {body body' : Expr} (h : Peeled o body body')
      (chains : body.isChain = body'.isChain ∨ o.LeavesAlone body ∧ o.LeavesAlone body') :
      Peeled o (.island body) (.island body')
  | peel {body e' : Expr} (alone : o.LeavesAlone body) (h : Peeled o body e') :
      Peeled o (.island body) e'
  | pipe {name : String} {body body' : Expr} (found : o.islandFilter? = some name)
      (bare : body.isChain = false) (h : Peeled o body body') :
      Peeled o (.island body) (.filter body' [.mk name []])

/-- Functions of which the second has islands of the first replaced by what they stand for. -/
structure Closure.Peeled {σ : Type} (o : Options σ) (f g : Closure) : Prop where
  id_eq : f.id = g.id
  params_eq : f.params = g.params
  bodies : Expr.Peeled o f.body g.body

namespace Islands

variable {σ : Type} {o : Options σ}

theorem peeled_refl (e : Expr) : e.Peeled o e := by
  induction e using Expr.of_parts with
  | node e ih =>
    cases e with
    | island body => exact .island (ih body List.mem_cons_self) (.inl rfl)
    | «variable» n => exact .variable n
    | inNamespace name body => exact .inNamespace name (ih body List.mem_cons_self)
    | function params body => exact .function params (ih body List.mem_cons_self)
    | call name es => exact .layer (.refl (V := .all) trivial ih)
    | filter input calls => exact .layer (.refl (V := .all) (fun _ _ => trivial) ih)
    | _ => exact .layer (.refl trivial ih)

variable (o) in
/-- The same environment twice. -/
def setting (clock : Calendar.Clock) (data : Value) : Setting σ where
  options := o
  clock := clock
  clock' := clock
  data := data
  data' := data
  vocabulary := .all
  ambient := Eq

variable (o) in
def Related (N : Names) (e e' : Expr) : Prop := N = Eq ∧ e.Peeled o e'

variable {clock : Calendar.Clock} {data : Value}

theorem Related.step {N : Names} {e e' : Expr} (h : Related o N e e') :
    Expr.Step (setting o clock data) (Related o) N e e' := by
  obtain ⟨rfl, peeled⟩ := h
  cases peeled with
  | layer h => exact .layer (h.imp fun _ _ _ h => ⟨rfl, h⟩)
  | «variable» n => exact .variable rfl
  | function params h =>
    exact .function ⟨Eq, ⟨rfl, h⟩, fun same => .of_eq same params, fun same => .of_eq same params,
      .inr⟩
  | inNamespace name h =>
    have answers (r : Resolver) (n n' : String) (same : n = n') : r n = r n' := by rw [same]
    exact .inNamespace (fun r _ => answers r) ⟨rfl, h⟩
  | island h chains => exact .island ⟨rfl, h⟩ chains
  | peel alone h => exact .dropLeft alone ⟨rfl, h⟩
  | pipe found bare h => exact .pipeLeft found bare ⟨rfl, h⟩

theorem corresponds_refl (f : Closure) : f.Corresponds (Related o) f :=
  ⟨rfl, Eq, rfl, peeled_refl _⟩

theorem peeled_of_corresponds {f g : Closure} (h : f.Corresponds (Related o) g) :
    f.Peeled o g := by
  obtain ⟨same, N, rfl, peeled⟩ := h
  generalize first : Expr.function f.params f.body = e at peeled
  generalize second : Expr.function g.params g.body = e' at peeled
  cases peeled with
  | layer h => cases h <;> cases first
  | function params h =>
    obtain ⟨rfl, rfl⟩ := Expr.function.inj first
    obtain ⟨params_eq, rfl⟩ := Expr.function.inj second
    exact ⟨same, params_eq.symm, h⟩
  | «variable» n => cases first
  | inNamespace name h => cases first
  | island h chains => cases first
  | peel alone h => cases first
  | pipe found bare h => cases first

theorem sound (handlers : o.handlers = []) (filters : o.filters = []) (clock : Calendar.Clock)
    (data : Value) : (setting o clock data).Sound (Related o) where
  handlers := handlers
  zone := rfl
  closed := Related.step
  blank := ⟨Eq, rfl, peeled_refl _⟩
  data := by
    rintro n _ rfl
    exact Value.like_refl corresponds_refl _
  answers _ _ _ := Value.like_refl corresponds_refl _
  answers_eq entry _ n n' same := congrArg entry.2 same
  random _ := rfl
  timeless _ _ _ := rfl
  fallback _ := .inr trivial
  islands _ := trivial
  filters _ _ := .inr (.inr ⟨filters, rfl, Value.like_refl corresponds_refl _⟩)

end Islands

namespace Eval

variable {σ : Type}

/-- Where islands are replaced by what they stand for, results stay the same, up to the same
replacement in functions that are returned. -/
theorem results_peeled {o : Options σ} (handlers : o.handlers = []) (filters : o.filters = [])
    {e e' : Expr} (peeled : e.Peeled o e') (clock : Calendar.Clock) (data : Value) (user : σ) :
    (∀ r, Results ⟨o, clock, data⟩ user e r →
      ∃ r', Results ⟨o, clock, data⟩ user e' r' ∧ LikeResult (Closure.Peeled o) r r') ∧
    ∀ r', Results ⟨o, clock, data⟩ user e' r' →
      ∃ r, Results ⟨o, clock, data⟩ user e r ∧ LikeResult (Closure.Peeled o) r r' := by
  have sound := Islands.sound handlers filters clock data
  have names {n n' : String} (same : n = n') : Value.Like (Closure.Corresponds (Islands.Related o))
      (Scope.lookUp data n [.root]) (Scope.lookUp data n' [.root]) := by
    rw [same]
    exact Value.like_refl Islands.corresponds_refl _
  exact results_related sound ⟨rfl, peeled⟩ names (fun f g => Islands.peeled_of_corresponds) user

/-- A member of an object under a computed key, in an island. -/
def computed (key : Expr) : Expr := .document [.island (.getter (.variable "o") key)]

/-- An object with one member, and a key that is markup. -/
def markupData (name : String) : Value :=
  .object [("k", .text "<"), ("o", .object [(name, .text "1")])]

theorem results_peeled_computed :
    (Options.usual : Options Unit).handlers = [] ∧ (Options.usual : Options Unit).filters = [] ∧
    (computed (.island (.variable "k"))).Peeled (Options.usual : Options Unit)
      (computed (.filter (.variable "k") [.mk "html" []])) ∧
    ∀ clock, Results ⟨Options.usual, clock, markupData "&lt;"⟩ ()
      (computed (.filter (.variable "k") [.mk "html" []])) (.ok (.text "1")) := by
  have filter : (Options.usual : Options Unit).islandFilter? = some "html" := by decide +kernel
  have peeled : (computed (.island (.variable "k"))).Peeled (Options.usual : Options Unit)
      (computed (.filter (.variable "k") [.mk "html" []])) := by
    refine .layer (.document (.cons (.island (.layer ?_) (.inl rfl)) .nil))
    exact .getter (.variable "o") (.pipe filter rfl (.variable "k")) rfl
  refine ⟨rfl, rfl, peeled, fun clock => ?_⟩
  have first : Results ⟨Options.usual, clock, markupData "&lt;"⟩ ()
      (computed (.island (.variable "k"))) (.ok (.text "1")) := ⟨_, 9, rfl⟩
  obtain ⟨r', result', like⟩ := (results_peeled rfl rfl peeled clock _ ()).1 _ first
  cases like with
  | ok like =>
    cases like
    exact result'

/-- A key in an island of its own is escaped, so that it is another key than its body. -/
theorem computed_key_escaped :
    (Options.usual : Options Unit).islandFilter? = some "html" ∧
    ∀ clock, ¬ ∀ r,
      Results ⟨Options.usual, clock, markupData "<"⟩ () (computed (.island (.variable "k"))) r ↔
      Results ⟨Options.usual, clock, markupData "<"⟩ () (computed (.variable "k")) r := by
  refine ⟨by decide +kernel, fun clock same => ?_⟩
  have bare : Results ⟨Options.usual, clock, markupData "<"⟩ () (computed (.variable "k"))
      (.ok (.text "1")) := ⟨_, 9, rfl⟩
  have nested : Results ⟨Options.usual, clock, markupData "<"⟩ ()
      (computed (.island (.variable "k"))) (.ok .undefined) := ⟨_, 9, rfl⟩
  cases nested.unique ((same _).2 bare)

end Eval

end TemplateFormula
