import TemplateFormula.Proofs.Evaluation.Chains
import TemplateFormula.Proofs.Evaluation.Comparison
import TemplateFormula.Proofs.Relabeling.Likeness

/-!
# Corresponding expressions

Two expressions that differ in names, in islands without effect or in the data that they are
evaluated on have corresponding outcomes, if what differs is never seen. A relation between
expressions says where they may differ; it is enough that it holds of the parts wherever it holds of
a node. Functions correspond if their bodies do under the names that they bind and those that mean
the same everywhere, since a function is called in scopes that it knows nothing of.
-/

namespace TemplateFormula

/-- Which name on the one side may stand where a name stands on the other. -/
abbrev Names := String → String → Prop

/-- Two evaluations to be compared. -/
structure Setting (σ : Type) where
  options : Options σ
  clock : Calendar.Clock
  clock' : Calendar.Clock
  data : Value
  data' : Value
  vocabulary : Vocabulary
  /-- Names that mean the same in all scopes that are ever entered. -/
  ambient : Names

namespace Setting

variable {σ : Type} (S : Setting σ)

def environment : Environment σ := ⟨S.options, S.clock, S.data⟩

def environment' : Environment σ := ⟨S.options, S.clock', S.data'⟩

/-- Parameters are bound to the names at the same places. -/
def SamePlaces (n n' : String) (params params' : List String) : Prop :=
  List.Forall₂ (fun p p' => p = n ↔ p' = n') params params'

theorem SamePlaces.of_eq {n n' : String} (same : n = n') (params : List String) :
    SamePlaces n n' params params :=
  List.forall₂_same.2 fun _ _ => by rw [same]

/-- Parameters of functions that hide no name from the one side only. The names in the bodies are
parameters or have their meaning from outside. -/
structure Binds (outer N : Names) (params params' : List String) : Prop where
  ambient : ∀ {n n'}, S.ambient n n' → SamePlaces n n' params params'
  places : ∀ {n n'}, N n n' → SamePlaces n n' params params'
  known : ∀ {n n'}, N n n' → n ∈ params ∨ outer n n'

theorem Binds.widen {S : Setting σ} {outer N : Names} {params params' : List String}
    (binds : S.Binds outer N params params') : S.Binds S.ambient S.ambient params params' :=
  ⟨binds.ambient, binds.ambient, .inr⟩

end Setting

/-- Functions made by related expressions. -/
structure Closure.Corresponds (C : Names → Expr → Expr → Prop) (f g : Closure) : Prop where
  id_eq : f.id = g.id
  related : ∃ N, C N (.function f.params f.body) (.function g.params g.body)

def Expr.isChain : Expr → Bool
  | .filter _ _ => true
  | _ => false

/-- An island with this body has the value of the body. -/
def Options.LeavesAlone {σ : Type} (o : Options σ) (body : Expr) : Prop :=
  ∀ name, o.islandFilter? = some name → body.isChain = true ∨ o.findFilter? name = some Filter.raw

/-- A call of this name calls a function at the items of a list. -/
def Eval.IsOverItems (name : String) : Prop := name = mapName ∨ name = filterName

/-- Nodes that may correspond, given which parts do. -/
inductive Expr.Step {σ : Type} (S : Setting σ) (C : Names → Expr → Expr → Prop) (N : Names) :
    Expr → Expr → Prop
  | layer {e e' : Expr} (h : Layer S.vocabulary (C N) e e') : Step S C N e e'
  | variable {n n' : String} (h : N n n') : Step S C N (.variable n) (.variable n')
  | function {params params' : List String} {body body' : Expr}
      (h : ∃ N', C N' body body' ∧ S.Binds S.ambient N' params params') :
      Step S C N (.function params body) (.function params' body')
  /-- A function that is written where it is called, and so called where it is written. -/
  | items {name : String} {list list' : Expr} {params params' : List String} {body body' : Expr}
      (loop : Eval.IsOverItems name) (first : C N list list')
      (h : ∃ N', C N' body body' ∧ S.Binds N N' params params') :
      Step S C N (.call name [list, .function params body])
        (.call name [list', .function params' body'])
  | inNamespace {N' : Names} {name : String} {body body' : Expr}
      (answers : ∀ r, S.options.namespaces.lookup name = some r → ∀ n n', N' n n' → r n = r n')
      (h : C N' body body') : Step S C N (.inNamespace name body) (.inNamespace name body')
  | island {body body' : Expr} (h : C N body body')
      (chains : body.isChain = body'.isChain ∨
        S.options.LeavesAlone body ∧ S.options.LeavesAlone body') :
      Step S C N (.island body) (.island body')
  | dropLeft {body e' : Expr} (alone : S.options.LeavesAlone body) (h : C N body e') :
      Step S C N (.island body) e'
  | dropRight {e body' : Expr} (alone : S.options.LeavesAlone body') (h : C N e body') :
      Step S C N e (.island body')
  | pipeLeft {name : String} {body body' : Expr} (found : S.options.islandFilter? = some name)
      (bare : body.isChain = false) (h : C N body body') :
      Step S C N (.island body) (.filter body' [.mk name []])
  | pipeRight {name : String} {body body' : Expr} (found : S.options.islandFilter? = some name)
      (bare : body'.isChain = false) (h : C N body body') :
      Step S C N (.filter body [.mk name []]) (.island body')

/-- Two settings in which nothing that differs is seen by the steps of an evaluation, in scopes
where ambient names mean the same. -/
structure Setting.Uniform {σ : Type} (S : Setting σ) (C : Names → Expr → Expr → Prop) : Prop where
  handlers : S.options.handlers = []
  zone : S.clock'.zone = S.clock.zone
  closed : ∀ {N e e'}, C N e e' → Expr.Step S C N e e'
  blank : ∃ N, C N (.function [] (.literal .undefined)) (.function [] (.literal .undefined))
  answers : ∀ entry ∈ S.options.namespaces, ∀ n,
    Value.Like (Closure.Corresponds C) (entry.2 n) (entry.2 n)
  answers_eq : ∀ entry ∈ S.options.namespaces, ∀ n n', S.ambient n n' → entry.2 n = entry.2 n'
  random : S.vocabulary.callee Eval.randomName → S.clock' = S.clock
  timeless : ∀ {name f}, S.vocabulary.callee name → Builtin.find? name = some f →
    ∀ args, f S.clock' args = f S.clock args
  fallback : ∀ {name}, S.vocabulary.callee name →
    Eval.isFunctionName name = true ∨ S.vocabulary.filter name
  islands : ∀ {name}, S.options.islandFilter? = some name → S.vocabulary.filter name
  /-- Filters see the same, or they are filters that look at their input only. -/
  filters : ∀ {name f}, S.vocabulary.filter name → S.options.findFilter? name = some f →
    f = Filter.raw ∨ f = Filter.html ∨
      S.options.filters = [] ∧ S.clock' = S.clock ∧
        Value.Like (Closure.Corresponds C) S.data S.data'

/-- The same where ambient names mean the same in the data too. -/
structure Setting.Sound {σ : Type} (S : Setting σ) (C : Names → Expr → Expr → Prop) : Prop
    extends S.Uniform C where
  data : ∀ {n n'}, S.ambient n n' → Value.Like (Closure.Corresponds C)
    (Scope.lookUp S.data n [.root]) (Scope.lookUp S.data' n' [.root])

namespace Setting.Uniform

variable {σ : Type} {S : Setting σ} {C : Names → Expr → Expr → Prop}

theorem pairs (uniform : S.Uniform C) : Closure.Pairs (Closure.Corresponds C) where
  id_eq h := h.id_eq
  blank _ := ⟨rfl, uniform.blank⟩

theorem bodies (uniform : S.Uniform C) {f g : Closure} (h : f.Corresponds C g) :
    ∃ N, C N f.body g.body ∧ S.Binds S.ambient N f.params g.params := by
  obtain ⟨N, related⟩ := h.related
  cases uniform.closed related with
  | layer h => cases h
  | function h => exact h

end Setting.Uniform

section Flip

variable {σ : Type} {S : Setting σ} {C : Names → Expr → Expr → Prop}

/-- The same comparison with its sides exchanged. -/
def Setting.flip (S : Setting σ) : Setting σ where
  options := S.options
  clock := S.clock'
  clock' := S.clock
  data := S.data'
  data' := S.data
  vocabulary := S.vocabulary
  ambient := fun n n' => S.ambient n' n

def Expr.flipped (C : Names → Expr → Expr → Prop) : Names → Expr → Expr → Prop :=
  fun N e e' => C (fun n n' => N n' n) e' e

namespace Setting

theorem SamePlaces.flip {n n' : String} {params params' : List String}
    (h : SamePlaces n n' params params') : SamePlaces n' n params' params :=
  List.Forall₂.flip (List.Forall₂.imp (fun _ _ same => same.symm) h)

theorem SamePlaces.mem {n n' : String} {params params' : List String}
    (h : SamePlaces n n' params params') (member : n ∈ params) : n' ∈ params' := by
  induction h with
  | nil => cases member
  | cons same _ ih =>
    cases member with
    | head => rw [same.1 rfl]; exact List.mem_cons_self
    | tail _ member => exact List.mem_cons_of_mem _ (ih member)

theorem Binds.flip {outer N : Names} {params params' : List String}
    (h : S.Binds outer N params params') :
    S.flip.Binds (fun n n' => outer n' n) (fun n n' => N n' n) params' params where
  ambient ambient := (h.ambient ambient).flip
  places names := (h.places names).flip
  known names := (h.known names).imp_left (h.places names).mem

end Setting

theorem Closure.Corresponds.flip {f g : Closure} (h : Corresponds C f g) :
    Corresponds (Expr.flipped C) g f := by
  obtain ⟨N, related⟩ := h.related
  exact ⟨h.id_eq.symm, _, related⟩

theorem Expr.Step.flip {N : Names} {e e' : Expr} (h : Step S C N e e') :
    Step S.flip (flipped C) (fun n n' => N n' n) e' e := by
  cases h with
  | layer h => exact .layer h.flip
  | «variable» h => exact .variable h
  | function h =>
    obtain ⟨N', bodies, binds⟩ := h
    exact .function ⟨_, bodies, binds.flip⟩
  | items loop first h =>
    obtain ⟨N', bodies, binds⟩ := h
    exact .items loop first ⟨_, bodies, binds.flip⟩
  | inNamespace answers h =>
    exact .inNamespace (fun r found n n' h => (answers r found n' n h).symm) h
  | island h chains => exact .island h (chains.imp Eq.symm And.symm)
  | dropLeft alone h => exact .dropRight alone h
  | dropRight alone h => exact .dropLeft alone h
  | pipeLeft found bare h => exact .pipeRight found bare h
  | pipeRight found bare h => exact .pipeLeft found bare h

theorem Setting.Uniform.flip (uniform : S.Uniform C) : S.flip.Uniform (Expr.flipped C) where
  handlers := uniform.handlers
  zone := uniform.zone.symm
  closed h := (uniform.closed h).flip
  blank := by
    obtain ⟨N, related⟩ := uniform.blank
    exact ⟨_, related⟩
  answers entry member n := (uniform.answers entry member n).flip uniform.pairs
    fun _ _ => Closure.Corresponds.flip
  answers_eq entry member n n' h := (uniform.answers_eq entry member n' n h).symm
  random drawn := (uniform.random drawn).symm
  timeless known found args := (uniform.timeless known found args).symm
  fallback := uniform.fallback
  islands := uniform.islands
  filters known found := (uniform.filters known found).imp_right fun h =>
    h.imp_right fun ⟨free, clock, data⟩ => ⟨free, clock.symm,
      data.flip uniform.pairs fun _ _ => Closure.Corresponds.flip⟩

theorem Setting.Sound.flip (sound : S.Sound C) : S.flip.Sound (Expr.flipped C) where
  toUniform := sound.toUniform.flip
  data h := (sound.data h).flip sound.pairs fun _ _ => Closure.Corresponds.flip

end Flip

end TemplateFormula
