import Mathlib.Data.List.Forall2
import TemplateFormula.Expr

/-!
# Nodes and their parts

Properties of all nodes of an expression, and expressions of the same shape. Both go from a node to
its parts, so that statements about whole expressions are proved one node at a time.
-/

namespace TemplateFormula

section Parts

mutual

/-- The expressions in an argument of a filter. -/
def FilterArg.exprs : FilterArg → List Expr
  | .text _ => []
  | .expr e => [e]
  | .mixed parts => allExprs parts

def FilterArg.allExprs : List FilterArg → List Expr
  | [] => []
  | a :: as => a.exprs ++ allExprs as

end

mutual

theorem FilterArg.sizeOf_lt : (a : FilterArg) → ∀ e ∈ a.exprs, sizeOf e < sizeOf a
  | .text _, _, h => by cases h
  | .expr e, e', h => by
    rw [List.mem_singleton.1 h, FilterArg.expr.sizeOf_spec]
    omega
  | .mixed parts, e, h => by
    have size := sizeOf_lt_all parts e h
    rw [FilterArg.mixed.sizeOf_spec]
    omega

theorem FilterArg.sizeOf_lt_all : (as : List FilterArg) → ∀ e ∈ allExprs as, sizeOf e < sizeOf as
  | [], _, h => by cases h
  | a :: as, e, h => by
    rw [List.cons.sizeOf_spec]
    obtain h | h := List.mem_append.1 h
    · have size := sizeOf_lt a e h
      omega
    · have size := sizeOf_lt_all as e h
      omega

end

namespace Expr

/-- The expressions that a node is made of. -/
def parts : Expr → List Expr
  | document es | template es | array es | call _ es | sequence es => es
  | island e | unary _ e | inNamespace _ e | function _ e => [e]
  | filter input calls => input :: calls.flatMap fun c => FilterArg.allExprs c.args
  | getter a b | binary _ a b => [a, b]
  | conditional a b c => [a, b, c]
  | object entries => entries.flatMap fun entry => [entry.1, entry.2]
  | raw _ | templateRaw _ | .variable _ | identifier _ | literal _ | number _ | text _ => []

theorem sizeOf_lt_of_mem_parts {e part : Expr} (member : part ∈ e.parts) :
    sizeOf part < sizeOf e := by
  cases e with
  | document es | template es | array es | call _ es | sequence es =>
    have size : sizeOf part < sizeOf es := List.sizeOf_lt_of_mem member
    simp
    omega
  | island e | unary _ e | inNamespace _ e | function _ e =>
    rw [List.mem_singleton.1 member]
    simp only [island.sizeOf_spec, unary.sizeOf_spec, inNamespace.sizeOf_spec, function.sizeOf_spec]
    omega
  | filter input calls =>
    rw [filter.sizeOf_spec]
    obtain rfl | member := List.mem_cons.1 member
    · omega
    · obtain ⟨⟨name, args⟩, inside, member⟩ := List.mem_flatMap.1 member
      have size := FilterArg.sizeOf_lt_all args part member
      have call_size := List.sizeOf_lt_of_mem inside
      rw [FilterCall.mk.sizeOf_spec] at call_size
      omega
  | getter a b | binary _ a b =>
    simp only [parts, List.mem_cons, List.not_mem_nil, or_false] at member
    rcases member with rfl | rfl <;> simp <;> omega
  | conditional a b c =>
    simp only [parts, List.mem_cons, List.not_mem_nil, or_false] at member
    rcases member with rfl | rfl | rfl <;> simp <;> omega
  | object entries =>
    obtain ⟨⟨key, value⟩, inside, member⟩ := List.mem_flatMap.1 member
    have size := List.sizeOf_lt_of_mem inside
    rw [object.sizeOf_spec]
    simp only [List.mem_cons, List.not_mem_nil, or_false, Prod.mk.sizeOf_spec] at member size
    rcases member with rfl | rfl <;> omega
  | _ => cases member

/-- What is passed on from the parts of a node to the node holds of every expression. -/
theorem of_parts {P : Expr → Prop} (node : ∀ e, (∀ part ∈ e.parts, P part) → P e) (e : Expr) :
    P e := by
  induction size : sizeOf e using Nat.strongRecOn generalizing e with
  | _ n smaller =>
    exact node e fun part member =>
      smaller (sizeOf part) (size ▸ sizeOf_lt_of_mem_parts member) part rfl

/-- The nodes of an expression, the bodies of functions included. -/
inductive Contains : Expr → Expr → Prop
  | here (e : Expr) : Contains e e
  | inside {e part node : Expr} (member : part ∈ e.parts) (rest : Contains part node) :
      Contains e node

/-- What holds of a node and of all nodes of its parts holds of all its nodes. -/
theorem forall_contains {P : Expr → Prop} {e : Expr} (own : P e)
    (parts : ∀ part ∈ e.parts, ∀ node, part.Contains node → P node) :
    ∀ node, e.Contains node → P node := by
  intro node contains
  cases contains with
  | here => exact own
  | inside member rest => exact parts _ member _ rest

theorem forall_contains_leaf {P : Expr → Prop} {e : Expr} (own : P e) (leaf : e.parts = []) :
    ∀ node, e.Contains node → P node :=
  forall_contains own fun _ member => by
    rw [leaf] at member
    cases member

end Expr

end Parts

/-- The names that functions and filters are called by. -/
structure Vocabulary where
  callee : String → Prop
  filter : String → Prop

def Vocabulary.all : Vocabulary := ⟨fun _ => True, fun _ => True⟩

/-- Arguments of one shape with related expressions. -/
inductive FilterArg.Layer (C : Expr → Expr → Prop) : FilterArg → FilterArg → Prop
  | text (s : String) : Layer C (.text s) (.text s)
  | expr {e e' : Expr} (h : C e e') : Layer C (.expr e) (.expr e')
  | mixed {parts parts' : List FilterArg} (each : List.Forall₂ (Layer C) parts parts') :
      Layer C (.mixed parts) (.mixed parts')

inductive FilterCall.Layer (V : Vocabulary) (C : Expr → Expr → Prop) :
    FilterCall → FilterCall → Prop
  | mk {name : String} {args args' : List FilterArg} (known : V.filter name)
      (each : List.Forall₂ (FilterArg.Layer C) args args') :
      Layer V C (.mk name args) (.mk name args')

namespace Expr

/-- Entries of objects with related keys and values. -/
inductive LayerEntry (C : Expr → Expr → Prop) : Expr × Expr → Expr × Expr → Prop
  | mk {key key' value value' : Expr} (first : C key key') (second : C value value') :
      LayerEntry C (key, value) (key', value')

/-- The name that stands for itself where a key is undefined. -/
def ownName? : Expr → Option String
  | .variable name => some name
  | _ => none

/-- Nodes of one kind whose parts are related. The nodes that depend on scopes or on the default
filter are none of these. -/
inductive Layer (V : Vocabulary) (C : Expr → Expr → Prop) : Expr → Expr → Prop
  | document {es es' : List Expr} (each : List.Forall₂ C es es') :
      Layer V C (.document es) (.document es')
  | raw (s : String) : Layer V C (.raw s) (.raw s)
  | filter {e e' : Expr} {calls calls' : List FilterCall} (input : C e e')
      (each : List.Forall₂ (FilterCall.Layer V C) calls calls') :
      Layer V C (.filter e calls) (.filter e' calls')
  | template {es es' : List Expr} (each : List.Forall₂ C es es') :
      Layer V C (.template es) (.template es')
  | templateRaw (s : String) : Layer V C (.templateRaw s) (.templateRaw s)
  | getter {host host' key key' : Expr} (first : C host host') (second : C key key')
      (name : key.ownName? = key'.ownName?) : Layer V C (.getter host key) (.getter host' key')
  | unary (op : UnaryOp) {e e' : Expr} (operand : C e e') : Layer V C (.unary op e) (.unary op e')
  | binary (op : BinaryOp) {a a' b b' : Expr} (first : C a a') (second : C b b') :
      Layer V C (.binary op a b) (.binary op a' b')
  | conditional {a a' b b' c c' : Expr} (test : C a a') (consequent : C b b')
      (alternate : C c c') : Layer V C (.conditional a b c) (.conditional a' b' c')
  | identifier (s : String) : Layer V C (.identifier s) (.identifier s)
  | literal (l : Literal) : Layer V C (.literal l) (.literal l)
  | number (x : Float) : Layer V C (.number x) (.number x)
  | text (s : String) : Layer V C (.text s) (.text s)
  | array {es es' : List Expr} (each : List.Forall₂ C es es') :
      Layer V C (.array es) (.array es')
  | object {entries entries' : List (Expr × Expr)}
      (each : List.Forall₂ (LayerEntry C) entries entries') :
      Layer V C (.object entries) (.object entries')
  | call {name : String} {es es' : List Expr} (known : V.callee name)
      (each : List.Forall₂ C es es') : Layer V C (.call name es) (.call name es')
  | sequence {es es' : List Expr} (each : List.Forall₂ C es es') :
      Layer V C (.sequence es) (.sequence es')

end Expr

section Refl

variable {V : Vocabulary} {C : Expr → Expr → Prop}

/-- The names that a node itself calls are known, and it is none of the nodes that are not
layers. -/
def Expr.Spoken (V : Vocabulary) : Expr → Prop
  | .call name _ => V.callee name
  | .filter _ calls => ∀ c ∈ calls, V.filter c.name
  | .island _ | .variable _ | .inNamespace _ _ | .function _ _ => False
  | _ => True

mutual

theorem FilterArg.Layer.refl : (a : FilterArg) → (∀ e ∈ a.exprs, C e e) → Layer C a a
  | .text s, _ => .text s
  | .expr e, same => .expr (same e List.mem_cons_self)
  | .mixed parts, same => .mixed (refls parts same)

theorem FilterArg.Layer.refls : (as : List FilterArg) → (∀ e ∈ allExprs as, C e e) →
    List.Forall₂ (Layer C) as as
  | [], _ => .nil
  | a :: as, same =>
    .cons (refl a fun e member => same e (List.mem_append_left _ member))
      (refls as fun e member => same e (List.mem_append_right _ member))

end

theorem Expr.Layer.refl {e : Expr} (spoken : e.Spoken V) (same : ∀ a ∈ e.parts, C a a) :
    Layer V C e e := by
  cases e with
  | document es => exact .document (List.forall₂_same.2 same)
  | raw s => exact .raw s
  | filter input calls =>
    refine .filter (same _ List.mem_cons_self) (List.forall₂_same.2 fun c member => ?_)
    have known := spoken c member
    obtain ⟨name, args⟩ := c
    refine .mk known (FilterArg.Layer.refls args fun e inside => same e ?_)
    exact List.mem_cons_of_mem _ (List.mem_flatMap.2 ⟨_, member, inside⟩)
  | template es => exact .template (List.forall₂_same.2 same)
  | templateRaw s => exact .templateRaw s
  | getter host key =>
    exact .getter (same _ (by simp [parts])) (same _ (by simp [parts])) rfl
  | unary op e => exact .unary op (same _ List.mem_cons_self)
  | binary op a b => exact .binary op (same _ (by simp [parts])) (same _ (by simp [parts]))
  | conditional a b c =>
    exact .conditional (same _ (by simp [parts])) (same _ (by simp [parts]))
      (same _ (by simp [parts]))
  | identifier s => exact .identifier s
  | literal l => exact .literal l
  | number x => exact .number x
  | text s => exact .text s
  | array es => exact .array (List.forall₂_same.2 same)
  | object entries =>
    refine .object (List.forall₂_same.2 fun entry member => ?_)
    exact .mk (same _ (List.mem_flatMap.2 ⟨entry, member, by simp⟩))
      (same _ (List.mem_flatMap.2 ⟨entry, member, by simp⟩))
  | call name es => exact .call spoken (List.forall₂_same.2 same)
  | sequence es => exact .sequence (List.forall₂_same.2 same)
  | island _ => exact spoken.elim
  | «variable» _ => exact spoken.elim
  | inNamespace _ _ => exact spoken.elim
  | function _ _ => exact spoken.elim

end Refl

section Imp

variable {V : Vocabulary} {C D : Expr → Expr → Prop}

theorem forall₂_imp_mem {α : Type} {R S : α → α → Prop} {l l' : List α}
    (weaker : ∀ a ∈ l, ∀ b, R a b → S a b) (h : List.Forall₂ R l l') : List.Forall₂ S l l' := by
  induction h with
  | nil => exact .nil
  | cons first _ ih =>
    exact .cons (weaker _ List.mem_cons_self _ first)
      (ih fun a member => weaker a (List.mem_cons_of_mem _ member))

mutual

theorem FilterArg.Layer.imp : {a a' : FilterArg} → (∀ e ∈ a.exprs, ∀ e', C e e' → D e e') →
    Layer C a a' → Layer D a a'
  | _, _, _, .text s => .text s
  | _, _, weaker, .expr h => .expr (weaker _ List.mem_cons_self _ h)
  | _, _, weaker, .mixed each => .mixed (imps weaker each)

theorem FilterArg.Layer.imps : {as as' : List FilterArg} →
    (∀ e ∈ allExprs as, ∀ e', C e e' → D e e') → List.Forall₂ (Layer C) as as' →
    List.Forall₂ (Layer D) as as'
  | _, _, _, .nil => .nil
  | _, _, weaker, .cons first rest =>
    .cons (first.imp fun e member => weaker e (List.mem_append_left _ member))
      (imps (fun e member => weaker e (List.mem_append_right _ member)) rest)

end

/-- Only the parts of the first node matter. -/
theorem Expr.Layer.imp {e e' : Expr} (weaker : ∀ a ∈ e.parts, ∀ a', C a a' → D a a')
    (h : Layer V C e e') : Layer V D e e' := by
  cases h with
  | document each => exact .document (forall₂_imp_mem weaker each)
  | raw s => exact .raw s
  | filter input each =>
    refine .filter (weaker _ List.mem_cons_self _ input) (forall₂_imp_mem ?_ each)
    rintro c member c' ⟨known, args⟩
    refine .mk known (FilterArg.Layer.imps (fun e inside => weaker e ?_) args)
    exact List.mem_cons_of_mem _ (List.mem_flatMap.2 ⟨_, member, inside⟩)
  | template each => exact .template (forall₂_imp_mem weaker each)
  | templateRaw s => exact .templateRaw s
  | getter first second name =>
    exact .getter (weaker _ (by simp [parts]) _ first) (weaker _ (by simp [parts]) _ second) name
  | unary op operand => exact .unary op (weaker _ List.mem_cons_self _ operand)
  | binary op first second =>
    exact .binary op (weaker _ (by simp [parts]) _ first) (weaker _ (by simp [parts]) _ second)
  | conditional test consequent alternate =>
    exact .conditional (weaker _ (by simp [parts]) _ test)
      (weaker _ (by simp [parts]) _ consequent) (weaker _ (by simp [parts]) _ alternate)
  | identifier s => exact .identifier s
  | literal l => exact .literal l
  | number x => exact .number x
  | text s => exact .text s
  | array each => exact .array (forall₂_imp_mem weaker each)
  | object each =>
    refine .object (forall₂_imp_mem ?_ each)
    rintro entry member entry' ⟨first, second⟩
    exact ⟨weaker _ (List.mem_flatMap.2 ⟨_, member, by simp⟩) _ first,
      weaker _ (List.mem_flatMap.2 ⟨_, member, by simp⟩) _ second⟩
  | call known each => exact .call known (forall₂_imp_mem weaker each)
  | sequence each => exact .sequence (forall₂_imp_mem weaker each)

end Imp

section Flip

variable {V : Vocabulary} {C : Expr → Expr → Prop}

mutual

theorem FilterArg.Layer.flip : {a a' : FilterArg} → Layer C a a' → Layer (flip C) a' a
  | _, _, .text s => .text s
  | _, _, .expr h => .expr h
  | _, _, .mixed each => .mixed (flips each)

theorem FilterArg.Layer.flips : {as as' : List FilterArg} → List.Forall₂ (Layer C) as as' →
    List.Forall₂ (Layer (Function.swap C)) as' as
  | _, _, .nil => .nil
  | _, _, .cons first rest => .cons first.flip (flips rest)

end

theorem Expr.Layer.flip {e e' : Expr} (h : Layer V C e e') : Layer V (flip C) e' e := by
  have all {es es' : List Expr} (each : List.Forall₂ C es es') :
      List.Forall₂ (Function.swap C) es' es := each.flip
  have chain {c c' : FilterCall} (h : FilterCall.Layer V C c c') :
      FilterCall.Layer V (Function.swap C) c' c := by
    obtain ⟨known, each⟩ := h
    exact .mk known (FilterArg.Layer.flips each)
  cases h with
  | document each => exact .document (all each)
  | raw s => exact .raw s
  | filter input each => exact .filter input (List.Forall₂.flip (each.imp fun _ _ h => chain h))
  | template each => exact .template (all each)
  | templateRaw s => exact .templateRaw s
  | getter first second name => exact .getter first second name.symm
  | unary op operand => exact .unary op operand
  | binary op first second => exact .binary op first second
  | conditional test consequent alternate => exact .conditional test consequent alternate
  | identifier s => exact .identifier s
  | literal l => exact .literal l
  | number x => exact .number x
  | text s => exact .text s
  | array each => exact .array (all each)
  | object each => exact .object (List.Forall₂.flip (each.imp fun _ _ ⟨key, value⟩ => ⟨key, value⟩))
  | call known each => exact .call known (all each)
  | sequence each => exact .sequence (all each)

end Flip

end TemplateFormula
