import TemplateFormula.Proofs.Number.Order
import TemplateFormula.Proofs.Relabeling.Value
import TemplateFormula.Proofs.Value.Members

/-!
# Coherence of the comparisons

Strict equality is equality of contents: it is symmetric and transitive, and only a NaN in a value
makes the value differ from itself. Loose equality takes in strict equality and is symmetric as
well, and the order of two values is the reverse of their order the other way round.
-/

namespace TemplateFormula

namespace Value

/-- Values with equal contents: numbers are compared as doubles, and functions by identity. -/
inductive Equal : Value → Value → Prop
  | undefined : Equal undefined undefined
  | null : Equal null null
  | boolean (b : Bool) : Equal (boolean b) (boolean b)
  | number {x y : Float} (same : (x == y) = true) : Equal (number x) (number y)
  | text (s : String) : Equal (text s) (text s)
  | array {vs ws : List Value} (items : List.Forall₂ Equal vs ws) : Equal (array vs) (array ws)
  | object {ms ns : Members} (names : ms.map Prod.fst = ns.map Prod.fst)
      (values : List.Forall₂ Equal (ms.map Prod.snd) (ns.map Prod.snd)) :
      Equal (object ms) (object ns)
  | date (s : Calendar.Stamp) : Equal (date s) (date s)
  | function {f g : Closure} (same : f.id = g.id) : Equal (function f) (function g)

/-- A NaN is the value or stands somewhere in it. -/
inductive HasNaN : Value → Prop
  | number {x : Float} (nan : x.isNaN = true) : HasNaN (number x)
  | array {items : List Value} {v : Value} (member : v ∈ items) (nan : HasNaN v) :
      HasNaN (array items)
  | object {ms : Members} {m : String × Value} (member : m ∈ ms) (nan : HasNaN m.2) :
      HasNaN (object ms)

section Equal

variable {u v w : Value}

theorem forall₂_symm {α : Type} {P : α → α → Prop} {vs ws : List α}
    (each : ∀ v ∈ vs, ∀ w, P v w → P w v) (h : List.Forall₂ P vs ws) : List.Forall₂ P ws vs := by
  induction h with
  | nil => exact .nil
  | cons first _ ih =>
    obtain ⟨head, tail⟩ := List.forall_mem_cons.1 each
    exact .cons (head _ first) (ih tail)

theorem forall₂_trans {α : Type} {P : α → α → Prop} {us vs ws : List α}
    (each : ∀ u ∈ us, ∀ v w, P u v → P v w → P u w) (first : List.Forall₂ P us vs)
    (second : List.Forall₂ P vs ws) : List.Forall₂ P us ws := by
  induction first generalizing ws with
  | nil => exact second
  | cons start _ ih =>
    obtain ⟨head, tail⟩ := List.forall_mem_cons.1 each
    cases second with
    | cons next second => exact .cons (head _ _ start next) (ih tail second)

theorem exists_of_forall₂ {α : Type} {P : α → α → Prop} {vs ws : List α}
    (h : List.Forall₂ P vs ws) {v : α} (member : v ∈ vs) : ∃ w ∈ ws, P v w := by
  induction h with
  | nil => cases member
  | cons first _ ih =>
    rcases List.mem_cons.1 member with rfl | member
    · exact ⟨_, List.mem_cons_self, first⟩
    · obtain ⟨w, there, pair⟩ := ih member
      exact ⟨w, List.mem_cons_of_mem _ there, pair⟩

theorem equal_array_iff {vs ws : List Value} :
    Equal (array vs) (array ws) ↔ List.Forall₂ Equal vs ws :=
  ⟨fun | .array items => items, .array⟩

/-- Members with one key and equal values. -/
def EqualMembers (m n : String × Value) : Prop := m.1 = n.1 ∧ Equal m.2 n.2

theorem equal_object_iff {ms ns : Members} :
    Equal (object ms) (object ns) ↔ List.Forall₂ EqualMembers ms ns := by
  have parts : Equal (object ms) (object ns) ↔ ms.map Prod.fst = ns.map Prod.fst ∧
      List.Forall₂ Equal (ms.map Prod.snd) (ns.map Prod.snd) :=
    ⟨fun | .object names values => ⟨names, values⟩, fun h => .object h.1 h.2⟩
  rw [parts, ← List.forall₂_eq_eq_eq]
  simp only [List.forall₂_map_left_iff, List.forall₂_map_right_iff]
  constructor
  · rintro ⟨names, values⟩
    clear parts
    induction names with
    | nil => exact .nil
    | cons name _ ih =>
      cases values with
      | cons value values => exact .cons ⟨name, value⟩ (ih values)
  · intro h
    exact ⟨h.imp fun _ _ => And.left, h.imp fun _ _ => And.right⟩

theorem Equal.symm (h : Equal v w) : Equal w v := by
  induction v using nested generalizing w with
  | array vs ih =>
    cases h with
    | array items => exact .array (forall₂_symm (fun v member _ => ih v member) items)
  | object ms ih =>
    cases h with
    | object names values =>
      have members := equal_object_iff.1 (.object names values)
      refine equal_object_iff.2 (forall₂_symm (fun m member n => ?_) members)
      exact And.imp Eq.symm (ih m member)
  | number x =>
    cases h with
    | number same => exact .number (BEq.symm same)
  | function f =>
    cases h with
    | function same => exact .function same.symm
  | _ =>
    cases h
    constructor

theorem Equal.trans (first : Equal u v) (second : Equal v w) : Equal u w := by
  induction u using nested generalizing v w with
  | array us ih =>
    cases first with
    | array items =>
      cases second with
      | array more => exact .array (forall₂_trans (fun u member _ _ => ih u member) items more)
  | object ls ih =>
    cases first with
    | object names values =>
      have members := equal_object_iff.1 (.object names values)
      cases second with
      | object names' more =>
        have others := equal_object_iff.1 (.object names' more)
        refine equal_object_iff.2 (forall₂_trans (fun l member m n one two => ?_) members others)
        exact ⟨one.1.trans two.1, ih l member one.2 two.2⟩
  | number x =>
    cases first with
    | number same =>
      cases second with
      | number same' => exact .number (BEq.trans same same')
  | function f =>
    cases first with
    | function same =>
      cases second with
      | function same' => exact .function (same.trans same')
  | _ =>
    cases first
    exact second

theorem hasNaN_array_iff {items : List Value} :
    HasNaN (array items) ↔ ∃ v ∈ items, HasNaN v :=
  ⟨fun | .array member nan => ⟨_, member, nan⟩, fun ⟨_, member, nan⟩ => .array member nan⟩

theorem hasNaN_object_iff {ms : Members} : HasNaN (object ms) ↔ ∃ m ∈ ms, HasNaN m.2 :=
  ⟨fun | .object member nan => ⟨_, member, nan⟩, fun ⟨_, member, nan⟩ => .object member nan⟩

theorem equal_self_iff (v : Value) : Equal v v ↔ ¬ v.HasNaN := by
  induction v using nested with
  | number x =>
    have nan : HasNaN (number x) ↔ x.isNaN = true := ⟨fun | .number nan => nan, .number⟩
    have same : Equal (number x) (number x) ↔ (x == x) = true :=
      ⟨fun | .number same => same, .number⟩
    rw [nan, same, Float.beq_self_iff, Float.isNaN_eq_decide_eq_nan, decide_eq_true_eq]
  | array items ih =>
    rw [equal_array_iff, List.forall₂_same, hasNaN_array_iff]
    push Not
    exact forall₂_congr ih
  | object ms ih =>
    rw [equal_object_iff, List.forall₂_same, hasNaN_object_iff]
    push Not
    exact forall₂_congr fun m member => (and_iff_right rfl).trans (ih m member)
  | function f => exact iff_of_true (.function rfl) nofun
  | _ => exact iff_of_true (by constructor) nofun

end Equal

section Strict

variable {v w : Value}

theorem strictEqItems_iff {vs : List Value}
    (each : ∀ v ∈ vs, ∀ w, v.strictEq w = true ↔ Equal v w) (ws : List Value) :
    strictEqItems vs ws = true ↔ List.Forall₂ Equal vs ws := by
  induction vs generalizing ws with
  | nil => cases ws <;> simp [strictEqItems]
  | cons v vs ih =>
    obtain ⟨head, tail⟩ := List.forall_mem_cons.1 each
    cases ws with
    | nil => simp [strictEqItems]
    | cons w ws => rw [strictEqItems, Bool.and_eq_true, head, ih tail, List.forall₂_cons]

theorem strictEqMembers_iff {ms : Members}
    (each : ∀ m ∈ ms, ∀ w, m.2.strictEq w = true ↔ Equal m.2 w) (ns : Members) :
    strictEqMembers ms ns = true ↔ List.Forall₂ EqualMembers ms ns := by
  induction ms generalizing ns with
  | nil => cases ns <;> simp [strictEqMembers]
  | cons m ms ih =>
    obtain ⟨head, tail⟩ := List.forall_mem_cons.1 each
    cases ns with
    | nil => simp [strictEqMembers]
    | cons n ns =>
      rw [strictEqMembers, Bool.and_eq_true, Bool.and_eq_true, beq_iff_eq, head, ih tail,
        List.forall₂_cons, EqualMembers]

theorem strictEq_iff (v w : Value) : v.strictEq w = true ↔ Equal v w := by
  induction v using nested generalizing w with
  | undefined =>
    cases w with
    | undefined => exact iff_of_true rfl .undefined
    | _ => exact iff_of_false nofun nofun
  | null =>
    cases w with
    | null => exact iff_of_true rfl .null
    | _ => exact iff_of_false nofun nofun
  | boolean b =>
    cases w with
    | boolean c =>
      exact ⟨fun same => beq_iff_eq.1 same ▸ .boolean b, fun | .boolean _ => beq_self_eq_true b⟩
    | _ => exact iff_of_false nofun nofun
  | number x =>
    cases w with
    | number y => exact ⟨.number, fun | .number same => same⟩
    | _ => exact iff_of_false nofun nofun
  | text s =>
    cases w with
    | text t =>
      exact ⟨fun same => beq_iff_eq.1 same ▸ .text s, fun | .text _ => beq_self_eq_true s⟩
    | _ => exact iff_of_false nofun nofun
  | array vs ih =>
    cases w with
    | array ws => rw [strictEq, equal_array_iff, strictEqItems_iff ih]
    | _ => exact iff_of_false nofun nofun
  | object ms ih =>
    cases w with
    | object ns => rw [strictEq, equal_object_iff, strictEqMembers_iff ih]
    | _ => exact iff_of_false nofun nofun
  | date s =>
    cases w with
    | date t =>
      exact ⟨fun same => beq_iff_eq.1 same ▸ .date s, fun | .date _ => beq_self_eq_true s⟩
    | _ => exact iff_of_false nofun nofun
  | function f =>
    cases w with
    | function g =>
      exact ⟨fun same => .function (beq_iff_eq.1 same), fun | .function same => beq_iff_eq.2 same⟩
    | _ => exact iff_of_false nofun nofun

theorem strictEq_comm (v w : Value) : v.strictEq w = w.strictEq v := by
  rw [Bool.eq_iff_iff, strictEq_iff, strictEq_iff]
  exact ⟨Equal.symm, Equal.symm⟩

theorem strictEq_trans {u v w : Value} (first : u.strictEq v = true) (second : v.strictEq w = true) :
    u.strictEq w = true := by
  rw [strictEq_iff] at *
  exact first.trans second

theorem strictEq_self_iff (v : Value) : v.strictEq v = true ↔ ¬ v.HasNaN := by
  rw [strictEq_iff, equal_self_iff]

/-- The members of one object are found in the other, which has no more. -/
theorem strictEq_object_iff {ms ns : Members} (hm : ms.Ascending) (hn : ns.Ascending) :
    (object ms).strictEq (object ns) = true ↔
      ms.length = ns.length ∧ ∀ m ∈ ms, ∃ w, ns.get? m.1 = some w ∧ m.2.strictEq w = true := by
  simp only [strictEq_iff]
  rw [equal_object_iff]
  constructor
  · intro pairs
    refine ⟨pairs.length_eq, fun m member => ?_⟩
    obtain ⟨n, other, name, value⟩ := exists_of_forall₂ pairs member
    exact ⟨n.2, name ▸ hn.get?_of_mem other, value⟩
  · rintro ⟨length, found⟩
    have names : List.Forall₂ (fun m n : String × Value => m.1 = n.1) ms ns := by
      rw [← List.forall₂_map_right_iff, ← List.forall₂_map_left_iff, List.forall₂_eq_eq_eq]
      refine hm.names_eq hn length fun m member => ?_
      obtain ⟨w, there, _⟩ := found m member
      exact List.mem_map.2 ⟨_, Members.mem_of_get? there, rfl⟩
    refine List.forall₂_iff_zip.2 ⟨length, fun {m n} member => ?_⟩
    have name : m.1 = n.1 := (List.forall₂_iff_zip.1 names).2 member
    obtain ⟨own, other⟩ := List.of_mem_zip member
    obtain ⟨w, there, value⟩ := found m own
    have same : some w = some n.2 := by rw [← there, name, hn.get?_of_mem other]
    exact ⟨name, Option.some.inj same ▸ value⟩

theorem FunctionFree.item {items : List Value} (free : (array items).FunctionFree)
    (member : v ∈ items) : v.FunctionFree := by
  intro κ
  have same := free κ
  rw [relabel_array, array.injEq] at same
  exact List.map_inj_left.1 (same.trans (List.map_id items).symm) v member

theorem FunctionFree.member {ms : Members} (free : (object ms).FunctionFree)
    {m : String × Value} (member : m ∈ ms) : m.2.FunctionFree := by
  intro κ
  have same := free κ
  rw [relabel_object, object.injEq, Members.relabel] at same
  exact congrArg Prod.snd (List.map_inj_left.1 (same.trans (List.map_id ms).symm) m member)

theorem not_functionFree (f : Closure) : ¬ (function f).FunctionFree := by
  intro free
  have same := free fun g => { g with id := g.id + 1 }
  rw [relabel_function, function.injEq] at same
  exact Nat.succ_ne_self _ (congrArg Closure.id same)

theorem sameItems_eq {vs : List Value} (each : ∀ v ∈ vs, ∀ w, v.same w = v.strictEq w)
    (ws : List Value) : sameItems vs ws = strictEqItems vs ws := by
  induction vs generalizing ws with
  | nil => cases ws <;> rfl
  | cons v vs ih =>
    obtain ⟨head, tail⟩ := List.forall_mem_cons.1 each
    cases ws with
    | nil => rfl
    | cons w ws => rw [sameItems, strictEqItems, head, ih tail]

theorem sameMembers_eq {ms : Members} (each : ∀ m ∈ ms, ∀ w, m.2.same w = m.2.strictEq w)
    (ns : Members) : sameMembers ms ns = strictEqMembers ms ns := by
  induction ms generalizing ns with
  | nil => cases ns <;> rfl
  | cons m ms ih =>
    obtain ⟨head, tail⟩ := List.forall_mem_cons.1 each
    cases ns with
    | nil => rfl
    | cons n ns => rw [sameMembers, strictEqMembers, head, ih tail]

/-- The two equalities differ in functions only. -/
theorem FunctionFree.same_eq (free : v.FunctionFree) (w : Value) : v.same w = v.strictEq w := by
  induction v using nested generalizing w with
  | array vs ih =>
    cases w with
    | array ws => rw [same, strictEq, sameItems_eq fun v member => ih v member (free.item member)]
    | _ => rfl
  | object ms ih =>
    cases w with
    | object ns =>
      rw [same, strictEq, sameMembers_eq fun m member => ih m member (free.member member)]
    | _ => rfl
  | function f => exact absurd free (not_functionFree f)
  | _ => cases w <;> rfl

end Strict

section Loose

variable (zone : Calendar.Zone) (a b : Value)

theorem sameType_of_strictEq {a b : Value} (h : a.strictEq b = true) : a.sameType b = true := by
  cases (strictEq_iff a b).1 h <;> rfl

theorem looseEq_of_strictEq {a b : Value} (h : a.strictEq b = true) :
    a.looseEq zone b = true := by
  rw [looseEq, if_pos (sameType_of_strictEq h), h]

theorem Scalar.agree_comm (s t : Scalar) : s.agree t = t.agree s := by
  cases s with
  | number x =>
    cases t with
    | number y => exact BEq.comm
    | _ => rfl
  | text cs =>
    cases t with
    | text ds => exact BEq.comm
    | _ => rfl
  | opaqueValue => cases t <;> rfl

theorem looseEq_comm : a.looseEq zone b = b.looseEq zone a := by
  have types : a.sameType b = b.sameType a := BEq.comm
  rw [looseEq, looseEq, types, strictEq_comm, Bool.or_comm a.isNullish, Bool.and_comm a.isNullish,
    Bool.and_comm a.isContainer, Scalar.agree_comm]

end Loose

section Order

variable (zone : Calendar.Zone) (a b : Value)

theorem order?_swap : (a.order? zone b).map Ordering.swap = b.order? zone a := by
  unfold order?
  generalize a.primitive zone = v
  generalize b.primitive zone = w
  cases v with
  | text s =>
    cases w with
    | text t => exact congrArg some (Text.order_swap s.toList t.toList)
    | _ => exact Number.orderNumbers?_swap _ _
  | _ => cases w <;> exact Number.orderNumbers?_swap _ _

theorem ordered_swap (accepts : Ordering → Bool) :
    a.ordered zone b accepts = b.ordered zone a (accepts ∘ Ordering.swap) := by
  rw [ordered, ordered, ← order?_swap zone b a, Option.any_map]
  rfl

end Order

/-- Strict equality is an equality of contents from which only a NaN is excepted, and it finds the
members of one object in the other. Loose equality takes it in, and neither loose equality nor the
order prefers a side. -/
theorem comparisons_coherent (zone : Calendar.Zone) (a b c : Value) :
    a.strictEq b = b.strictEq a ∧
    (a.strictEq b = true → b.strictEq c = true → a.strictEq c = true) ∧
    (a.strictEq a = true ↔ ¬ a.HasNaN) ∧
    (a.FunctionFree → a.strictEq b = (a == b)) ∧
    (∀ ms ns : Members, ms.Ascending → ns.Ascending →
      ((object ms).strictEq (object ns) = true ↔
        ms.length = ns.length ∧ ∀ m ∈ ms, ∃ w, ns.get? m.1 = some w ∧ m.2.strictEq w = true)) ∧
    (a.strictEq b = true → a.looseEq zone b = true) ∧
    a.looseEq zone b = b.looseEq zone a ∧
    (a.order? zone b).map Ordering.swap = b.order? zone a ∧
    BinaryOp.lt.apply zone a b = BinaryOp.gt.apply zone b a ∧
    BinaryOp.le.apply zone a b = BinaryOp.ge.apply zone b a := by
  have reversed (accepts accepts' : Ordering → Bool) (swapped : ∀ o, accepts o.swap = accepts' o) :
      a.ordered zone b accepts = b.ordered zone a accepts' := by
    rw [ordered_swap, ← funext swapped]
    rfl
  refine ⟨strictEq_comm a b, fun first second => ?_, ?_, fun free => (free.same_eq b).symm,
    fun ms ns => strictEq_object_iff, looseEq_of_strictEq zone, looseEq_comm zone a b,
    order?_swap zone a b, reversed _ _ ?_, reversed _ _ ?_⟩
  · rw [strictEq_iff] at first second ⊢
    exact first.trans second
  · rw [strictEq_iff, equal_self_iff]
  · decide
  · decide

def ledger (x : Float) : Value :=
  object [("items", array [number x, null]), ("name", text "1")]

theorem comparisons_coherent_zeros :
    (ledger 0).FunctionFree ∧ (ledger 0).strictEq (ledger (-0)) = true ∧
    (ledger 0).strictEq (ledger 0) = true ∧ (ledger 0 == ledger (-0)) = true ∧
    (ledger 0).looseEq ⟨60⟩ (ledger (-0)) = true := by
  have free : (ledger 0).FunctionFree := fun κ => by simp [ledger, Members.relabel]
  have same : (ledger 0).strictEq (ledger (-0)) = true := rfl
  obtain ⟨symm, trans, _, structural, _, loose, _⟩ :=
    comparisons_coherent ⟨60⟩ (ledger 0) (ledger (-0)) (ledger 0)
  exact ⟨free, same, trans same (symm ▸ same), structural free ▸ same, loose same⟩

end Value

end TemplateFormula
