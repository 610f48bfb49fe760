import Mathlib.Data.List.Forall2
import TemplateFormula.Proofs.Relabeling.Value

/-!
# Values that are alike

Two values are alike if they differ in their functions only, and functions in the same place are
related. Two alike values are one value seen in two ways: a function that stands for a related pair
is seen as the one or as the other. So whatever operations do alike on other functions in the same
places, they do on values that are alike.
-/

namespace TemplateFormula

namespace Value

/-- Values that differ only in functions, which are related. -/
inductive Like (R : Closure → Closure → Prop) : Value → Value → Prop
  | undefined : Like R undefined undefined
  | null : Like R null null
  | boolean (b : Bool) : Like R (boolean b) (boolean b)
  | number (x : Float) : Like R (number x) (number x)
  | text (s : String) : Like R (text s) (text s)
  | array {vs ws : List Value} (items : List.Forall₂ (Like R) vs ws) :
      Like R (array vs) (array ws)
  | object {ms ns : Members} (names : ms.map Prod.fst = ns.map Prod.fst)
      (values : List.Forall₂ (Like R) (ms.map Prod.snd) (ns.map Prod.snd)) :
      Like R (object ms) (object ns)
  | date (s : Calendar.Stamp) : Like R (date s) (date s)
  | function {f g : Closure} (related : R f g) : Like R (function f) (function g)

/-- Two values that are views of one. -/
def Seen (κ κ' : Closure → Closure) (v w : Value) : Prop :=
  ∃ u : Value, v = u.relabel κ ∧ w = u.relabel κ'

end Value

theorem Members.relabel_eq_of_map {κ : Closure → Closure} {ms ns : Members}
    (names : ms.map Prod.fst = ns.map Prod.fst)
    (values : ms.map Prod.snd = (ns.map Prod.snd).map (Value.relabel κ)) :
    ms = ns.relabel κ := by
  induction ms generalizing ns with
  | nil =>
    cases ns with
    | nil => rfl
    | cons n ns => cases names
  | cons m ms ih =>
    cases ns with
    | nil => cases names
    | cons n ns =>
      obtain ⟨name, names⟩ := List.cons.inj names
      obtain ⟨value, values⟩ := List.cons.inj values
      rw [relabel_cons, ih names values, ← name, ← value]

namespace Closure

/-- A function without parameters that gives nothing. -/
def blank (id : Nat) : Closure := ⟨id, [], .literal .undefined⟩

/-- A relation between functions of one number, which relates a blank function of every number. -/
structure Pairs (R : Closure → Closure → Prop) : Prop where
  id_eq : ∀ {f g}, R f g → f.id = g.id
  blank : ∀ i, R (blank i) (blank i)

/-- A function that stands for two. -/
def both (f g : Closure) : Closure :=
  ⟨f.id, [], .sequence [.function f.params f.body, .function g.params g.body]⟩

variable {R : Closure → Closure → Prop}

open scoped Classical in
variable (R) in
/-- The related functions that a function stands for, if it stands for any. -/
noncomputable def sides (h : Closure) : Closure × Closure :=
  if pair : ∃ p : Closure × Closure, R p.1 p.2 ∧ both p.1 p.2 = h then pair.choose
  else (blank h.id, blank h.id)

variable (R) in
noncomputable def left (h : Closure) : Closure := (sides R h).1

variable (R) in
noncomputable def right (h : Closure) : Closure := (sides R h).2

theorem left_id (h : Closure) : (left R h).id = h.id := by
  unfold left sides
  split
  · next pair =>
    have same : (both pair.choose.1 pair.choose.2).id = h.id := by rw [pair.choose_spec.2]
    exact same
  · rfl

theorem left_faithful : Faithful (left R) := by
  intro f g
  rw [left_id, left_id]

namespace Pairs

variable (pairs : Pairs R)
include pairs

theorem sides_related (h : Closure) : R (left R h) (right R h) := by
  unfold left right sides
  split
  · next pair => exact pair.choose_spec.1
  · exact pairs.blank h.id

theorem right_id (h : Closure) : (right R h).id = h.id :=
  (pairs.id_eq (pairs.sides_related h)).symm.trans (left_id h)

theorem right_faithful : Faithful (right R) := by
  intro f g
  rw [pairs.right_id, pairs.right_id]

theorem sides_both {f g : Closure} (related : R f g) : sides R (both f g) = (f, g) := by
  have pair : ∃ p : Closure × Closure, R p.1 p.2 ∧ both p.1 p.2 = both f g := ⟨(f, g), related, rfl⟩
  rw [sides, dif_pos pair]
  obtain ⟨own, stands⟩ := pair.choose_spec
  generalize pair.choose = p at own stands
  obtain ⟨⟨i, ps, b⟩, ⟨j, qs, d⟩⟩ := p
  obtain ⟨i', ps', b'⟩ := f
  obtain ⟨j', qs', d'⟩ := g
  have i_eq : i = j := pairs.id_eq own
  have i'_eq : i' = j' := pairs.id_eq related
  simp only [both, Closure.mk.injEq, Expr.sequence.injEq, List.cons.injEq, Expr.function.injEq,
    and_true, true_and] at stands
  obtain ⟨rfl, ⟨rfl, rfl⟩, rfl, rfl⟩ := stands
  subst i_eq i'_eq
  rfl

theorem exists_sides {f g : Closure} (related : R f g) : ∃ h, left R h = f ∧ right R h = g := by
  refine ⟨both f g, ?_⟩
  rw [left, right, pairs.sides_both related]
  exact ⟨rfl, rfl⟩

end Pairs

end Closure

namespace Value

open Closure (Pairs left right)

variable {R : Closure → Closure → Prop}

theorem FunctionFree.seen {v : Value} (free : v.FunctionFree) (κ κ' : Closure → Closure) :
    Seen κ κ' v v := ⟨v, (free κ).symm, (free κ').symm⟩

/-- Views of the values in a list are views of the list. -/
theorem exists_views {κ κ' : Closure → Closure} {vs ws : List Value}
    (seen : List.Forall₂ (Seen κ κ') vs ws) :
    ∃ us : List Value, vs = us.map (relabel κ) ∧ ws = us.map (relabel κ') := by
  induction seen with
  | nil => exact ⟨[], rfl, rfl⟩
  | cons first _ ih =>
    obtain ⟨u, rfl, rfl⟩ := first
    obtain ⟨us, rfl, rfl⟩ := ih
    exact ⟨u :: us, rfl, rfl⟩

theorem seen_of_like (pairs : Pairs R) : (v : Value) → (w : Value) → Like R v w →
    Seen (left R) (right R) v w := by
  intro v
  induction v using nested with
  | array vs ih =>
    rintro _ ⟨⟩
    next ws items =>
    have seen : List.Forall₂ (Seen (left R) (right R)) vs ws :=
      List.forall₂_iff_zip.2 ⟨items.length_eq, fun member =>
        ih _ (List.of_mem_zip member).1 _ ((List.forall₂_iff_zip.1 items).2 member)⟩
    obtain ⟨us, rfl, rfl⟩ := exists_views seen
    exact ⟨.array us, (relabel_array _ us).symm, (relabel_array _ us).symm⟩
  | object ms ih =>
    rintro _ ⟨⟩
    next ns names values =>
    have seen : List.Forall₂ (Seen (left R) (right R)) (ms.map Prod.snd) (ns.map Prod.snd) := by
      refine List.forall₂_iff_zip.2 ⟨values.length_eq, fun member => ?_⟩
      obtain ⟨m, hm, rfl⟩ := List.mem_map.1 (List.of_mem_zip member).1
      exact ih m hm _ ((List.forall₂_iff_zip.1 values).2 member)
    obtain ⟨us, firsts, seconds⟩ := exists_views seen
    have length : (ms.map Prod.fst).length = us.length := by
      rw [List.length_map, ← List.length_map (f := Prod.snd), firsts, List.length_map]
    -- The one value behind both has their names.
    let both : Members := (ms.map Prod.fst).zip us
    have names_eq : both.map Prod.fst = ms.map Prod.fst := List.map_fst_zip (Nat.le_of_eq length)
    have values_eq : both.map Prod.snd = us := List.map_snd_zip (Nat.le_of_eq length.symm)
    refine ⟨.object both, ?_, ?_⟩
    · rw [relabel_object, ← Members.relabel_eq_of_map names_eq.symm (by rw [values_eq, firsts])]
    · rw [relabel_object, ← Members.relabel_eq_of_map (names_eq.trans names).symm
        (by rw [values_eq, seconds])]
  | function f =>
    rintro _ ⟨⟩
    next g related =>
    obtain ⟨h, rfl, rfl⟩ := pairs.exists_sides related
    exact ⟨.function h, rfl, rfl⟩
  | undefined => rintro _ ⟨⟩; exact ⟨.undefined, rfl, rfl⟩
  | null => rintro _ ⟨⟩; exact ⟨.null, rfl, rfl⟩
  | boolean b => rintro _ ⟨⟩; exact ⟨.boolean b, rfl, rfl⟩
  | number x => rintro _ ⟨⟩; exact ⟨.number x, rfl, rfl⟩
  | text s => rintro _ ⟨⟩; exact ⟨.text s, rfl, rfl⟩
  | date s => rintro _ ⟨⟩; exact ⟨.date s, rfl, rfl⟩

theorem like_of_related {κ κ' : Closure → Closure} (related : ∀ f, R (κ f) (κ' f)) (u : Value) :
    Like R (u.relabel κ) (u.relabel κ') := by
  have each {items : List Value} (ih : ∀ v ∈ items, Like R (v.relabel κ) (v.relabel κ')) :
      List.Forall₂ (Like R) (items.map (relabel κ)) (items.map (relabel κ')) := by
    rw [List.forall₂_map_left_iff, List.forall₂_map_right_iff]
    exact List.forall₂_same.2 ih
  induction u using nested with
  | array items ih =>
    rw [relabel_array, relabel_array]
    exact .array (each ih)
  | object ms ih =>
    rw [relabel_object, relabel_object]
    have names (κ : Closure → Closure) : (ms.relabel κ).map Prod.fst = ms.map Prod.fst := by
      rw [Members.relabel, List.map_map]
      rfl
    have values (κ : Closure → Closure) :
        (ms.relabel κ).map Prod.snd = (ms.map Prod.snd).map (relabel κ) := by
      rw [Members.relabel, List.map_map, List.map_map]
      rfl
    refine .object ((names κ).trans (names κ').symm) ?_
    rw [values, values]
    refine each fun v hv => ?_
    obtain ⟨m, hm, rfl⟩ := List.mem_map.1 hv
    exact ih m hm
  | function f => exact .function (related f)
  | undefined => exact .undefined
  | null => exact .null
  | boolean b => exact .boolean b
  | number x => exact .number x
  | text s => exact .text s
  | date s => exact .date s

theorem like_iff_seen (pairs : Pairs R) {v w : Value} :
    Like R v w ↔ Seen (left R) (right R) v w := by
  constructor
  · exact seen_of_like pairs v w
  · rintro ⟨u, rfl, rfl⟩
    exact like_of_related pairs.sides_related u

theorem FunctionFree.like {v : Value} (free : v.FunctionFree) (pairs : Pairs R) : Like R v v :=
  (like_iff_seen pairs).2 (free.seen _ _)

theorem Like.mono {S : Closure → Closure → Prop} (pairs : Pairs R) (weaker : ∀ f g, R f g → S f g)
    {v w : Value} (like : Like R v w) : Like S v w := by
  obtain ⟨u, rfl, rfl⟩ := (like_iff_seen pairs).1 like
  exact like_of_related (fun f => weaker _ _ (pairs.sides_related f)) u

theorem Like.eq {v w : Value} (like : Like Eq v w) : v = w := by
  have pairs : Pairs (Eq (α := Closure)) := ⟨congrArg Closure.id, fun _ => rfl⟩
  obtain ⟨u, rfl, rfl⟩ := (like_iff_seen pairs).1 like
  rw [funext pairs.sides_related]

theorem Like.flip {S : Closure → Closure → Prop} (pairs : Pairs R)
    (weaker : ∀ f g, R f g → S g f) {v w : Value} (like : Like R v w) : Like S w v := by
  obtain ⟨u, rfl, rfl⟩ := (like_iff_seen pairs).1 like
  exact like_of_related (fun f => weaker _ _ (pairs.sides_related f)) u

theorem like_refl (same : ∀ f, R f f) (v : Value) : Like R v v := by
  have like : Like R (v.relabel id) (v.relabel id) := like_of_related same v
  rwa [relabel_id] at like

end Value

end TemplateFormula
