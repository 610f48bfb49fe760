import TemplateFormula.Filter.Collection
import TemplateFormula.Proofs.Value.Comparison

/-!
# The first items of their identities

Strict equality is symmetric and transitive, so an item that equals one left out before it equals
the one for which that was left out. Hence an item is kept just when no item before it has its
identity, be that one kept or not. A NaN in an identity makes it differ from all others.
-/

namespace TemplateFormula.Filter

open Argument

/-- What tells items apart: the value at the path that is asked for, or the item itself. -/
def itemIdentity (zone : Calendar.Zone) (args : List Value) : Value → Value :=
  match ((given? args 0).map (Value.chars zone)).filter (!·.isEmpty) with
  | some path => Path.resolve path
  | none => id

theorem unique_array (ctx : FilterContext) (items args : List Value) :
    unique ctx (.array items) args =
      .done (.array (keepNew (itemIdentity ctx.zone args) [] items)) := by
  unfold unique itemIdentity Filter.ofTotal
  dsimp only
  cases ((given? args 0).map (Value.chars ctx.zone)).filter (!·.isEmpty) <;> rfl

section Places

variable (identity : Value → Value)

/-- No item before this one has its identity. -/
def IsFirst (items : List Value) (j : Fin items.length) : Prop :=
  ∀ i < j, ¬ (identity (items.get i)).strictEq (identity (items.get j)) = true

instance (items : List Value) (j : Fin items.length) : Decidable (IsFirst identity items j) :=
  inferInstanceAs (Decidable (∀ i < j, _))

/-- The places of the items that are the first of their identity. -/
def firstPlaces (items : List Value) : List (Fin items.length) :=
  (List.finRange items.length).filter (IsFirst identity items ·)

/-- The identity of an item is none of those seen. -/
def IsNew (seen : List Value) (v : Value) : Prop := ∀ s ∈ seen, ¬ s.strictEq (identity v) = true

instance (seen : List Value) (v : Value) : Decidable (IsNew identity seen v) :=
  inferInstanceAs (Decidable (∀ s ∈ seen, _))

variable {identity} {seen items : List Value} {v w : Value}

theorem mem_firstPlaces {j : Fin items.length} :
    j ∈ firstPlaces identity items ↔ IsFirst identity items j := by
  simp [firstPlaces]

theorem isFirst_succ {j : Fin items.length} :
    IsFirst identity (v :: items) j.succ ↔
      ¬ (identity v).strictEq (identity (items.get j)) = true ∧ IsFirst identity items j := by
  constructor
  · intro first
    exact ⟨first 0 j.succ_pos, fun i before => first i.succ (Fin.succ_lt_succ_iff.2 before)⟩
  · rintro ⟨head, tail⟩ i before
    cases i using Fin.cases with
    | zero => exact head
    | succ i => exact tail i (Fin.succ_lt_succ_iff.1 before)

/-- An item behind one that was seen is new only if it differs from that one. -/
theorem ne_of_isNew (old : ¬ IsNew identity seen v) (new : IsNew identity seen w) :
    ¬ (identity v).strictEq (identity w) = true := by
  intro equal
  rw [IsNew] at old
  push Not at old
  obtain ⟨s, member, same⟩ := old
  exact new s member (Value.strictEq_trans same equal)

theorem isNew_nil (v : Value) : IsNew identity [] v := List.forall_mem_nil _

theorem keepNew_cons (seen : List Value) (v : Value) (vs : List Value) :
    keepNew identity seen (v :: vs) =
      if IsNew identity seen v then v :: keepNew identity (identity v :: seen) vs
      else keepNew identity seen vs := by
  have found : seen.any (·.strictEq (identity v)) = true ↔ ¬ IsNew identity seen v := by
    simp [IsNew]
  rw [keepNew]
  by_cases new : IsNew identity seen v
  · rw [if_pos new, if_neg (by rwa [found, not_not])]
  · rw [if_neg new, if_pos (found.2 new)]

theorem firstPlaces_cons (v : Value) (vs : List Value) : firstPlaces identity (v :: vs) =
    0 :: ((firstPlaces identity vs).filter fun j =>
      ¬ (identity v).strictEq (identity (vs.get j)) = true).map Fin.succ := by
  have head : IsFirst identity (v :: vs) 0 := fun i before => absurd before (Nat.not_lt_zero i)
  have tail : ((List.finRange vs.length).map Fin.succ).filter (IsFirst identity (v :: vs) ·) =
      ((firstPlaces identity vs).filter fun j =>
        ¬ (identity v).strictEq (identity (vs.get j)) = true).map Fin.succ := by
    rw [List.filter_map, firstPlaces, List.filter_filter]
    refine congrArg _ (List.filter_congr fun j _ => ?_)
    rw [Function.comp_apply, ← Bool.decide_and]
    exact decide_eq_decide.2 isFirst_succ
  have all : List.finRange (v :: vs).length = 0 :: (List.finRange vs.length).map Fin.succ :=
    List.finRange_succ
  rw [firstPlaces, all, List.filter_cons, if_pos (decide_eq_true head), tail]

/-- The items at the places that are the first of their identity are kept, if they are new. -/
theorem keepNew_eq (seen items : List Value) : keepNew identity seen items =
    ((firstPlaces identity items).filter fun j => IsNew identity seen (items.get j)).map
      items.get := by
  induction items generalizing seen with
  | nil => rfl
  | cons v vs ih =>
    have places : (firstPlaces identity (v :: vs)).filter
          (fun j => IsNew identity seen ((v :: vs).get j)) =
        (if IsNew identity seen v then [0] else []) ++ ((firstPlaces identity vs).filter fun j =>
          IsNew identity seen (vs.get j) ∧
            ¬ (identity v).strictEq (identity (vs.get j)) = true).map Fin.succ := by
      rw [firstPlaces_cons, List.filter_cons, List.filter_map, List.filter_filter]
      by_cases new : IsNew identity seen v <;> simp [new]
    rw [keepNew_cons, places, List.map_append, List.map_map]
    by_cases new : IsNew identity seen v
    · rw [if_pos new, if_pos new, ih]
      refine congrArg (v :: ·) (congrArg _ (List.filter_congr fun j _ => decide_eq_decide.2 ?_))
      exact List.forall_mem_cons.trans And.comm
    · rw [if_neg new, if_neg new, ih]
      refine congrArg _ (List.filter_congr fun j _ => decide_eq_decide.2 ?_)
      exact (and_iff_left_of_imp (ne_of_isNew new)).symm

/-- Without anything seen before, the items at those places are all that is kept. -/
theorem keepNew_nil (items : List Value) :
    keepNew identity [] items = (firstPlaces identity items).map items.get := by
  rw [keepNew_eq, List.filter_eq_self.2 fun j _ => decide_eq_true (isNew_nil _)]

/-- Nothing is left out where all identities differ. -/
theorem keepNew_of_pairwise
    (distinct : items.Pairwise fun v w => ¬ (identity v).strictEq (identity w) = true)
    (new : ∀ v ∈ items, IsNew identity seen v) : keepNew identity seen items = items := by
  induction items generalizing seen with
  | nil => rfl
  | cons v vs ih =>
    obtain ⟨head, tail⟩ := List.pairwise_cons.1 distinct
    obtain ⟨first, behind⟩ := List.forall_mem_cons.1 new
    rw [keepNew_cons, if_pos first,
      ih tail fun w member => List.forall_mem_cons.2 ⟨head w member, behind w member⟩]

/-- The first item of an identity stands at or before every item that has it. -/
theorem exists_isFirst (i : Fin items.length) (itself : ¬ (identity (items.get i)).HasNaN) :
    ∃ j, IsFirst identity items j ∧ j ≤ i ∧
      (identity (items.get i)).strictEq (identity (items.get j)) = true := by
  let same (j : Fin items.length) : Prop :=
    (identity (items.get j)).strictEq (identity (items.get i)) = true
  obtain ⟨j, equal, least⟩ := wellFounded_lt.has_min {j | same j}
    ⟨i, (Value.strictEq_self_iff _).2 itself⟩
  refine ⟨j, fun k before earlier => ?_, ?_, ?_⟩
  · exact least k (Value.strictEq_trans earlier equal) before
  · exact not_lt.1 (least i ((Value.strictEq_self_iff _).2 itself))
  · exact Value.strictEq_comm _ _ ▸ equal

/-- An identity with a NaN is not that of another item. -/
theorem isFirst_of_hasNaN {j : Fin items.length} (nan : (identity (items.get j)).HasNaN) :
    IsFirst identity items j := by
  intro i _ equal
  refine (Value.strictEq_self_iff _).1 (Value.strictEq_trans ?_ equal) nan
  exact Value.strictEq_comm _ _ ▸ equal

end Places

/-- What is kept are the first items of their identities in the order of the list: no two of one
identity, one for each that can equal itself, and all of those that cannot. Nothing is left out of
them another time. -/
theorem unique_keeps_first (ctx : FilterContext) (items args : List Value) :
    let identity (i : Fin items.length) := itemIdentity ctx.zone args (items.get i)
    ∃ places : List (Fin items.length),
      unique ctx (.array items) args = .done (.array (places.map items.get)) ∧
      places.Pairwise (· < ·) ∧
      (∀ i ∈ places, ∀ j ∈ places, (identity i).strictEq (identity j) = true → i = j) ∧
      (∀ i, ¬ (identity i).HasNaN →
        ∃ j ∈ places, j ≤ i ∧ (identity i).strictEq (identity j) = true) ∧
      (∀ j ∈ places, ∀ i < j, (identity i).strictEq (identity j) = false) ∧
      (∀ i, (identity i).HasNaN → i ∈ places) ∧
      unique ctx (.array (places.map items.get)) args =
        .done (.array (places.map items.get)) := by
  intro identity
  let places := firstPlaces (itemIdentity ctx.zone args) items
  have ascending : places.Pairwise (· < ·) := (List.pairwise_lt_finRange _).filter _
  have first (j : Fin items.length) (member : j ∈ places) (i : Fin items.length) (before : i < j) :
      ¬ (identity i).strictEq (identity j) = true :=
    mem_firstPlaces.1 member i before
  refine ⟨places, ?_, ascending, fun i hi j hj same => ?_, fun i itself => ?_,
    fun j member i before => Bool.not_eq_true _ ▸ first j member i before, fun i nan => ?_, ?_⟩
  · rw [unique_array, keepNew_nil]
  · rcases lt_trichotomy i j with before | equal | behind
    · exact absurd same (first j hj i before)
    · exact equal
    · exact absurd (Value.strictEq_comm _ _ ▸ same) (first i hi j behind)
  · obtain ⟨j, isFirst, before, same⟩ := exists_isFirst i itself
    exact ⟨j, mem_firstPlaces.2 isFirst, before, same⟩
  · exact mem_firstPlaces.2 (isFirst_of_hasNaN nan)
  · have distinct : (places.map items.get).Pairwise fun v w =>
        ¬ (itemIdentity ctx.zone args v).strictEq (itemIdentity ctx.zone args w) = true := by
      rw [List.pairwise_map]
      exact ascending.imp_of_mem fun _ member before => first _ member _ before
    rw [unique_array, keepNew_of_pairwise distinct fun v _ => isNew_nil v]

end TemplateFormula.Filter
