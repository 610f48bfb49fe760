import TemplateFormula.Filter.Collection
import TemplateFormula.Proofs.Number.Order
import TemplateFormula.Proofs.Value.Members

/-!
# Sorting by a key

Items are compared by the text at a path in them or by the number at its beginning, and both are
total orders: no key is a NaN. So the truthy items are sorted, those of one key in their old order
in either direction, and the others follow as they stood.
-/

namespace TemplateFormula.Filter

section Orders

variable {α β : Type} {ord : α → α → Ordering}

/-- An order by keys is total if that of the keys is. -/
theorem transCmp_of_keys {cmp : β → β → Ordering} [Std.TransCmp cmp] (key : α → β)
    (by_key : ∀ v w, ord v w = cmp (key v) (key w)) : Std.TransCmp ord where
  eq_swap := by
    intro v w
    rw [by_key, by_key]
    exact Std.OrientedCmp.eq_swap
  isLE_trans := by
    intro u v w
    rw [by_key, by_key, by_key]
    exact Std.TransCmp.isLE_trans

variable [Std.TransCmp ord]

theorem isLE_total (v w : α) : ((ord v w).isLE || (ord w v).isLE) = true := by
  have swap : ord w v = (ord v w).swap := Std.OrientedCmp.eq_swap
  rw [swap]
  cases ord v w <;> rfl

theorem pairwise_sorted (l : List α) :
    (l.mergeSort fun v w => (ord v w).isLE).Pairwise fun v w => (ord v w).isLE = true :=
  List.pairwise_mergeSort (fun _ _ _ => Std.TransCmp.isLE_trans) isLE_total l

/-- A sort leaves items that are equal in the order as they stand. -/
theorem filter_sorted {kind : α → Bool}
    (even : ∀ v w, kind v = true → kind w = true → ord v w = .eq) (l : List α) :
    (l.mergeSort fun v w => (ord v w).isLE).filter kind = l.filter kind := by
  have level : (l.filter kind).Pairwise fun v w => (ord v w).isLE = true :=
    List.pairwise_of_forall_mem_list fun v hv w hw => by
      rw [even v w (List.mem_filter.1 hv).2 (List.mem_filter.1 hw).2]
      rfl
  have kept : (l.filter kind).Sublist (l.mergeSort fun v w => (ord v w).isLE) :=
    List.sublist_mergeSort (fun _ _ _ => Std.TransCmp.isLE_trans) isLE_total level
      List.filter_sublist
  have among := kept.filter kind
  simp only [List.filter_filter, Bool.and_self] at among
  exact (among.eq_of_length ((List.mergeSort_perm l _).filter kind).length_eq.symm).symm

end Orders

open Argument

/-- What an item is sorted by. -/
def sortKey (zone : Calendar.Zone) (path : List Char) (v : Value) : String :=
  (Path.resolve path v).display zone

/-- The number at the beginning of a key, zero without one. -/
def keyNumber (key : String) : Float :=
  if (Number.leadingFloat key.toList).isNaN then 0 else Number.leadingFloat key.toList

theorem keyNumber_isNaN (key : String) : (keyNumber key).isNaN = false := by
  unfold keyNumber
  split
  · rfl
  · next number => exact Bool.not_eq_true _ ▸ number

/-- What the arguments of a sort ask for. -/
structure SortPlan where
  path : List Char
  numerical : Bool
  descending : Bool

namespace SortPlan

/-- The path to the key, which is the whole item without one, `numerical`, and `desc`. -/
def ofArguments (zone : Calendar.Zone) (args : List Value) : SortPlan where
  path := filledChars zone args 0 "&"
  numerical := String.ofList (givenChars zone args 1 "alpha") == "numerical"
  descending := String.ofList (givenChars zone args 2 "asc") == "desc"

variable (plan : SortPlan) (zone : Calendar.Zone)

/-- The order in which two items are put. -/
def order (v w : Value) : Ordering :=
  let o := sortOrder zone plan.path plan.numerical v w
  if plan.descending then o.swap else o

/-- One key is no greater than another. -/
def KeyLE (k l : String) : Prop :=
  if plan.numerical then keyNumber k ≤ keyNumber l else k ≤ l

/-- By its key one item may stand before another. -/
def Precedes (v w : Value) : Prop :=
  if plan.descending then plan.KeyLE (sortKey zone plan.path w) (sortKey zone plan.path v)
  else plan.KeyLE (sortKey zone plan.path v) (sortKey zone plan.path w)

def sameKey (v w : Value) : Bool :=
  if plan.numerical then
    keyNumber (sortKey zone plan.path v) == keyNumber (sortKey zone plan.path w)
  else sortKey zone plan.path v == sortKey zone plan.path w

end SortPlan

section Comparing

variable {zone : Calendar.Zone} {path : List Char}

theorem sortOrder_texts (v w : Value) : sortOrder zone path false v w =
    Text.order (sortKey zone path v).toList (sortKey zone path w).toList := by
  rw [sortKey, sortKey, Value.display, Value.display, String.toList_ofList, String.toList_ofList]
  rfl

theorem sortOrder_numbers (v w : Value) : sortOrder zone path true v w =
    Number.Place.order (Number.place (keyNumber (sortKey zone path v)))
      (Number.place (keyNumber (sortKey zone path w))) := by
  have compared : sortOrder zone path true v w =
      (Value.orderNumbers? (keyNumber (sortKey zone path v))
        (keyNumber (sortKey zone path w))).getD .eq := by
    rw [sortKey, sortKey, Value.display, Value.display, keyNumber, keyNumber, String.toList_ofList,
      String.toList_ofList]
    rfl
  rw [compared, Number.orderNumbers?_of_numbers (keyNumber_isNaN _) (keyNumber_isNaN _)]
  rfl

theorem sortOrder_trans (numerical : Bool) : Std.TransCmp (sortOrder zone path numerical) := by
  cases numerical with
  | false => exact transCmp_of_keys (fun v => (sortKey zone path v).toList) sortOrder_texts
  | true =>
    exact transCmp_of_keys (fun v => Number.place (keyNumber (sortKey zone path v)))
      sortOrder_numbers

variable (plan : SortPlan) (v w : Value)

theorem sortOrder_isLE_iff : (sortOrder zone plan.path plan.numerical v w).isLE = true ↔
    plan.KeyLE (sortKey zone plan.path v) (sortKey zone plan.path w) := by
  unfold SortPlan.KeyLE
  cases plan.numerical with
  | false => rw [sortOrder_texts, Text.isLE_order_iff]; rfl
  | true =>
    rw [sortOrder_numbers, if_pos rfl, Number.le_iff (keyNumber_isNaN _) (keyNumber_isNaN _)]

theorem sortOrder_eq_iff : sortOrder zone plan.path plan.numerical v w = .eq ↔
    plan.sameKey zone v w = true := by
  unfold SortPlan.sameKey
  cases plan.numerical with
  | false =>
    rw [sortOrder_texts, Std.LawfulEqCmp.compare_eq_iff_eq, String.toList_inj,
      if_neg Bool.false_ne_true, beq_iff_eq]
  | true =>
    rw [sortOrder_numbers, if_pos rfl, Number.beq_iff (keyNumber_isNaN _) (keyNumber_isNaN _)]

theorem order_trans : Std.TransCmp (plan.order zone) := by
  have up : Std.TransCmp (sortOrder zone plan.path plan.numerical) := sortOrder_trans _
  unfold SortPlan.order
  cases plan.descending with
  | false => exact up
  | true =>
    have down : (fun v w => (sortOrder zone plan.path plan.numerical v w).swap) =
        fun v w => sortOrder zone plan.path plan.numerical w v :=
      funext fun v => funext fun w => Std.OrientedCmp.eq_swap.symm
    exact down ▸ Std.TransCmp.opposite

theorem order_isLE_iff : (plan.order zone v w).isLE = true ↔ plan.Precedes zone v w := by
  have up : Std.TransCmp (sortOrder zone plan.path plan.numerical) := sortOrder_trans _
  unfold SortPlan.order SortPlan.Precedes
  cases plan.descending with
  | false => exact sortOrder_isLE_iff plan v w
  | true =>
    rw [if_pos rfl, if_pos rfl, ← sortOrder_isLE_iff, ← Std.OrientedCmp.eq_swap]

theorem order_eq_iff : plan.order zone v w = .eq ↔ plan.sameKey zone v w = true := by
  rw [← sortOrder_eq_iff]
  unfold SortPlan.order
  cases plan.descending with
  | false => rfl
  | true => cases sortOrder zone plan.path plan.numerical v w <;> decide

/-- Items with the key of one item are equal in the order. -/
theorem order_eq_of_sameKey {u v w : Value} (one : plan.sameKey zone u v = true)
    (two : plan.sameKey zone u w = true) : plan.order zone v w = .eq := by
  have ordered : Std.TransCmp (plan.order zone) := order_trans plan
  rw [← order_eq_iff] at one two
  exact Std.TransCmp.eq_trans (Std.OrientedCmp.eq_symm one) two

end Comparing

/-- The truthy items are sorted and the others follow them. Items of one key stay in their order,
and the order of items is total, whatever they are. -/
theorem sortBy_sorts (ctx : FilterContext) (items args : List Value) :
    let plan := SortPlan.ofArguments ctx.zone args
    ∃ sorted : List Value,
      sortBy ctx (.array items) args =
        .done (.array (sorted ++ items.filter (!·.isTruthy))) ∧
      (sorted ++ items.filter (!·.isTruthy)).Perm items ∧
      (∀ v ∈ sorted, v.isTruthy = true) ∧
      sorted.Pairwise (plan.Precedes ctx.zone) ∧
      (∀ v, sorted.filter (plan.sameKey ctx.zone v) =
        (items.filter Value.isTruthy).filter (plan.sameKey ctx.zone v)) ∧
      Std.TransCmp (plan.order ctx.zone) ∧
      ∀ v w, (plan.order ctx.zone v w).isLE = true ↔ plan.Precedes ctx.zone v w := by
  intro plan
  have ordered : Std.TransCmp (plan.order ctx.zone) := order_trans plan
  let truthy := items.filter Value.isTruthy
  let sorted := truthy.mergeSort fun v w => (plan.order ctx.zone v w).isLE
  have perm : sorted.Perm truthy := List.mergeSort_perm _ _
  have accepts (o : Ordering) : (o != .gt) = o.isLE := by cases o <;> rfl
  have result : sortBy ctx (.array items) args =
      .done (.array (sorted ++ items.filter (!·.isTruthy))) := by
    simp only [sorted, ← accepts]
    rfl
  refine ⟨sorted, result, ?_, fun v member => ?_, ?_, fun v => ?_, ordered, order_isLE_iff plan⟩
  · exact (perm.append_right _).trans (List.filter_append_perm _ _)
  · exact (List.mem_filter.1 (perm.mem_iff.1 member)).2
  · exact (pairwise_sorted truthy).imp fun {v w} => (order_isLE_iff plan v w).1
  · exact filter_sorted (fun _ _ => order_eq_of_sameKey plan) truthy

end TemplateFormula.Filter
