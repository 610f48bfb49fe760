import Mathlib
import TemplateFormula.Text.Search
import TemplateFormula.Value.Basic

/-!
# Texts and members in order

Texts are ordered character by character, which is the order of strings: it is total, and only equal
texts are as great as each other. The members of an object stand in the order of their keys, each
key once. Then a key leads to the one member that has it, and keys that are found among as many
others are those others.
-/

namespace TemplateFormula.Text

theorem order_eq_compareLex (cs ds : List Char) : order cs ds = List.compareLex compare cs ds := by
  induction cs generalizing ds with
  | nil => cases ds <;> rfl
  | cons c cs ih =>
    cases ds with
    | nil => rfl
    | cons d ds =>
      rw [order, List.compareLex_cons_cons, ih]
      rcases lt_trichotomy c d with lt | rfl | gt
      · rw [if_pos lt, compare_lt_iff_lt.2 lt]
        rfl
      · rw [if_neg (lt_irrefl c), if_neg (lt_irrefl c), compare_eq_iff_eq.2 rfl]
        rfl
      · rw [if_neg (lt_asymm gt), if_pos gt, compare_gt_iff_gt.2 gt]
        rfl

instance : Std.TransCmp order where
  eq_swap {cs ds} := by
    rw [order_eq_compareLex, order_eq_compareLex]
    exact Std.OrientedCmp.eq_swap
  isLE_trans {cs ds es} := by
    rw [order_eq_compareLex, order_eq_compareLex, order_eq_compareLex]
    exact Std.TransCmp.isLE_trans

instance : Std.LawfulEqCmp order where
  compare_self {cs} := Std.ReflCmp.compare_self
  eq_of_compare {cs ds} := by
    rw [order_eq_compareLex]
    exact Std.LawfulEqCmp.eq_of_compare

theorem order_swap (cs ds : List Char) : (order cs ds).swap = order ds cs :=
  Std.OrientedCmp.eq_swap.symm

theorem order_gt_of_lt {cs ds : List Char} (h : order cs ds = .lt) : order ds cs = .gt := by
  rw [← order_swap, h]
  rfl

theorem order_eq_lt_iff {cs ds : List Char} : order cs ds = .lt ↔ cs < ds := by
  induction cs generalizing ds with
  | nil => cases ds <;> simp [order]
  | cons c cs ih =>
    cases ds with
    | nil => simp [order]
    | cons d ds =>
      rw [order, List.cons_lt_cons_iff]
      rcases lt_trichotomy c d with lt | rfl | gt
      · simp [lt]
      · simp [ih]
      · simp [gt, lt_asymm gt, ne_of_gt gt]

theorem isLE_order_iff {s t : String} : (order s.toList t.toList).isLE = true ↔ s ≤ t := by
  rw [← not_lt, String.lt_iff_toList_lt, ← order_eq_lt_iff, ← order_swap s.toList]
  cases order s.toList t.toList <;> decide

end TemplateFormula.Text

namespace TemplateFormula.Members

/-- Each key stands once, and before the greater ones. -/
def Ascending (ms : Members) : Prop :=
  ms.Pairwise fun m n => Text.order m.1.toList n.1.toList = .lt

instance (ms : Members) : Decidable ms.Ascending :=
  inferInstanceAs (Decidable (List.Pairwise _ ms))

theorem insert_last {ms : Members} {key : String} (value : Value)
    (h : ∀ m ∈ ms, Text.order m.1.toList key.toList = .lt) :
    insert key value ms = ms ++ [(key, value)] := by
  induction ms with
  | nil => rfl
  | cons m ms ih =>
    have hgt := Text.order_gt_of_lt (h m (by simp))
    simp only [insert, hgt, ih fun n hn => h n (by simp [hn]), List.cons_append]

theorem foldl_insert_of_ascending {ms ns : Members} (h : (ms ++ ns).Pairwise fun m n =>
    Text.order m.1.toList n.1.toList = .lt) :
    ns.foldl (fun ms e => insert e.1 e.2 ms) ms = ms ++ ns := by
  induction ns generalizing ms with
  | nil => simp
  | cons n ns ih =>
    have hn : ∀ m ∈ ms, Text.order m.1.toList n.1.toList = .lt := fun m hm =>
      (List.pairwise_append.1 h).2.2 m hm n (by simp)
    rw [List.foldl_cons, insert_last n.2 hn, ih (by simpa using h), List.append_assoc]
    rfl

/-- Members that are in order are put where they stand. -/
theorem ofList_of_ascending {ms : Members} (h : ms.Ascending) : ofList ms = ms :=
  @foldl_insert_of_ascending [] ms h

variable {ms ns : Members}

theorem Ascending.names_lt (h : ms.Ascending) : (ms.map Prod.fst).Pairwise (· < ·) := by
  rw [List.pairwise_map]
  exact h.imp fun lt => String.lt_iff_toList_lt.2 (Text.order_eq_lt_iff.1 lt)

theorem Ascending.get?_of_mem (h : ms.Ascending) {m : String × Value} (member : m ∈ ms) :
    ms.get? m.1 = some m.2 := by
  obtain ⟨before, behind, rfl⟩ := List.append_of_mem member
  refine List.lookup_eq_some_iff.2 ⟨before, behind, rfl, fun n earlier => ?_⟩
  have less := h.names_lt
  rw [List.map_append, List.pairwise_append] at less
  have lt : n.1 < m.1 := less.2.2 _ (List.mem_map_of_mem earlier) _ (by simp)
  exact bne_iff_ne.2 (ne_of_gt lt)

theorem mem_of_get? {key : String} {value : Value} (h : ms.get? key = some value) :
    (key, value) ∈ ms := by
  obtain ⟨before, behind, rfl, _⟩ := List.lookup_eq_some_iff.1 h
  exact List.mem_append_right _ List.mem_cons_self

/-- Keys that are all among as many others are the same keys. -/
theorem Ascending.names_eq (hm : ms.Ascending) (hn : ns.Ascending) (length : ms.length = ns.length)
    (found : ∀ m ∈ ms, m.1 ∈ ns.map Prod.fst) : ms.map Prod.fst = ns.map Prod.fst := by
  have subset : ms.map Prod.fst ⊆ ns.map Prod.fst := by
    rintro _ member
    obtain ⟨m, own, rfl⟩ := List.mem_map.1 member
    exact found m own
  have distinct : (ms.map Prod.fst).Nodup := hm.names_lt.imp ne_of_lt
  have perm : (ms.map Prod.fst).Perm (ns.map Prod.fst) := by
    refine (List.subperm_of_subset distinct subset).perm_of_length_le ?_
    rw [List.length_map, List.length_map, length]
  exact perm.eq_of_pairwise (fun _ _ _ _ lt gt => absurd gt (lt_asymm lt)) hm.names_lt hn.names_lt

end TemplateFormula.Members
