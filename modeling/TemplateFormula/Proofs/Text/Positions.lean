import TemplateFormula.Builtin.Text
import TemplateFormula.Proofs.Builtin.Summing
import TemplateFormula.Proofs.Number.Sums

/-!
# Positions in a text

A position counts the characters before it. A search gives the least position from its start at
which the pattern occurs, and a slice takes the characters between two positions, so the slice from
the position found has the pattern, and the slices to and from one position make up the text.
Positions are doubles, which tells them apart in every text of less than `2 ^ 53` characters.
-/

namespace TemplateFormula.Text

variable {s t : List Char} {i n : Nat}

/-- The pattern stands in the text behind so many characters. -/
def OccursAt (s t : List Char) (i : Nat) : Prop := i ≤ t.length ∧ s <+: t.drop i

instance (s t : List Char) (i : Nat) : Decidable (OccursAt s t i) :=
  inferInstanceAs (Decidable (_ ∧ _))

theorem occursAt_zero : OccursAt s t 0 ↔ s <+: t := by
  rw [OccursAt, List.drop_zero]
  exact and_iff_right (Nat.zero_le _)

theorem occursAt_succ {c : Char} : OccursAt s (c :: t) (i + 1) ↔ OccursAt s t i := by
  rw [OccursAt, OccursAt, List.drop_succ_cons, List.length_cons, Nat.succ_le_succ_iff]

theorem occursAt_drop (le : n ≤ t.length) : OccursAt s (t.drop n) i ↔ OccursAt s t (n + i) := by
  rw [OccursAt, OccursAt, List.drop_drop, List.length_drop]
  exact and_congr_left fun _ => by omega

theorem find?_cons (s : List Char) (c : Char) (t : List Char) :
    find? s (c :: t) = if s <+: c :: t then some 0 else (find? s t).map (· + 1) := by
  rw [find?]
  exact if_congr List.isPrefixOf_iff_prefix rfl rfl

/-- What is found is the first occurrence. -/
theorem find?_some (found : find? s t = some i) : IsLeast {j | OccursAt s t j} i := by
  induction t generalizing i with
  | nil =>
    rw [find?] at found
    split at found
    · next empty =>
      obtain rfl := Option.some.inj found
      exact ⟨occursAt_zero.2 (List.isEmpty_iff.1 empty ▸ List.nil_prefix), fun _ _ => Nat.zero_le _⟩
    · cases found
  | cons c t ih =>
    rw [find?_cons] at found
    split at found
    · next here =>
      obtain rfl := Option.some.inj found
      exact ⟨occursAt_zero.2 here, fun _ _ => Nat.zero_le _⟩
    · next away =>
      obtain ⟨k, later, rfl⟩ := Option.map_eq_some_iff.1 found
      obtain ⟨occurs, least⟩ := ih later
      refine ⟨occursAt_succ.2 occurs, fun j there => ?_⟩
      cases j with
      | zero => exact absurd (occursAt_zero.1 there) away
      | succ j => exact Nat.succ_le_succ (least (occursAt_succ.1 there))

theorem find?_none (missing : find? s t = none) (i : Nat) : ¬ OccursAt s t i := by
  rintro ⟨le, begins⟩
  induction t generalizing i with
  | nil =>
    rw [List.drop_nil, List.prefix_nil] at begins
    subst begins
    cases missing
  | cons c t ih =>
    rw [find?_cons] at missing
    split at missing
    · cases missing
    · next away =>
      cases i with
      | zero => exact away begins
      | succ i => exact ih (Option.map_eq_none_iff.1 missing) i (Nat.le_of_succ_le_succ le) begins

/-- What is found behind a position is the first occurrence from it on. -/
theorem find?_drop_some (le : n ≤ t.length) (found : find? s (t.drop n) = some i) :
    IsLeast {j | n ≤ j ∧ OccursAt s t j} (n + i) := by
  obtain ⟨occurs, least⟩ := find?_some found
  refine ⟨⟨Nat.le_add_right n i, (occursAt_drop le).1 occurs⟩, ?_⟩
  rintro j ⟨behind, here⟩
  obtain ⟨k, rfl⟩ := Nat.exists_eq_add_of_le behind
  exact Nat.add_le_add_left (least ((occursAt_drop le).2 here)) n

theorem find?_drop_none (le : n ≤ t.length) (missing : find? s (t.drop n) = none) :
    {j | n ≤ j ∧ OccursAt s t j} = ∅ := by
  refine Set.eq_empty_of_forall_notMem ?_
  rintro j ⟨behind, here⟩
  obtain ⟨k, rfl⟩ := Nat.exists_eq_add_of_le behind
  exact find?_none missing k ((occursAt_drop le).2 here)

/-- The characters at an occurrence are the pattern. -/
theorem OccursAt.take_drop (h : OccursAt s t i) : (t.drop i).take s.length = s :=
  (List.prefix_iff_eq_take.1 h.2).symm

theorem OccursAt.add_length_le (h : OccursAt s t i) : i + s.length ≤ t.length := by
  obtain ⟨within, begins⟩ := h
  have fits := begins.length_le
  rw [List.length_drop] at fits
  omega

section Slices

open Number

variable {x y : Float} {v w : Int} {j length : Nat} {cs : List Char}

theorem clampIndex_of_nearest (h : Nearest v x.toModel.unpack) (lt : length < 2 ^ 53) :
    Builtin.clampIndex x length = min (max v 0).toNat length := by
  rw [Builtin.clampIndex, h.clamp lt.le]
  omega

/-- The characters between two positions. -/
theorem slice_of_nearest (hx : Nearest i x.toModel.unpack) (hy : Nearest j y.toModel.unpack)
    (lt : cs.length < 2 ^ 53) (le : i ≤ j) (le' : j ≤ cs.length) :
    Builtin.slice cs x y = (cs.drop i).take (j - i) := by
  have low : Builtin.clampIndex x cs.length = i := by
    rw [clampIndex_of_nearest hx lt]
    omega
  have high : Builtin.clampIndex y cs.length = j := by
    rw [clampIndex_of_nearest hy lt]
    omega
  have both : i.min j = i ∧ i.max j = j := ⟨Nat.min_eq_left le, Nat.max_eq_right le⟩
  simp only [Builtin.slice, low, high, both]

end Slices

section Functions

open Number

variable {clock : Calendar.Clock} {t s : String}

theorem len_text (clock : Calendar.Clock) (t : String) :
    Builtin.len clock [.text t] = .ok (.ofNat t.length) := by
  rw [Value.ofNat, ← String.length_toList]
  rfl

theorem left_text (lt : t.length < 2 ^ 53) (le : n ≤ t.length) :
    Builtin.left clock [.text t, .ofNat n] = .ok (.ofChars (t.toList.take n)) := by
  rw [← String.length_toList] at lt le
  have slice : Builtin.slice t.toList 0 (Float.ofNat n) = t.toList.take n :=
    slice_of_nearest (.ofNat 0) (.ofNat n) lt (Nat.zero_le n) le
  exact congrArg (fun cs => Except.ok (Value.ofChars cs)) slice

theorem right_text (lt : t.length < 2 ^ 53) (le : n ≤ t.length) :
    Builtin.right clock [.text t, .ofNat (t.length - n)] = .ok (.ofChars (t.toList.drop n)) := by
  rw [← String.length_toList] at *
  have start : Nearest n
      (Float.ofNat t.toList.length - Float.ofNat (t.toList.length - n)).toModel.unpack := by
    have difference := nearest_sub (.ofNat t.toList.length) (.ofNat (t.toList.length - n))
      (by omega) (by omega)
    rwa [Int.natCast_sub le, Int.sub_sub_self] at difference
  have slice : Builtin.slice t.toList
      (Float.ofNat t.toList.length - Float.ofNat (t.toList.length - n))
      (Float.ofNat t.toList.length) = t.toList.drop n := by
    rw [slice_of_nearest start (.ofNat _) lt le le_rfl]
    exact List.take_of_length_le (List.length_drop).le
  exact congrArg (fun cs => Except.ok (Value.ofChars cs)) slice

theorem mid_text {l : Nat} (lt : t.length < 2 ^ 53) (le : n + l ≤ t.length) :
    Builtin.mid clock [.text t, .ofNat n, .ofNat l] =
      .ok (.ofChars ((t.toList.drop n).take l)) := by
  rw [← String.length_toList] at lt le
  have stop : Nearest (n + l : Nat) (Float.ofNat n + Float.ofNat l).toModel.unpack := by
    have sum := nearest_add (.ofNat n) (.ofNat l) (by omega) (by omega)
    rwa [← Int.natCast_add] at sum
  have slice : Builtin.slice t.toList (Float.ofNat n) (Float.ofNat n + Float.ofNat l) =
      (t.toList.drop n).take l := by
    rw [slice_of_nearest (.ofNat n) stop lt (Nat.le_add_right n l) le, Nat.add_sub_cancel_left]
  exact congrArg (fun cs => Except.ok (Value.ofChars cs)) slice

/-- A pattern is taken from where it occurs. -/
theorem mid_of_occursAt (lt : t.length < 2 ^ 53) (occurs : OccursAt s.toList t.toList n) :
    Builtin.mid clock [.text t, .ofNat n, .ofNat s.length] = .ok (.text s) := by
  have within := occurs.add_length_le
  have taken := occurs.take_drop
  simp only [String.length_toList] at within taken
  rw [mid_text lt within, taken, Value.ofChars, String.ofList_toList]

theorem search_text (lt : t.length < 2 ^ 53) (k : Int) :
    Builtin.search clock [.text t, .text s, .ofInt k] =
      .ok (match find? s.toList (t.toList.drop (min (max k 0).toNat t.length)) with
        | some i => .ofNat (min (max k 0).toNat t.length + i)
        | none => .number (-1)) := by
  rw [← String.length_toList] at *
  have start : Builtin.clampIndex ((Value.ofInt k).arithmetic clock.zone) t.toList.length =
      min (max k 0).toNat t.toList.length := by
    rw [Value.ofInt, Builtin.arithmetic_number, clampIndex_of_nearest (.ofInt k) lt]
  rw [← start]
  rfl

/-- The positions of a text that fits in memory count its characters. A search gives the least
position from its start on at which the pattern occurs, if there is one, and the pattern can be
taken from there. What stands to the left of a position and to the right of it make up the text. -/
theorem positions_count (clock : Calendar.Clock) (t s : String) (lt : t.length < 2 ^ 53) :
    (∀ u : String, Builtin.len clock [.text u] = .ok (.ofNat u.length)) ∧
    (∀ k : Int, let found := {i | min (max k 0).toNat t.length ≤ i ∧ OccursAt s.toList t.toList i}
      (∃ i, IsLeast found i ∧
        Builtin.search clock [.text t, .text s, .ofInt k] = .ok (.ofNat i) ∧
        Builtin.mid clock [.text t, .ofNat i, .ofNat s.length] = .ok (.text s)) ∨
      found = ∅ ∧ Builtin.search clock [.text t, .text s, .ofInt k] = .ok (.number (-1))) ∧
    ∀ n ≤ t.length, ∃ l r : String,
      Builtin.left clock [.text t, .ofNat n] = .ok (.text l) ∧
      Builtin.right clock [.text t, .ofNat (t.length - n)] = .ok (.text r) ∧ l ++ r = t ∧
      Builtin.mid clock [.text t, .ofNat n, .ofNat (t.length - n)] = .ok (.text r) := by
  refine ⟨len_text clock, fun k => ?_, fun n le => ⟨_, _, left_text lt le, right_text lt le, ?_, ?_⟩⟩
  · have start : min (max k 0).toNat t.length ≤ t.toList.length := by
      rw [String.length_toList]
      exact Nat.min_le_right _ _
    rw [search_text lt]
    cases there : find? s.toList (t.toList.drop (min (max k 0).toNat t.length)) with
    | some i =>
      have least := find?_drop_some start there
      exact .inl ⟨_, least, rfl, mid_of_occursAt lt least.1.2⟩
    | none => exact .inr ⟨find?_drop_none start there, rfl⟩
  · rw [← String.ofList_append, List.take_append_drop, String.ofList_toList]
  · rw [mid_text lt (Nat.add_sub_cancel' le).le]
    refine congrArg (fun cs => Except.ok (Value.ofChars cs)) (List.take_of_length_le ?_)
    rw [List.length_drop, String.length_toList]

/-- Of two occurrences the second, as the search starts behind the first one. -/
theorem positions_count_accented :
    "né→né".length < 2 ^ 53 ∧ ∀ clock,
      Builtin.search clock [.text "né→né", .text "né", .ofInt 1] = .ok (.ofNat 3) ∧
      Builtin.mid clock [.text "né→né", .ofNat 3, .ofNat 2] = .ok (.text "né") ∧
      ∃ l r : String, Builtin.left clock [.text "né→né", .ofNat 2] = .ok (.text l) ∧
        Builtin.right clock [.text "né→né", .ofNat 3] = .ok (.text r) ∧ l ++ r = "né→né" := by
  have short : "né→né".length < 2 ^ 53 := by decide
  refine ⟨short, fun clock => ?_⟩
  obtain ⟨-, searched, split⟩ := positions_count clock "né→né" "né" short
  have second : IsLeast {i | min (max (1 : Int) 0).toNat "né→né".length ≤ i ∧
      OccursAt "né".toList "né→né".toList i} 3 := by
    refine ⟨by decide, fun j ⟨behind, here⟩ => ?_⟩
    by_contra before
    have none : ∀ j < 3, 1 ≤ j → ¬ OccursAt "né".toList "né→né".toList j := by decide
    exact none j (Nat.lt_of_not_le before) behind here
  obtain ⟨l, r, taken, dropped, whole, -⟩ := split 2 (by decide)
  obtain ⟨i, least, result, pattern⟩ | ⟨empty, -⟩ := searched 1
  · obtain rfl := least.unique second
    exact ⟨result, pattern, l, r, taken, dropped, whole⟩
  · exact absurd (empty ▸ second.1) (Set.notMem_empty 3)

/-- The bound is needed: of a text with one character more than there are doubles to count it, the
last character is never taken. -/
theorem left_ne_of_length (long : t.length = 2 ^ 53 + 1) :
    Builtin.left clock [.text t, .ofNat t.length] ≠ .ok (.text t) := by
  rw [long]
  rw [← String.length_toList] at long
  have low : Builtin.clampIndex 0 t.toList.length = 0 := by
    rw [long]
    decide +kernel
  have rounded : Builtin.clampIndex (Float.ofNat (2 ^ 53 + 1)) t.toList.length = 2 ^ 53 := by
    rw [long]
    decide +kernel
  have short : Builtin.slice t.toList 0 (Float.ofNat (2 ^ 53 + 1)) = t.toList.take (2 ^ 53) := by
    rw [Builtin.slice, low, rounded]
    rfl
  have taken : Builtin.left clock [.text t, .ofNat (2 ^ 53 + 1)] =
      .ok (.ofChars (t.toList.take (2 ^ 53))) :=
    congrArg (fun cs => Except.ok (Value.ofChars cs)) short
  intro same
  have whole : String.ofList (t.toList.take (2 ^ 53)) = t :=
    Value.text.inj (Except.ok.inj (taken.symm.trans same))
  have length := congrArg (fun u : String => u.toList.length) whole
  simp only [String.toList_ofList, List.length_take, long] at length
  omega

end Functions

end TemplateFormula.Text
