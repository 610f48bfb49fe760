import TemplateFormula.Text.CamelCase
import Mathlib.Data.List.Chain

/-!
# Names that camel case leaves alone

Camel case changes a name exactly if an underscore or hyphen stands directly before a letter or
numeral: an upper case letter never starts with either of them, so what replaces the two does not
look like them.
-/

namespace TemplateFormula.Text

/-- No underscore or hyphen stands directly before a letter or numeral. -/
def Apart (cs : List Char) : Prop :=
  cs.IsChain fun c d => (isJoint c && isLetterOrNumeral d) = false

instance (cs : List Char) : Decidable (Apart cs) :=
  inferInstanceAs (Decidable (cs.IsChain fun c d => (isJoint c && isLetterOrNumeral d) = false))

/-- The codes of the images of a run are not those of an underscore or hyphen. -/
def CaseRun.AvoidsJoints (r : CaseRun) : Prop :=
  '_'.toNat < r.2.2.2 ∨ '-'.toNat < r.2.2.2 ∧ r.2.2.2 + (r.2.1 - r.1) < '_'.toNat

instance (r : CaseRun) : Decidable r.AvoidsJoints := inferInstanceAs (Decidable (_ ∨ _))

theorem upperRuns_avoid : ∀ r ∈ upperRuns, r.AvoidsJoints := by decide +kernel

theorem upperExpansions_avoid : ∀ x ∈ upperExpansions,
    ∃ n ∈ x.2.head?, n ≠ '_'.toNat ∧ n ≠ '-'.toNat := by decide +kernel

theorem isJoint_ofNat {n : Nat} (hline : n ≠ '_'.toNat) (hdash : n ≠ '-'.toNat) :
    isJoint (Char.ofNat n) = false := by
  have code : (Char.ofNat n).toNat = n ∨ (Char.ofNat n).toNat = 0 := by
    by_cases valid : n.isValidChar
    · left
      rw [Char.ofNat, dif_pos valid]
      rfl
    · right
      rw [Char.ofNat, dif_neg valid]
      rfl
  have other (c : Char) (hc : n ≠ c.toNat) (hzero : c.toNat ≠ 0) : Char.ofNat n ≠ c := by
    rintro rfl
    rcases code with code | code
    · exact hc code.symm
    · exact hzero code
  simp only [isJoint, Bool.or_eq_false_iff, beq_eq_false_iff_ne]
  exact ⟨other '_' hline (by decide), other '-' hdash (by decide)⟩

theorem isJoint_of_letterOrNumeral {c : Char} (h : isLetterOrNumeral c = true) :
    isJoint c = false := by
  rw [Bool.eq_false_iff]
  intro joint
  simp only [isJoint, Bool.or_eq_true, beq_iff_eq] at joint
  rcases joint with rfl | rfl <;> cases h

theorem CaseRun.AvoidsJoints.image {r : CaseRun} (h : r.AvoidsJoints) {m n : Nat}
    (himage : r.image? m = some n) : isJoint (Char.ofNat n) = false := by
  obtain ⟨lo, hi, step, image⟩ := r
  simp only [CaseRun.image?, Option.ite_none_right_eq_some, Bool.and_eq_true, decide_eq_true_eq,
    Option.some.injEq] at himage
  obtain ⟨⟨⟨hlo, hhi⟩, -⟩, rfl⟩ := himage
  have line : '_'.toNat = 95 := rfl
  have dash : '-'.toNat = 45 := rfl
  simp only [AvoidsJoints] at h
  exact isJoint_ofNat (by omega) (by omega)

theorem isJoint_mapRun {c : Char} (h : isJoint c = false) :
    isJoint (mapRun upperRuns c) = false := by
  unfold mapRun
  split
  · next n found =>
    obtain ⟨r, hr, himage⟩ := List.exists_of_findSome?_eq_some found
    exact (upperRuns_avoid r hr).image himage
  · exact h

theorem isJoint_toUpper {c : Char} (hc : c.toNat < 128) (h : isJoint c = false) :
    isJoint c.toUpper = false := by
  have all : ∀ n < 128, isJoint (Char.ofNat n) = false →
      isJoint (Char.ofNat n).toUpper = false := by decide
  rw [← Char.ofNat_toNat c] at h ⊢
  exact all c.toNat hc h

/-- The upper case of a letter or numeral starts with neither underscore nor hyphen. -/
theorem upperChar_head {c : Char} (h : isLetterOrNumeral c = true) :
    ∃ d ds, upperChar c = d :: ds ∧ isJoint d = false := by
  have plain := isJoint_of_letterOrNumeral h
  unfold upperChar
  split
  · next hc => exact ⟨_, [], rfl, isJoint_toUpper hc plain⟩
  · unfold expand
    split
    · next ns found =>
      obtain ⟨before, after, split, -⟩ := List.lookup_eq_some_iff.1 found
      obtain ⟨n, hn, line, dash⟩ := upperExpansions_avoid (c.toNat, ns) (by simp [split])
      cases ns with
      | nil => cases hn
      | cons n' ns =>
        obtain rfl := Option.some.inj hn
        exact ⟨_, _, rfl, isJoint_ofNat line dash⟩
    · exact ⟨_, [], rfl, isJoint_mapRun plain⟩

theorem apart_cons_cons {c d : Char} {cs : List Char} :
    Apart (c :: d :: cs) ↔ (isJoint c && isLetterOrNumeral d) = false ∧ Apart (d :: cs) :=
  List.isChain_cons_cons

/-- Camel case leaves exactly those names alone in which nothing is joined. -/
theorem camelCase_eq_self_iff (cs : List Char) : camelCase cs = cs ↔ Apart cs := by
  fun_induction camelCase cs with
  | case1 => simp [Apart]
  | case2 c => simp [Apart]
  | case3 c d r joined =>
    rw [apart_cons_cons, joined]
    simp only [Bool.true_eq_false, false_and, iff_false]
    simp only [Bool.and_eq_true] at joined
    obtain ⟨u, us, upper, plain⟩ := upperChar_head joined.2
    intro same
    rw [upper, List.cons_append] at same
    rw [(List.cons.inj same).1, joined.1] at plain
    cases plain
  | case4 c d r separate ih =>
    rw [apart_cons_cons, List.cons.injEq]
    simp only [true_and, ih]
    exact (and_iff_right (Bool.eq_false_iff.2 separate)).symm

end TemplateFormula.Text
