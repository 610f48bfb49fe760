import Mathlib
import TemplateFormula.Proofs.Printing.Numeral
import TemplateFormula.Value.Member

/-!
# Indexing

An element of an array or a character of a text is reached by the decimal text of its index, and by
digits behind a plus sign, which may start with zeros. The key `length` gives the number of
elements, and every other key gives nothing.
-/

namespace TemplateFormula

namespace Number

open Scan

variable {ds : List Char} {n : Nat}

theorem natChars_digit {c : Char} (digit : c.isDigit = true) :
    natChars (c.toNat - '0'.toNat) = [c] := by
  obtain ⟨low, high⟩ := Char.isDigit_iff_toNat.1 digit
  have small : c.toNat - '0'.toNat < 10 := by simp at low high ⊢; omega
  have same : (c.toNat - '0'.toNat).digitChar = c := by
    apply Char.toNat_inj.1
    rw [Nat.toNat_digitChar_of_lt_ten small]
    simp at low ⊢
    omega
  rw [natChars, Nat.toDigits_of_lt_base small, same]

theorem natChars_ofDigitChars (digits : ∀ c ∈ ds, c.isDigit = true) (pos : 0 < n) :
    natChars (Nat.ofDigitChars 10 ds n) = natChars n ++ ds := by
  induction ds generalizing n with
  | nil => simp
  | cons c ds ih =>
    obtain ⟨digit, others⟩ := List.forall_mem_cons.1 digits
    have small : c.toNat - '0'.toNat < 10 := by
      have high := (Char.isDigit_iff_toNat.1 digit).2
      simp at high ⊢
      omega
    have next : natChars (10 * n + (c.toNat - '0'.toNat)) = natChars n ++ [c] := by
      rw [← natChars_digit digit, natChars, natChars, natChars,
        Nat.toDigits_append_toDigits (by decide) pos small]
    rw [Nat.ofDigitChars_cons, ih others (by omega), next, List.append_assoc,
      List.singleton_append]

/-- Digits without a zero in front are the decimal text of their number. -/
theorem natChars_of_isWhole (h : IsWhole ds) : natChars (Nat.ofDigitChars 10 ds 0) = ds := by
  rcases h with rfl | ⟨⟨some_, digits⟩, head⟩
  · rfl
  · obtain ⟨c, ds, rfl⟩ := List.exists_cons_of_ne_nil some_
    obtain ⟨digit, others⟩ := List.forall_mem_cons.1 digits
    have pos : 0 < c.toNat - '0'.toNat := by
      have low := (Char.isDigit_iff_toNat.1 digit).1
      have other : c.toNat ≠ '0'.toNat := fun same => head (by rw [Char.toNat_inj.1 same]; rfl)
      omega
    rw [Nat.ofDigitChars_cons, Nat.mul_zero, Nat.zero_add, natChars_ofDigitChars others pos,
      natChars_digit digit, List.singleton_append]

theorem isWhole_of_areDigits (digits : AreDigits ds) (alone : ∀ c cs, ds ≠ '0' :: c :: cs) :
    IsWhole ds := by
  obtain ⟨d, ds, rfl⟩ := List.exists_cons_of_ne_nil digits.1
  by_cases zero : d = '0'
  · subst zero
    cases ds with
    | nil => exact .inl rfl
    | cons c cs => exact absurd rfl (alone c cs)
  · exact .inr ⟨digits, fun head => zero (Option.some.inj head)⟩

theorem natChars_isWhole (n : Nat) : IsWhole (natChars n) := by
  rcases Nat.eq_zero_or_pos n with rfl | pos
  · exact .inl rfl
  · exact .inr ⟨natChars_areDigits n, natChars_head (Nat.ne_of_gt pos)⟩

theorem isWhole_iff : IsWhole ds ↔ ds = natChars (Nat.ofDigitChars 10 ds 0) :=
  ⟨fun h => (natChars_of_isWhole h).symm, fun h => h ▸ natChars_isWhole _⟩

end Number

namespace Value

open Scan Number

/-- The keys that lead to an index: its decimal text, and a plus sign with digits behind it that may
start with zeros. Indices are words of 64 bits. -/
def IsIndex (key : List Char) (i : Nat) : Prop :=
  i < 2 ^ 64 ∧
    (key = natChars i ∨ ∃ ds, key = '+' :: ds ∧ AreDigits ds ∧ Nat.ofDigitChars 10 ds 0 = i)

variable {key : List Char} {i : Nat}

theorem digits_iff {ds : List Char} {n : Nat} :
    (if !ds.isEmpty && ds.all Char.isDigit && n < twoPow 64 then some n else none) = some i ↔
      AreDigits ds ∧ n < 2 ^ 64 ∧ n = i := by
  have word : twoPow 64 = 2 ^ 64 := rfl
  rw [word]
  split
  · next h => simp_all [AreDigits]
  · next h =>
    refine iff_of_false nofun fun ⟨digits, small, _⟩ => h ?_
    simp only [Bool.and_eq_true, Bool.not_eq_true', List.isEmpty_eq_false_iff, List.all_eq_true,
      decide_eq_true_eq]
    exact ⟨digits, small⟩

theorem index?_eq_some_iff : index? key = some i ↔ IsIndex key i := by
  unfold index?
  split
  · next c cs =>
    -- a zero in front of other characters
    refine iff_of_false nofun ?_
    rintro ⟨_, spelled | ⟨ds, spelled, _⟩⟩
    · have whole := natChars_isWhole i
      rw [← spelled] at whole
      rcases whole with short | ⟨_, head⟩
      · cases short
      · exact head rfl
    · cases spelled
  · next others =>
    dsimp only
    rw [digits_iff]
    split
    · next r =>
      constructor
      · rintro ⟨digits, small, value⟩
        exact ⟨value ▸ small, .inr ⟨r, rfl, digits, value⟩⟩
      · rintro ⟨small, spelled | ⟨ds, spelled, digits, value⟩⟩
        · have first := (natChars_areDigits i).2 '+' (spelled ▸ List.mem_cons_self)
          cases first
        · obtain rfl := (List.cons.inj spelled).2
          exact ⟨digits, value ▸ small, value⟩
    · next unsigned =>
      constructor
      · rintro ⟨digits, small, rfl⟩
        exact ⟨small, .inl (isWhole_iff.1 (isWhole_of_areDigits digits others))⟩
      · rintro ⟨small, spelled | ⟨ds, spelled, _⟩⟩
        · have value : Nat.ofDigitChars 10 key 0 = i := by
            rw [spelled, natChars, Nat.ofDigitChars_toDigits (by decide) (by decide)]
          exact ⟨spelled ▸ natChars_areDigits i, value ▸ small, value⟩
        · exact absurd spelled (unsigned ds)

/-- The values that have indices, with what is reached by them: the elements of an array, and the
characters of a text. -/
def elements? : Value → Option (List Value)
  | array items => some items
  | text s => some (s.toList.map fun c => ofChars [c])
  | _ => none

theorem memberAt_of_elements {v : Value} {es : List Value} (h : v.elements? = some es)
    (key : String) :
    v.memberAt key = if key = lengthKey then ofNat es.length
      else ((index? key.toList).bind (es[·]?)).getD undefined := by
  cases v with
  | array items =>
    obtain rfl := Option.some.inj h
    rfl
  | text s =>
    obtain rfl := Option.some.inj h
    have chars (i : Nat) : (s.toList.map fun c => ofChars [c])[i]? =
        (s.toList[i]?).map fun c => ofChars [c] := List.getElem?_map
    rw [memberAt, List.length_map]
    simp only [chars, Option.map_bind]
    rfl
  | _ => cases h

/-- The key `length` gives the number of elements, an index below it the element there, and any
other key nothing. -/
theorem member_of_elements (zone : Calendar.Zone) {v : Value} {es : List Value}
    (h : v.elements? = some es) (key : String) :
    (key = lengthKey → v.member zone (text key) = ofNat es.length) ∧
    (∀ (i : Nat) (lt : i < es.length), IsIndex key.toList i → v.member zone (text key) = es[i]) ∧
    (key ≠ lengthKey → (∀ i < es.length, ¬ IsIndex key.toList i) →
      v.member zone (text key) = undefined) := by
  rw [member_text, memberAt_of_elements h]
  refine ⟨fun length => if_pos length, fun i lt index => ?_, fun other none => ?_⟩
  · have found := index?_eq_some_iff.2 index
    have other : key ≠ lengthKey := by
      rintro rfl
      cases found
    rw [if_neg other, found, Option.bind_some, List.getElem?_eq_getElem lt, Option.getD_some]
  · rw [if_neg other]
    cases found : index? key.toList with
    | none => rfl
    | some i =>
      have beyond : es.length ≤ i :=
        Nat.le_of_not_lt fun lt => none i lt (index?_eq_some_iff.1 found)
      rw [Option.bind_some, List.getElem?_eq_none beyond, Option.getD_none]

theorem member_of_elements_letters :
    (text "aé").elements? = some [text "a", text "é"] ∧
    IsIndex "1".toList 1 ∧ (text "aé").member ⟨0⟩ (text "1") = text "é" ∧
    IsIndex "+01".toList 1 ∧ (text "aé").member ⟨0⟩ (text "+01") = text "é" ∧
    (∀ i < 2, ¬ IsIndex "01".toList i) ∧ (text "aé").member ⟨0⟩ (text "01") = undefined ∧
    (text "aé").member ⟨0⟩ (text "length") = ofNat 2 := by
  have elements : (text "aé").elements? = some [text "a", text "é"] := rfl
  have plain : IsIndex "1".toList 1 := index?_eq_some_iff.1 rfl
  have signed : IsIndex "+01".toList 1 := index?_eq_some_iff.1 rfl
  have padded : ∀ i < 2, ¬ IsIndex "01".toList i := fun i _ index => by
    cases index?_eq_some_iff.2 index
  have at_ := fun key => member_of_elements ⟨0⟩ elements key
  exact ⟨elements, plain, (at_ "1").2.1 1 (by decide) plain, signed,
    (at_ "+01").2.1 1 (by decide) signed, padded, (at_ "01").2.2 (by decide) padded,
    (at_ "length").1 rfl⟩

/-- A plus sign does not stand in the decimal text of any number. -/
theorem signed_index_reached :
    (array [text "x", text "y"]).member ⟨0⟩ (text "+1") = text "y" ∧
      "+1" ≠ lengthKey ∧ ∀ i, "+1".toList ≠ natChars i := by
  refine ⟨rfl, by decide, fun i spelled => ?_⟩
  have digit : '+'.isDigit = true := (natChars_areDigits i).2 '+' (by rw [← spelled]; decide)
  cases digit

end Value

end TemplateFormula
