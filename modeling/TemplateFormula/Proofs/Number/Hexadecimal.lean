import Mathlib
import TemplateFormula.Number.Numeral

/-!
# Hexadecimal numbers

What is read as a hexadecimal number are the rows of digits in either letter case, as their value. A
sign is no digit.
-/

namespace TemplateFormula.Number

variable {c : Char} {cs : List Char} {n : Nat}

/-- An ASCII digit to base sixteen. -/
def IsHexDigit (c : Char) : Prop :=
  '0' ≤ c ∧ c ≤ '9' ∨ 'a' ≤ c ∧ c ≤ 'f' ∨ 'A' ≤ c ∧ c ≤ 'F'

instance : DecidablePred IsHexDigit := fun c =>
  inferInstanceAs (Decidable ('0' ≤ c ∧ c ≤ '9' ∨ 'a' ≤ c ∧ c ≤ 'f' ∨ 'A' ≤ c ∧ c ≤ 'F'))

/-- Digits to base sixteen, at least one. -/
def AreHexDigits (cs : List Char) : Prop := cs ≠ [] ∧ ∀ c ∈ cs, IsHexDigit c

def digitValue (c : Char) : Nat := (hexDigit? c).getD 0

/-- The value of digits to base sixteen, of which the first weighs most. -/
def hexValue (cs : List Char) : Nat := cs.foldl (fun n c => 16 * n + digitValue c) 0

theorem hexDigit?_of_isHexDigit (digit : IsHexDigit c) : hexDigit? c = some (digitValue c) := by
  rw [digitValue, hexDigit?]
  rcases digit with h | h | h
  · rw [if_pos h, Option.getD_some]
  · split_ifs <;> rfl
  · split_ifs <;> rfl

theorem hexDigit?_eq_none (other : ¬ IsHexDigit c) : hexDigit? c = none := by
  rw [IsHexDigit, not_or, not_or] at other
  rw [hexDigit?, if_neg other.1, if_neg other.2.1, if_neg other.2.2]

theorem digitValue_lt (c : Char) : digitValue c < 16 := by
  rw [digitValue, hexDigit?]
  split_ifs with h h h
  all_goals simp [Char.le_def, ← Char.toNat_val, UInt32.le_iff_toNat_le] at *
  all_goals omega

theorem IsHexDigit.ascii (digit : IsHexDigit c) : c.toNat < 128 := by
  rcases digit with h | h | h
  all_goals
    have high := h.2
    simp [Char.le_def, UInt32.le_iff_toNat_le] at high
    omega

theorem foldlM_hexDigit? (digits : ∀ c ∈ cs, IsHexDigit c) (n : Nat) :
    cs.foldlM (fun n c => (hexDigit? c).map (16 * n + ·)) n =
      some (cs.foldl (fun n c => 16 * n + digitValue c) n) := by
  induction cs generalizing n with
  | nil => rfl
  | cons c cs ih =>
    obtain ⟨digit, others⟩ := List.forall_mem_cons.1 digits
    rw [List.foldlM_cons, hexDigit?_of_isHexDigit digit]
    exact ih others _

theorem foldlM_hexDigit?_none (h : ∃ c ∈ cs, ¬ IsHexDigit c) (n : Nat) :
    cs.foldlM (fun n c => (hexDigit? c).map (16 * n + ·)) n = none := by
  induction cs generalizing n with
  | nil => exact absurd h.choose_spec.1 List.not_mem_nil
  | cons c cs ih =>
    rw [List.foldlM_cons]
    by_cases digit : IsHexDigit c
    · rw [hexDigit?_of_isHexDigit digit]
      obtain ⟨d, member, other⟩ := h
      obtain rfl | member := List.mem_cons.1 member
      · exact absurd digit other
      · exact ih ⟨d, member, other⟩ _
    · rw [hexDigit?_eq_none digit]
      rfl

/-- Digits are read as their value, and nothing else is read. -/
theorem hexNat?_eq_some_iff : hexNat? cs = some n ↔ AreHexDigits cs ∧ n = hexValue cs := by
  by_cases empty : cs = []
  · subst empty
    exact iff_of_false nofun fun h => h.1.1 rfl
  rw [hexNat?, if_neg (by simpa using empty)]
  by_cases digits : ∀ c ∈ cs, IsHexDigit c
  · rw [foldlM_hexDigit? digits, Option.some_inj]
    exact ⟨fun same => ⟨⟨empty, digits⟩, same.symm⟩, fun h => h.2.symm⟩
  · rw [foldlM_hexDigit?_none (by simpa using digits)]
    exact iff_of_false nofun fun h => digits h.1.2

theorem not_areHexDigits_plus : ¬ AreHexDigits ('+' :: cs) := fun h =>
  absurd (h.2 '+' List.mem_cons_self) (by decide)

theorem hexValue_cons (c : Char) (cs : List Char) :
    hexValue (c :: cs) = cs.foldl (fun n c => 16 * n + digitValue c) (digitValue c) := by
  rw [hexValue, List.foldl_cons, Nat.mul_zero, Nat.zero_add]

theorem hexValue_lt (cs : List Char) : hexValue cs < 16 ^ cs.length := by
  induction cs using List.reverseRecOn with
  | nil => decide
  | append_singleton cs c ih =>
    have low := digitValue_lt c
    rw [hexValue, List.foldl_append, List.length_append, List.length_singleton, Nat.pow_succ]
    change 16 * hexValue cs + digitValue c < _
    omega

end TemplateFormula.Number
