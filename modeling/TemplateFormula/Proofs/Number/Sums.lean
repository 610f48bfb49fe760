import TemplateFormula.Proofs.Number.Integers
import TemplateFormula.Proofs.Number.Order

/-!
# Sums of whole doubles

Integers below `2 ^ 53` in magnitude are added and subtracted as doubles without an error: both are
brought to one exponent, their mantissas are added as integers, and the sum has all the bits that it
needs. Bringing a double between zero and such an integer gives the integer between them.
-/

namespace TemplateFormula.Number

open Float.Model UnpackedFloat

variable {u u' : UnpackedFloat} {x y : Float} {v w : Int} {n : Nat}

namespace Nearest

theorem round_whole (s : Sign) (pos : 0 < n) (j : Nat) :
    Nearest (s.apply n) (UnpackedFloat.round Format.binary64 s (n * 2 ^ j) (-j)) := by
  -- the mantissa is first filled up to 53 bits
  obtain ⟨i, filled, long⟩ : ∃ i : Nat, (-(j : Int) - Format.binary64.targetExponent
      (totalExponent (n * 2 ^ j) (-j))).toNat = i ∧ 52 ≤ n.log2 + (j + i) := by
    refine ⟨_, rfl, ?_⟩
    rw [totalExponent, Normal.log2_scaled (Nat.ne_of_gt pos)]
    simp [Format.targetExponent, Format.mantissaBits, Format.minExponent]
    omega
  have mantissa : n * 2 ^ j * 2 ^ i = n * 2 ^ (j + i) := by rw [Nat.mul_assoc, ← Nat.pow_add]
  have exponent : -(j : Int) - i = -(j + i : Nat) := by omega
  simp only [UnpackedFloat.round, decreaseExponent, filled, Nat.shiftLeft_eq, mantissa, exponent]
  exact rounded s pos long

/-- An integer is rounded from any exponent. -/
theorem normalized (v : Int) (j : Nat) (s : Sign) :
    Nearest v (UnpackedFloat.normalize Format.binary64 (v * (2 ^ j : Nat)) (-j) s) := by
  have two : 0 < ((2 ^ j : Nat) : Int) := Int.ofNat_lt.2 (Nat.two_pow_pos j)
  rcases lt_trichotomy v 0 with neg | rfl | pos
  · obtain ⟨n, rfl⟩ : ∃ n : Nat, v = -(n : Int) := ⟨v.natAbs, by omega⟩
    have sign : compare (-(n : Int) * (2 ^ j : Nat)) 0 = .lt :=
      Int.compare_eq_lt.2 (Int.mul_neg_of_neg_of_pos neg two)
    have magnitude : (-(-(n : Int) * (2 ^ j : Nat))).toNat = n * 2 ^ j := by
      rw [Int.neg_mul, Int.neg_neg, ← Int.natCast_mul, Int.toNat_natCast]
    simp only [UnpackedFloat.normalize, sign, magnitude]
    exact round_whole .negative (by omega) j
  · rw [Int.zero_mul]
    exact .zero s rfl
  · obtain ⟨n, rfl⟩ : ∃ n : Nat, v = n := ⟨v.toNat, by omega⟩
    have sign : compare ((n : Int) * (2 ^ j : Nat)) 0 = .gt :=
      Int.compare_eq_gt.2 (Int.mul_pos pos two)
    simp only [UnpackedFloat.normalize, sign]
    rw [← Int.natCast_mul, Int.toNat_natCast]
    exact round_whole .positive (by omega) j

/-- What is left of a small integer when zeros are put behind its mantissa. -/
theorem decreased {s : Sign} (pos : 0 < n) (lt : n < 2 ^ 53) {j : Nat} (low : 52 ≤ n.log2 + j) :
    s.apply ((n * 2 ^ (52 - n.log2)) <<< ((n.log2 : Int) - 52 - -j).toNat : Nat) =
      s.apply n * (2 ^ j : Nat) := by
  have log := log2_le pos lt
  have amount : ((n.log2 : Int) - 52 - -j).toNat = n.log2 + j - 52 := by omega
  have mantissa : n * 2 ^ (52 - n.log2) * 2 ^ (n.log2 + j - 52) = n * 2 ^ j := by
    rw [Nat.mul_assoc, ← Nat.pow_add]
    congr 2
    omega
  rw [amount, Nat.shiftLeft_eq, mantissa]
  cases s with
  | negative => exact (congrArg _ (Int.natCast_mul n _)).trans (Int.neg_mul _ _).symm
  | positive => exact Int.natCast_mul n _

/-- A small integer is zero or has a mantissa with room for it. -/
theorem parts_of_small (h : Nearest v u) (small : v.natAbs < 2 ^ 53) :
    (v = 0 ∧ ∃ s, u = .zero s) ∨
      ∃ (s : Sign) (n : Nat) (pos : 0 < n) (lt : n < 2 ^ 53), v = s.apply n ∧
        u = .finite s (n * 2 ^ (52 - n.log2)) (n.log2 - 52) (normal_whole pos lt).pos := by
  cases h with
  | zero s zero => exact .inl ⟨zero, s, rfl⟩
  | small s pos lt value => exact .inr ⟨s, _, pos, lt, value, rfl⟩
  | large s pos ge value =>
    rw [value, natAbs_apply] at small
    exact absurd ge (Nat.not_le.2 small)
  | infinite s ge value =>
    rw [value, natAbs_apply] at small
    exact absurd ge (Nat.not_le.2 small)

theorem add (hv : Nearest v u) (hw : Nearest w u') (small : v.natAbs < 2 ^ 53)
    (small' : w.natAbs < 2 ^ 53) :
    Nearest (v + w) (UnpackedFloat.add Format.binary64 u u') := by
  obtain ⟨rfl, s, rfl⟩ | ⟨s, m, pos, lt, value, rfl⟩ := hv.parts_of_small small
  · rw [Int.zero_add]
    obtain ⟨rfl, s', rfl⟩ | ⟨s', n, pos', lt', value', rfl⟩ := hw.parts_of_small small'
    · cases s <;> cases s' <;> exact .zero _ rfl
    · exact hw
  · obtain ⟨rfl, s', rfl⟩ | ⟨s', n, pos', lt', value', rfl⟩ := hw.parts_of_small small'
    · rw [Int.add_zero]
      exact hv
    · have log := log2_le pos lt
      have log' := log2_le pos' lt'
      obtain ⟨j, least, low, low'⟩ : ∃ j : Nat, min ((m.log2 : Int) - 52) (n.log2 - 52) = -j ∧
          52 ≤ m.log2 + j ∧ 52 ≤ n.log2 + j := ⟨52 - min m.log2 n.log2, by omega⟩
      have sum := normalized (v + w) j .positive
      rw [Int.add_mul, value, value', ← decreased pos lt low, ← decreased pos' lt' low',
        ← value, ← value'] at sum
      simp only [UnpackedFloat.add, least]
      exact sum

end Nearest

theorem sub_eq_add_neg (u u' : UnpackedFloat) :
    UnpackedFloat.sub Format.binary64 u u' = UnpackedFloat.add Format.binary64 u u'.neg := by
  have apply_neg (s : Sign) (n : Int) : -s.apply n = (-s).apply n := by
    cases s
    · exact Int.neg_neg n
    · rfl
  cases u with
  | finite s m e pos =>
    cases u' with
    | finite s' m' e' pos' =>
      simp only [UnpackedFloat.sub, UnpackedFloat.add, UnpackedFloat.neg, Int.sub_eq_add_neg,
        apply_neg]
    | _ => rfl
  | _ => cases u' <;> rfl

theorem nearest_add (hv : Nearest v x.toModel.unpack) (hw : Nearest w y.toModel.unpack)
    (small : v.natAbs < 2 ^ 53) (small' : w.natAbs < 2 ^ 53) :
    Nearest (v + w) (x + y).toModel.unpack :=
  (hv.add hw small small').packed

theorem nearest_sub (hv : Nearest v x.toModel.unpack) (hw : Nearest w y.toModel.unpack)
    (small : v.natAbs < 2 ^ 53) (small' : w.natAbs < 2 ^ 53) :
    Nearest (v - w) (x - y).toModel.unpack := by
  have sum := hv.add hw.neg small (Int.natAbs_neg w ▸ small')
  rw [← sub_eq_add_neg, ← Int.sub_eq_add_neg] at sum
  exact sum.packed

theorem lt_zero_of_infinity {s : Sign} (h : x.toModel.unpack = .infinity s) :
    x.isNaN = false ∧ (x < 0 ↔ s = .negative) := by
  refine ⟨isNaN_eq_false_iff.2 (by simp [h]), ?_⟩
  change decide (x.toModel.unpack.lt (0 : Float).toModel.unpack = true) = true ↔ _
  rw [h, zero_unpacked]
  cases s with
  | negative => exact iff_of_true rfl rfl
  | positive => exact iff_of_false Bool.false_ne_true (by simp)

/-- A double brought between zero and a number below which all integers are doubles is brought
there as its integer. -/
theorem Nearest.clamp (h : Nearest v x.toModel.unpack) {top : Nat} (le : top ≤ 2 ^ 53) :
    clampInt 0 top x = max 0 (min (top : Int) v) := by
  have ⟨_, whole, above, below⟩ := h.stands
  cases read : integer? .towardZero x with
  | some i =>
    have exact_ (small : v.natAbs < 2 ^ 53) : i = v :=
      Option.some.inj (read.symm.trans (whole small _))
    have high (large : 2 ^ 53 ≤ v) : 2 ^ 53 ≤ i := above large _ i read
    have low (large : v ≤ -2 ^ 53) : i ≤ -2 ^ 53 := below large _ i read
    simp only [clampInt, read]
    omega
  | none =>
    -- only an integer that is too large for a double is rounded to no integer
    obtain ⟨s, n, ge, value, parts⟩ : ∃ (s : Sign) (n : Nat), 2 ^ 53 ≤ n ∧ v = s.apply n ∧
        x.toModel.unpack = .infinity s := by
      rw [integer?, finite?_eq_unpacked, Option.map_eq_none_iff] at read
      generalize x.toModel.unpack = u at *
      cases h with
      | infinite s ge value => exact ⟨s, _, ge, value, rfl⟩
      | _ => cases read
    obtain ⟨number, negative⟩ := lt_zero_of_infinity parts
    simp only [clampInt, read, number]
    cases s with
    | negative =>
      have value : v = -(n : Int) := value
      rw [if_neg Bool.false_ne_true, if_pos (negative.2 rfl)]
      omega
    | positive =>
      have value : v = n := value
      rw [if_neg Bool.false_ne_true, if_neg (negative.not.2 (by simp))]
      omega

end TemplateFormula.Number
