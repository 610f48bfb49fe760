import Mathlib
import TemplateFormula.Number.Exact

/-!
# Doubles of whole numbers

A double has the exact value that it unpacks to. A normal one is packed into bits and unpacked
without loss, and zeros behind its mantissa do not change how it is rounded. So a whole number below `2 ^ 53` is read as exactly that double.
-/

namespace TemplateFormula.Number

open Float.Model UnpackedFloat

variable {m n : Nat} {e : Int}

def isNegative : Sign → Bool
  | .negative => true
  | .positive => false

/-- The exact value of an unpacked double. -/
def unpackedValue? : UnpackedFloat → Option Exact
  | .finite s m e _ => some ⟨isNegative s, m, e⟩
  | .zero s => some ⟨isNegative s, 0, -1074⟩
  | .infinity _ | .notANumber => none

/-- The bits of a double as one number. -/
theorem packComponents_toNat (s : Sign) (e : BitVec 11) (m : BitVec 52) :
    (packComponents Format.binary64 s e m).toNat =
      s.toBitVec.toNat * 2 ^ 63 + e.toNat * 2 ^ 52 + m.toNat := by
  have he := e.isLt
  have hm := m.isLt
  change (s.toBitVec ++ e ++ m).toNat = _
  rw [BitVec.toNat_append, BitVec.toNat_append, ← Nat.shiftLeft_add_eq_or_of_lt hm,
    ← Nat.shiftLeft_add_eq_or_of_lt he, Nat.shiftLeft_eq, Nat.shiftLeft_eq]
  omega

theorem ofBits?_packComponents (s : Sign) (e : BitVec 11) (m : BitVec 52) :
    Exact.ofBits? (packComponents Format.binary64 s e m).toNat =
      unpackedValue? (UnpackedFloat.unpack Format.binary64
        (packComponents Format.binary64 s e m)) := by
  have he := e.isLt
  have hm := m.isLt
  have sign : (s.toBitVec.toNat % 2 == 1) = isNegative s := by cases s <;> rfl
  have bit : s.toBitVec.toNat < 2 := s.toBitVec.isLt
  have implicit : (1#1 ++ m).toNat = m.toNat + 2 ^ 52 := by
    rw [BitVec.toNat_append, ← Nat.shiftLeft_add_eq_or_of_lt hm, Nat.shiftLeft_eq]
    simp
    omega
  rw [Exact.ofBits?, packComponents_toNat, UnpackedFloat.unpack]
  generalize total : s.toBitVec.toNat * 2 ^ 63 + e.toNat * 2 ^ 52 + m.toNat = bits
  have exponent : bits / twoPow 52 % 2048 = e.toNat := by
    change bits / 2 ^ 52 % 2048 = _
    omega
  have fraction : bits % twoPow 52 = m.toNat := by
    change bits % 2 ^ 52 = _
    omega
  have first : bits / twoPow 63 = s.toBitVec.toNat := by
    change bits / 2 ^ 63 = _
    omega
  simp only [unpackMantissa_packComponents, unpackExponent_packComponents,
    unpackSign_packComponents, Sign.ofBitVec_toBitVec, exponent, fraction, first, sign]
  by_cases full : e.toNat = 2047
  · obtain rfl : e = -1#11 := BitVec.eq_of_toNat_eq full
    rw [if_pos full, if_pos rfl]
    split <;> rfl
  have full' : e ≠ -1#11 := fun same => full (congrArg BitVec.toNat same)
  rw [if_neg full, if_neg full']
  by_cases empty : e.toNat = 0
  · obtain rfl : e = 0#11 := BitVec.eq_of_toNat_eq empty
    rw [if_pos empty, if_pos rfl]
    split
    · next zero =>
      rw [zero]
      rfl
    · rfl
  · have empty' : e ≠ 0#11 := fun same => empty (congrArg BitVec.toNat same)
    rw [if_neg empty, if_neg empty', unpackedValue?, implicit]
    rfl

theorem finite?_eq_unpacked (x : Float) : finite? x = unpackedValue? x.toModel.unpack := by
  have parts := @packComponents_unpackSign_unpackExponent_unpackMantissa Format.binary64
    x.toModel.toBits.toBitVec
  change Exact.ofBits? x.toModel.toBits.toBitVec.toNat =
    unpackedValue? (UnpackedFloat.unpack Format.binary64 x.toModel.toBits.toBitVec)
  rw [← parts]
  exact ofBits?_packComponents _ _ _

def packed (u : UnpackedFloat) : Float := .ofModel (.pack u)

theorem unpack_infinity (s : Sign) : (packed (.infinity s)).toModel.unpack = .infinity s := by
  cases s <;> rfl

theorem unpack_zero (s : Sign) : (packed (.zero s)).toModel.unpack = .zero s := by
  cases s <;> rfl

/-- A mantissa of 53 bits is packed without loss, if the exponent is not too large. -/
theorem unpack_finite (s : Sign) (pos : 0 < m) (log : m.log2 = 52) (low : -1074 ≤ e) :
    (packed (.finite s m e pos)).toModel.unpack =
      if e ≤ 971 then .finite s m e pos else .infinity s := by
  obtain ⟨ge, lt⟩ := (Nat.log2_eq_iff (Nat.ne_of_gt pos)).1 log
  have bias : e + (Format.binary64.exponentBias : Int) + (52 : Nat) = e + 1075 := by
    simp [Format.exponentBias]
    omega
  have filled : 52 + 1 = Format.binary64.mantissaBits := rfl
  have powers : 2 ^ Format.binary64.exponentBits = 2048 := rfl
  change UnpackedFloat.unpack Format.binary64
    (UnpackedFloat.pack Format.binary64 (.finite s m e pos)) = _
  simp only [UnpackedFloat.pack, log]
  rw [bias, if_pos filled]
  by_cases fits : e ≤ 971
  · have biased : (BitVec.ofNat 11 (e + 1075).toNat).toNat = (e + 1075).toNat := by
      rw [BitVec.toNat_ofNat, Nat.mod_eq_of_lt (by omega)]
    have full : BitVec.ofNat 11 (e + 1075).toNat ≠ -1#11 := by
      intro same
      have := biased.symm.trans (congrArg BitVec.toNat same)
      have : (-1#11).toNat = 2047 := rfl
      omega
    have empty : BitVec.ofNat 11 (e + 1075).toNat ≠ 0#11 := by
      intro same
      have := biased.symm.trans (congrArg BitVec.toNat same)
      have : (0#11).toNat = 0 := rfl
      omega
    have mantissa : (1#1 ++ BitVec.ofNat 52 m).toNat = m := by
      rw [BitVec.toNat_append, BitVec.toNat_ofNat,
        ← Nat.shiftLeft_add_eq_or_of_lt (by omega), Nat.shiftLeft_eq]
      simp
      omega
    rw [if_neg (by omega), if_pos fits, UnpackedFloat.unpack]
    simp only [unpackMantissa_packComponents, unpackExponent_packComponents,
      unpackSign_packComponents, Sign.ofBitVec_toBitVec]
    rw [if_neg full, if_neg empty]
    simp only [biased, mantissa, Format.exponentBias]
    congr 1
    simp
    omega
  · rw [if_pos (by omega), if_neg fits]
    exact unpack_infinity s

/-- The mantissa fills its 53 bits, and the exponent fits the format. -/
structure Normal (m : Nat) (e : Int) : Prop where
  mantissa_ge : 2 ^ 52 ≤ m
  mantissa_lt : m < 2 ^ 53
  exponent_ge : -1074 ≤ e
  exponent_le : e ≤ 971

namespace Normal

theorem pos (h : Normal m e) : 0 < m := Nat.lt_of_lt_of_le (by decide) h.mantissa_ge

theorem log2_eq (h : Normal m e) : m.log2 = 52 :=
  (Nat.log2_eq_iff (Nat.ne_of_gt h.pos)).2 ⟨h.mantissa_ge, h.mantissa_lt⟩

/-- The double with this mantissa and exponent. -/
def toFloat (h : Normal m e) : Float := .ofModel (.pack (.finite .positive m e h.pos))

theorem unpack_eq (h : Normal m e) : h.toFloat.toModel.unpack = .finite .positive m e h.pos :=
  (unpack_finite .positive h.pos h.log2_eq h.exponent_ge).trans (if_pos h.exponent_le)

theorem finite?_eq (h : Normal m e) : finite? h.toFloat = some ⟨false, m, e⟩ := by
  rw [finite?_eq_unpacked, h.unpack_eq]
  rfl

theorem abs_eq (h : Normal m e) : h.toFloat.abs = h.toFloat := by
  change Float.ofModel (.pack h.toFloat.toModel.unpack.abs) = _
  rw [h.unpack_eq]
  rfl

/-- The exponents alone tell two such doubles apart. -/
theorem not_le {e' : Int} {m' : Nat} {x : Float} {pos : 0 < m'} (h : Normal m e)
    (hx : x.toModel.unpack = .finite .positive m' e' pos) (lt : e < e') : ¬ x ≤ h.toFloat := by
  have order : compare e' e = .gt := Int.compare_eq_gt.2 lt
  change ¬ decide (x.toModel.unpack.le h.toFloat.toModel.unpack = true) = true
  rw [hx, h.unpack_eq, UnpackedFloat.le, UnpackedFloat.compare, order]
  simp

theorem not_lt {e' : Int} {m' : Nat} {x : Float} {pos : 0 < m'} (h : Normal m e)
    (hx : x.toModel.unpack = .finite .positive m' e' pos) (lt : e' < e) : ¬ h.toFloat < x := by
  have order : compare e e' = .gt := Int.compare_eq_gt.2 lt
  change ¬ decide (h.toFloat.toModel.unpack.lt x.toModel.unpack = true) = true
  rw [hx, h.unpack_eq, UnpackedFloat.lt, UnpackedFloat.compare, order]
  simp

theorem log2_scaled (hm : m ≠ 0) (s : Nat) : (m * 2 ^ s).log2 = m.log2 + s := by
  have hs : m * 2 ^ s ≠ 0 := Nat.mul_ne_zero hm (Nat.ne_of_gt (Nat.two_pow_pos s))
  obtain ⟨low, high⟩ := (Nat.log2_eq_iff hm).1 rfl
  refine (Nat.log2_eq_iff hs).2 ⟨?_, ?_⟩
  · rw [Nat.pow_add]
    exact Nat.mul_le_mul_right _ low
  · rw [Nat.add_right_comm, Nat.pow_add _ (m.log2 + 1)]
    exact Nat.mul_lt_mul_of_pos_right high (Nat.two_pow_pos s)

theorem target_eq (h : Normal m e) (s : Nat) :
    Format.binary64.targetExponent (totalExponent (m * 2 ^ s) (e - s)) = e := by
  have low := h.exponent_ge
  rw [totalExponent, log2_scaled (Nat.ne_of_gt h.pos), h.log2_eq]
  simp [Format.targetExponent, Format.mantissaBits, Format.minExponent]
  omega

theorem shift_scaled (m s : Nat) :
    (⟨m * 2 ^ s, false, false⟩ : ExtendedMantissa) >>> s = ⟨m, false, false⟩ := by
  induction s generalizing m with
  | zero => rw [Nat.pow_zero, Nat.mul_one]; rfl
  | succ s ih =>
    have split : m * 2 ^ (s + 1) = (m * 2) * 2 ^ s := by rw [Nat.pow_succ']; ac_rfl
    have last : (⟨m * 2, false, false⟩ : ExtendedMantissa).shiftRightOne = ⟨m, false, false⟩ := by
      simp [ExtendedMantissa.shiftRightOne]
    rw [split]
    exact (congrArg ExtendedMantissa.shiftRightOne (ih (m * 2))).trans last

theorem shiftToTarget_scaled (h : Normal m e) (s : Nat) :
    shiftToTargetExponent Format.binary64 (m * 2 ^ s) (e - s) .exact = (⟨m, false, false⟩, e) := by
  have amount : (e - (e - (s : Int))).toNat = s := by omega
  have back : e - (s : Int) + (s : Int) = e := by omega
  rw [shiftToTargetExponent, h.target_eq, shiftToExponent, amount]
  exact Prod.ext (shift_scaled m s) back

/-- Zeros behind the mantissa are no part of what is rounded. -/
theorem round_scaled (h : Normal m e) (sign : Sign) (s : Nat) :
    roundWithAccuracy Format.binary64 sign (m * 2 ^ s) (e - s) .exact =
      .finite sign m e h.pos := by
  have again := h.shiftToTarget_scaled 0
  rw [Nat.pow_zero, Nat.mul_one, Int.natCast_zero, Int.sub_zero] at again
  have rounded : (⟨m, false, false⟩ : ExtendedMantissa).roundedMantissa = m := rfl
  rw [roundWithAccuracy, h.shiftToTarget_scaled s]
  simp only [rounded, again, dif_neg (Nat.ne_of_gt h.pos)]

end Normal

/-- The whole number with zeros behind it up to 53 bits. -/
theorem normal_whole (pos : 0 < n) (lt : n < 2 ^ 53) :
    Normal (n * 2 ^ (52 - n.log2)) (n.log2 - 52) := by
  have small : n.log2 < 53 := (Nat.log2_lt (Nat.ne_of_gt pos)).2 lt
  obtain ⟨low, high⟩ := (Nat.log2_eq_iff (Nat.ne_of_gt pos)).1 rfl
  have two : 0 < 2 ^ (52 - n.log2) := Nat.two_pow_pos _
  refine ⟨?_, ?_, by omega, by omega⟩
  · calc 2 ^ 52 = 2 ^ n.log2 * 2 ^ (52 - n.log2) := by rw [← Nat.pow_add]; congr 1; omega
      _ ≤ _ := Nat.mul_le_mul_right _ low
  · calc n * 2 ^ (52 - n.log2) < 2 ^ (n.log2 + 1) * 2 ^ (52 - n.log2) :=
        Nat.mul_lt_mul_of_pos_right high two
      _ = 2 ^ 53 := by rw [← Nat.pow_add]; congr 1; omega

theorem ofNat_unpacked (pos : 0 < n) (lt : n < 2 ^ 53) :
    UnpackedFloat.ofNat Format.binary64 n =
      .finite .positive (n * 2 ^ (52 - n.log2)) (n.log2 - 52) (normal_whole pos lt).pos := by
  have normal := normal_whole pos lt
  have small : n.log2 < 53 := (Nat.log2_lt (Nat.ne_of_gt pos)).2 lt
  have positive : compare (n : Int) 0 = .gt := by
    rw [Int.compare_eq_gt]
    omega
  have target : Format.binary64.targetExponent (totalExponent n 0) = n.log2 - 52 := by
    rw [totalExponent]
    simp [Format.targetExponent, Format.mantissaBits, Format.minExponent]
    omega
  have amount : (0 - ((n.log2 : Int) - 52)).toNat = 52 - n.log2 := by omega
  have exponent : (0 : Int) - ((52 - n.log2 : Nat) : Int) = n.log2 - 52 := by omega
  have rounded := normal.round_scaled .positive 0
  rw [Nat.pow_zero, Nat.mul_one, Int.natCast_zero, Int.sub_zero] at rounded
  rw [UnpackedFloat.ofNat, UnpackedFloat.ofInt, UnpackedFloat.normalize, positive]
  simp only [UnpackedFloat.round, Int.toNat_natCast, target, decreaseExponent, amount, exponent,
    Nat.shiftLeft_eq]
  exact rounded

/-- A decimal numeral for a whole number below `2 ^ 53` is that number exactly. -/
theorem ofScientific_whole (pos : 0 < n) (lt : n < 2 ^ 53) :
    Float.ofScientific n false 0 = (normal_whole pos lt).toFloat := by
  have normal := normal_whole pos lt
  have word : n.toUInt64.toNat = n := by
    rw [Nat.toUInt64, UInt64.toNat_ofNat']
    exact Nat.mod_eq_of_lt (by omega)
  have whole : n.toUInt64.toFloat.toModel.unpack =
      .finite .positive (n * 2 ^ (52 - n.log2)) (n.log2 - 52) normal.pos := by
    rw [← normal.unpack_eq, Normal.toFloat, ← ofNat_unpacked pos lt]
    change (Float.Model.pack (UnpackedFloat.ofNat _ n.toUInt64.toNat)).unpack = _
    rw [word]
  have one : (Float.ofBits 0x3FF0000000000000).toModel.unpack =
      .finite .positive (2 ^ 52) (-52) (by decide) := by rfl
  have small : n < 2 ^ 53 ∧ 0 ≤ 22 := ⟨lt, by decide⟩
  rw [Float.ofScientific, dif_pos small]
  change Float.ofModel (.pack (UnpackedFloat.mul Format.binary64 n.toUInt64.toFloat.toModel.unpack
    (Float.ofBits 0x3FF0000000000000).toModel.unpack)) = _
  rw [whole, one]
  have rounded := normal.round_scaled .positive 52
  exact congrArg (fun x => Float.ofModel (.pack x)) rounded

end TemplateFormula.Number
