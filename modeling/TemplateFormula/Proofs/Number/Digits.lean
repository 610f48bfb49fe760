import TemplateFormula.Number.Rounding
import TemplateFormula.Proofs.Number.Doubles

/-!
# The digits of a whole double

The last digit of a whole number below `2 ^ 52` is what division by ten leaves, and the digits
before it are the floor of a tenth: a tenth is rounded by less than a tenth, so no whole number
lies between it and what it is rounded to.
-/

namespace TemplateFormula.Number

open Float.Model UnpackedFloat

variable {m n q : Nat} {e : Int} {x : Float}

theorem shift_mantissa (em : ExtendedMantissa) (k : Nat) :
    (em >>> k).mantissa = em.mantissa / 2 ^ k := by
  induction k with
  | zero => exact (Nat.div_one _).symm
  | succ k ih =>
    rw [Nat.pow_succ, ← Nat.div_div_eq_div_mul, ← ih]
    rfl

theorem roundedMantissa_bounds (em : ExtendedMantissa) :
    em.mantissa ≤ em.roundedMantissa ∧ em.roundedMantissa ≤ em.mantissa + 1 := by
  obtain ⟨m, r, s⟩ := em
  cases r <;> cases s <;>
    simp [ExtendedMantissa.roundedMantissa, ExtendedMantissa.accuracy, Accuracy.roundToNearestEven]
  omega

theorem target_filled {k : Nat} (log : q.log2 = 52 + k) (low : -1074 ≤ e + k) :
    Format.binary64.targetExponent (totalExponent q e) = e + k := by
  rw [totalExponent, log]
  simp [Format.targetExponent, Format.mantissaBits, Format.minExponent]
  omega

/-- A mantissa with `k` bits too many is rounded to one next to it; a carry shifts it once more. -/
theorem round_filled {k : Nat} (sign : Sign) (log : q.log2 = 52 + k) (low : -1074 ≤ e + k)
    (accuracy : Accuracy) :
    ∃ (m : Nat) (e' : Int) (pos : 0 < m) (c : Nat),
      roundWithAccuracy Format.binary64 sign q e accuracy = .finite sign m e' pos ∧
      m.log2 = 52 ∧ e' = e + k + c ∧ c ≤ 1 ∧ q / 2 ^ k ≤ m * 2 ^ c ∧ m * 2 ^ c ≤ q / 2 ^ k + 1 := by
  have amount : (e + k - e).toNat = k := by omega
  have some_bits : (ExtendedMantissa.ofMantissaAndAccuracy q accuracy).mantissa = q := by
    cases accuracy with
    | exact => rfl
    | inexact side => cases side <;> rfl
  have bounds := roundedMantissa_bounds (ExtendedMantissa.ofMantissaAndAccuracy q accuracy >>> k)
  rw [shift_mantissa, some_bits] at bounds
  have filled : 2 ^ 52 ≤ q / 2 ^ k ∧ q / 2 ^ k < 2 ^ 53 := by
    have q_ne : q ≠ 0 := by
      rintro rfl
      simp at log
      omega
    obtain ⟨ge, lt⟩ := (Nat.log2_eq_iff q_ne).1 log
    rw [Nat.le_div_iff_mul_le (Nat.two_pow_pos k), Nat.div_lt_iff_lt_mul (Nat.two_pow_pos k),
      ← Nat.pow_add, ← Nat.pow_add]
    exact ⟨ge, lt.trans_eq (by congr 1; omega)⟩
  rw [roundWithAccuracy, shiftToTargetExponent, target_filled log low, shiftToExponent, amount]
  dsimp only
  generalize (ExtendedMantissa.ofMantissaAndAccuracy q accuracy >>> k).roundedMantissa = r at *
  rcases Nat.lt_or_ge r (2 ^ 53) with small | carry
  · have pos : 0 < r := by omega
    have full : r.log2 = 52 + 0 := (Nat.log2_eq_iff (Nat.ne_of_gt pos)).2 ⟨by omega, small⟩
    have stays : (e + k + (0 : Nat) - (e + k)).toNat = 0 := by omega
    have again : shiftToTargetExponent Format.binary64 r (e + k) .exact =
        (⟨r, false, false⟩, e + k) := by
      rw [shiftToTargetExponent, target_filled full (by omega), shiftToExponent, stays]
      exact Prod.ext rfl (Int.add_zero _)
    refine ⟨r, e + k, pos, 0, ?_, full, by omega, Nat.zero_le 1, by omega, by omega⟩
    simp only [again, dif_neg (Nat.ne_of_gt pos)]
  · obtain rfl : r = 2 ^ 52 * 2 ^ 1 := by omega
    have full : (2 ^ 52 * 2 ^ 1).log2 = 52 + 1 := by decide
    have carried : (e + k + (1 : Nat) - (e + k)).toNat = 1 := by omega
    refine ⟨2 ^ 52, e + k + 1, by decide, 1, ?_, by decide, rfl, le_rfl, by omega, by omega⟩
    rw [shiftToTargetExponent, target_filled full (by omega), shiftToExponent, carried]
    rfl

theorem round_near {k : Nat} (log : q.log2 = 52 + k) (low : -1074 ≤ e + k) (high : e + k < 971)
    (accuracy : Accuracy) :
    ∃ (m : Nat) (e' : Int) (h : Normal m e') (c : Nat),
      roundWithAccuracy Format.binary64 .positive q e accuracy = .finite .positive m e' h.pos ∧
      e' = e + k + c ∧ c ≤ 1 ∧ q / 2 ^ k ≤ m * 2 ^ c ∧ m * 2 ^ c ≤ q / 2 ^ k + 1 := by
  obtain ⟨m, e', pos, c, rounded, full, exponent, carry, bounds⟩ :=
    round_filled .positive log low accuracy
  obtain ⟨ge, lt⟩ := (Nat.log2_eq_iff (Nat.ne_of_gt pos)).1 full
  exact ⟨m, e', ⟨ge, lt, by omega, by omega⟩, c, rounded, exponent, carry, bounds⟩

theorem ofNat_eq (pos : 0 < n) (lt : n < 2 ^ 53) : Float.ofNat n = (normal_whole pos lt).toFloat :=
  ofScientific_whole pos lt

theorem finite?_ofNat (pos : 0 < n) (lt : n < 2 ^ 53) :
    finite? (Float.ofNat n) = some ⟨false, n * 2 ^ (52 - n.log2), n.log2 - 52⟩ := by
  rw [ofNat_eq pos lt]
  exact (normal_whole pos lt).finite?_eq

theorem log2_le (pos : 0 < n) (lt : n < 2 ^ 53) : n.log2 ≤ 52 :=
  Nat.le_of_lt_succ ((Nat.log2_lt (Nat.ne_of_gt pos)).2 lt)

/-- The floor of a double with so many binary places. -/
theorem floor_eq {m k : Nat} (value : finite? x = some ⟨false, m, -k⟩) :
    floor x = Float.ofNat (m / 2 ^ k) := by
  rw [floor, toWhole, value]
  dsimp only
  rw [Direction.rule, Ratio.round_down, Exact.ratio]
  cases k with
  | zero => exact congrArg Float.ofNat (congrArg (· / 1) (Nat.mul_one m))
  | succ k =>
    have below : ¬ 0 ≤ -((k + 1 : Nat) : Int) := by omega
    have places : (- -((k + 1 : Nat) : Int)).toNat = k + 1 := by omega
    rw [if_neg below, places]
    rfl

theorem floor_ofNat (lt : n < 2 ^ 53) : floor (Float.ofNat n) = Float.ofNat n := by
  rcases Nat.eq_zero_or_pos n with rfl | pos
  · have zero : finite? (Float.ofNat 0) = some ⟨false, 0, -(1074 : Nat)⟩ := by decide
    rw [floor_eq zero, Nat.zero_div]
  · have value := finite?_ofNat pos lt
    have log := log2_le pos lt
    have exponent : (n.log2 : Int) - 52 = -((52 - n.log2 : Nat) : Int) := by omega
    rw [exponent] at value
    rw [floor_eq value, Nat.mul_div_cancel _ (Nat.two_pow_pos _)]

theorem ten_unpacked : (10 : Float).toModel.unpack =
    .finite .positive (10 * 2 ^ 49) (-49) (by decide) := by rfl

theorem finite?_ten : finite? 10 = some ⟨false, 10 * 2 ^ 49, -49⟩ := by decide

/-- A digit is read back from its double. -/
theorem clampInt_digit : ∀ r < 10, ∀ j < 4,
    (clampInt 0 9
      (Exact.toFloat ⟨false, r * 2 ^ (49 + j), -((49 + j : Nat) : Int)⟩)).toNat = r := by
  decide +kernel

/-- The remainder by ten is exact. -/
theorem remainder_ten (pos : 0 < n) (lt : n < 2 ^ 53) :
    remainder (Float.ofNat n) 10 = Exact.toFloat ⟨false, n % 10 * 2 ^ (49 + (3 - n.log2)),
      -((49 + (3 - n.log2) : Nat) : Int)⟩ := by
  have log := log2_le pos lt
  have exponent : min ((n.log2 : Int) - 52) (-49) = -((49 + (3 - n.log2) : Nat) : Int) := by omega
  have places : ((n.log2 : Int) - 52 - -((49 + (3 - n.log2) : Nat) : Int)).toNat =
      n.log2 - 3 := by omega
  have places' : ((-49 : Int) - -((49 + (3 - n.log2) : Nat) : Int)).toNat = 3 - n.log2 := by omega
  have dividend : n * 2 ^ (52 - n.log2) * twoPow (n.log2 - 3) = n * 2 ^ (49 + (3 - n.log2)) := by
    rw [Nat.mul_assoc]
    exact congrArg (n * ·) ((Nat.pow_add 2 _ _).symm.trans (congrArg (2 ^ ·) (by omega)))
  have divisor : 10 * 2 ^ 49 * twoPow (3 - n.log2) = 10 * 2 ^ (49 + (3 - n.log2)) := by
    rw [Nat.mul_assoc, Nat.pow_add]
    rfl
  rw [remainder, finite?_ofNat pos lt, finite?_ten]
  simp only [exponent, places, places', dividend, divisor, Nat.mul_mod_mul_right]
  exact if_neg (by decide)

theorem ofNat_unpack (pos : 0 < n) (lt : n < 2 ^ 53) : (Float.ofNat n).toModel.unpack =
    .finite .positive (n * 2 ^ (52 - n.log2)) (n.log2 - 52) (normal_whole pos lt).pos := by
  rw [ofNat_eq pos lt]
  exact (normal_whole pos lt).unpack_eq

/-- Ten times a whole number is exact. -/
theorem ofNat_mul_ten (lt : 10 * n < 2 ^ 53) : Float.ofNat n * 10 = Float.ofNat (10 * n) := by
  rcases Nat.eq_zero_or_pos n with rfl | pos
  · decide
  have lt' : n < 2 ^ 53 := by omega
  have pos' : 0 < 10 * n := by omega
  have log := log2_le pos lt'
  have log' := log2_le pos' lt
  have more : n.log2 + 3 ≤ (10 * n).log2 := by
    have self := Nat.log2_self_le (Nat.ne_of_gt pos)
    rw [Nat.le_log2 (Nat.ne_of_gt pos'), Nat.pow_add]
    omega
  have mantissa : n * 2 ^ (52 - n.log2) * (10 * 2 ^ 49) =
      10 * n * 2 ^ (52 - (10 * n).log2) * 2 ^ (49 + (10 * n).log2 - n.log2) := by
    have powers : 2 ^ (52 - n.log2) * 2 ^ 49 =
        2 ^ (52 - (10 * n).log2) * 2 ^ (49 + (10 * n).log2 - n.log2) := by
      rw [← Nat.pow_add, ← Nat.pow_add]
      congr 1
      omega
    rw [Nat.mul_assoc (10 * n), ← powers]
    ac_rfl
  have exponent : (n.log2 : Int) - 52 + -49 =
      ((10 * n).log2 - 52 : Int) - (49 + (10 * n).log2 - n.log2 : Nat) := by omega
  have product : Float.ofNat n * 10 = .ofModel (.pack (UnpackedFloat.mul Format.binary64
      (Float.ofNat n).toModel.unpack (10 : Float).toModel.unpack)) := rfl
  rw [product, ofNat_unpack pos lt', ten_unpacked, ofNat_eq pos' lt]
  have rounded := (normal_whole pos' lt).round_scaled .positive (49 + (10 * n).log2 - n.log2)
  rw [← mantissa, ← exponent] at rounded
  exact congrArg (fun x => Float.ofModel (.pack x)) rounded

/-- Up to one unit in sixteen or more, what is near a tenth has its floor. -/
theorem div_near {p x : Nat} (fine : 16 ≤ p) (low : n * p / 10 ≤ x) (high : x ≤ n * p / 10 + 1) :
    x / p = n / 10 := by
  have split : n * p = 10 * (n / 10 * p) + n % 10 * p := by
    rw [← Nat.mul_assoc, ← Nat.add_mul, Nat.div_add_mod]
  have digit : n % 10 * p ≤ 9 * p :=
    Nat.mul_le_mul_right p (Nat.le_of_lt_succ (Nat.mod_lt n (by decide)))
  rw [Nat.div_eq_iff (by omega)]
  omega

/-- The mantissa of a tenth before it is rounded. -/
theorem divCore_ten (pos : 0 < n) (lt : n < 2 ^ 53) : ∃ accuracy,
    divCore Format.binary64 (n * 2 ^ (52 - n.log2)) (n.log2 - 52) (10 * 2 ^ 49) (-49) =
      (n * 2 ^ (56 - n.log2) / 10, (n.log2 : Int) - 56, accuracy) := by
  have normal := normal_whole pos lt
  have log := log2_le pos lt
  have ten : (10 * 2 ^ 49).log2 = 52 := by decide
  have target : Format.binary64.targetExponent
      (totalExponent (n * 2 ^ (52 - n.log2)) (n.log2 - 52) - totalExponent (10 * 2 ^ 49) (-49)) =
      n.log2 - 56 := by
    rw [totalExponent, totalExponent, normal.log2_eq, ten]
    simp [Format.targetExponent, Format.mantissaBits, Format.minExponent]
    omega
  have least : min ((n.log2 : Int) - 52 - -49) (n.log2 - 56) = n.log2 - 56 := by omega
  have amount : ((n.log2 : Int) - 52 - -49 - (n.log2 - 56)).toNat = 53 := by omega
  have mantissa : n * 2 ^ (52 - n.log2) * 2 ^ 53 = n * 2 ^ (56 - n.log2) * 2 ^ 49 := by
    rw [Nat.mul_assoc, Nat.mul_assoc, ← Nat.pow_add, ← Nat.pow_add]
    congr 2
    omega
  refine ⟨accuracyOfFraction (n * 2 ^ (56 - n.log2) * 2 ^ 49 % (10 * 2 ^ 49)) (10 * 2 ^ 49), ?_⟩
  rw [divCore, target, least, amount, Nat.shiftLeft_eq, mantissa,
    Nat.mul_div_mul_right _ _ (by decide)]

/-- A tenth is rounded to a double whose floor is that of the tenth. -/
theorem floor_div_ten (lt : n < 2 ^ 52) : floor (Float.ofNat n / 10) = Float.ofNat (n / 10) := by
  rcases Nat.eq_zero_or_pos n with rfl | pos
  · have zero : Float.ofNat 0 / 10 = Float.ofNat 0 := by decide
    rw [zero, floor_ofNat (by decide)]
  have lt' : n < 2 ^ 53 := by omega
  have log : n.log2 < 52 := (Nat.log2_lt (Nat.ne_of_gt pos)).2 lt
  obtain ⟨accuracy, core⟩ := divCore_ten pos lt'
  have ⟨filled, full, _, _⟩ := normal_whole pos lt'
  -- one of 53 or 54 bits, of which the last one is rounded away
  obtain ⟨k, bits, small⟩ : ∃ k, (n * 2 ^ (56 - n.log2) / 10).log2 = 52 + k ∧ k ≤ 1 := by
    have sixteen : n * 2 ^ (56 - n.log2) = n * 2 ^ (52 - n.log2) * 16 := by
      rw [Nat.mul_assoc, ← Nat.pow_add 2 _ 4]
      congr 2
      omega
    have ne : n * 2 ^ (56 - n.log2) / 10 ≠ 0 := by omega
    have ge := (Nat.le_log2 (k := 52) ne).2 (by omega)
    have lt := (Nat.log2_lt (k := 54) ne).2 (by omega)
    exact ⟨(n * 2 ^ (56 - n.log2) / 10).log2 - 52, by omega, by omega⟩
  obtain ⟨m, e, h, c, rounded, exponent, carry, low, high⟩ :=
    round_near bits (e := n.log2 - 56) (by omega) (by omega) accuracy
  have quotient : Float.ofNat n / 10 = h.toFloat := by
    have div : Float.ofNat n / 10 = .ofModel (.pack (UnpackedFloat.div Format.binary64
        (Float.ofNat n).toModel.unpack (10 : Float).toModel.unpack)) := rfl
    rw [div, ofNat_unpack pos lt', ten_unpacked, UnpackedFloat.div, core]
    exact congrArg (fun x => Float.ofModel (.pack x)) rounded
  have places : e = -((56 - n.log2 - k - c : Nat) : Int) := by omega
  have value := h.finite?_eq
  rw [← quotient, places] at value
  have power : 2 ^ (56 - n.log2) = 2 ^ (56 - n.log2 - k) * 2 ^ k := by
    rw [← Nat.pow_add]
    congr 1
    omega
  rw [Nat.div_right_comm, power, ← Nat.mul_assoc, Nat.mul_div_cancel _ (Nat.two_pow_pos k)]
    at low high
  have fine : 16 ≤ 2 ^ (56 - n.log2 - k) :=
    Nat.pow_le_pow_right (n := 2) (i := 4) (by decide) (by omega)
  have unscaled : m * 2 ^ c / 2 ^ (56 - n.log2 - k) = m / 2 ^ (56 - n.log2 - k - c) := by
    have power : 2 ^ (56 - n.log2 - k) = 2 ^ (56 - n.log2 - k - c) * 2 ^ c := by
      rw [← Nat.pow_add]
      congr 1
      omega
    rw [power, Nat.mul_div_mul_right _ _ (Nat.two_pow_pos c)]
  rw [floor_eq value, ← unscaled, div_near fine low high]

theorem zero_unpacked : (0 : Float).toModel.unpack = .zero .positive := by rfl

theorem ofNat_le_zero_iff (lt : n < 2 ^ 53) : Float.ofNat n ≤ 0 ↔ n = 0 := by
  rcases Nat.eq_zero_or_pos n with rfl | pos
  · exact iff_of_true (by decide) rfl
  · refine iff_of_false ?_ (Nat.ne_of_gt pos)
    change ¬ decide ((Float.ofNat n).toModel.unpack.le (0 : Float).toModel.unpack = true) = true
    rw [ofNat_unpack pos lt, zero_unpacked]
    exact Bool.false_ne_true

theorem isFinite_ofNat (lt : n < 2 ^ 53) : (Float.ofNat n).isFinite = true := by
  rcases Nat.eq_zero_or_pos n with rfl | pos
  · decide
  · change (Float.ofNat n).toModel.unpack.isFinite = true
    rw [ofNat_unpack pos lt]
    rfl

theorem not_ofNat_lt_zero (lt : n < 2 ^ 53) : ¬ Float.ofNat n < 0 := by
  rcases Nat.eq_zero_or_pos n with rfl | pos
  · decide
  · change ¬ decide ((Float.ofNat n).toModel.unpack.lt (0 : Float).toModel.unpack = true) = true
    rw [ofNat_unpack pos lt, zero_unpacked]
    exact Bool.false_ne_true

theorem abs_ofNat (lt : n < 2 ^ 53) : (Float.ofNat n).abs = Float.ofNat n := by
  rcases Nat.eq_zero_or_pos n with rfl | pos
  · decide
  · rw [ofNat_eq pos lt]
    exact (normal_whole pos lt).abs_eq

end TemplateFormula.Number
