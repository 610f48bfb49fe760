import TemplateFormula.Proofs.Number.Digits

/-!
# Doubles of integers

An integer below `2 ^ 53` in magnitude is a double, and so is the product of two of them if it is
as small. A larger integer is rounded, but never to a double below `2 ^ 53`: a place of its mantissa
is worth two or more, or it is an infinity. So whatever is read off a double tells whether the
integer was small, and then which one it was.
-/

namespace TemplateFormula.Number

open Float.Model UnpackedFloat

variable {u : UnpackedFloat} {x : Float} {v w : Int} {n q k : Nat} {e : Int}

/-- The parts of the double next to an integer. -/
inductive Nearest (v : Int) : UnpackedFloat → Prop
  | zero (s : Sign) : v = 0 → Nearest v (.zero s)
  | small (s : Sign) {n : Nat} (pos : 0 < n) (lt : n < 2 ^ 53) : v = s.apply n →
    Nearest v (.finite s (n * 2 ^ (52 - n.log2)) (n.log2 - 52) (normal_whole pos lt).pos)
  | large (s : Sign) {n m : Nat} {e : Int} (pos : 0 < m) : 2 ^ 53 ≤ n → v = s.apply n →
    m.log2 = 52 → 1 ≤ e → Nearest v (.finite s m e pos)
  | infinite (s : Sign) {n : Nat} : 2 ^ 53 ≤ n → v = s.apply n → Nearest v (.infinity s)

namespace Nearest

theorem packed (h : Nearest v u) : Nearest v (packed u).toModel.unpack := by
  cases h with
  | zero s zero =>
    rw [unpack_zero]
    exact .zero s zero
  | small s pos lt value =>
    have normal := normal_whole pos lt
    rw [unpack_finite s normal.pos normal.log2_eq normal.exponent_ge, if_pos normal.exponent_le]
    exact .small s pos lt value
  | large s pos ge value log high =>
    rw [unpack_finite s pos log (by omega)]
    split
    · exact .large s pos ge value log high
    · exact .infinite s ge value
  | infinite s ge value =>
    rw [unpack_infinity]
    exact .infinite s ge value

theorem neg (h : Nearest v u) : Nearest (-v) u.neg := by
  have apply_neg (s : Sign) (n : Int) : -s.apply n = (-s).apply n := by
    cases s
    · exact Int.neg_neg n
    · rfl
  cases h with
  | zero s zero => exact .zero _ (zero ▸ Int.neg_zero)
  | small s pos lt value => exact .small _ pos lt (value ▸ apply_neg s _)
  | large s pos ge value log high => exact .large _ pos ge (value ▸ apply_neg s _) log high
  | infinite s ge value => exact .infinite _ ge (value ▸ apply_neg s _)

theorem large_rounded (s : Sign) (ge : 2 ^ 53 ≤ n) (log : q.log2 = 52 + k) (high : 1 ≤ e + k) :
    Nearest (s.apply n) (roundWithAccuracy Format.binary64 s q e .exact) := by
  obtain ⟨m, e', pos, c, rounded, full, exponent, -⟩ := round_filled s (e := e) log (by omega) .exact
  rw [rounded]
  exact .large s pos ge rfl full (by omega)

/-- A whole number is rounded from any mantissa that is long enough. -/
theorem rounded (s : Sign) (pos : 0 < n) {j : Nat} (long : 52 ≤ n.log2 + j) :
    Nearest (s.apply n) (roundWithAccuracy Format.binary64 s (n * 2 ^ j) (-j) .exact) := by
  rcases Nat.lt_or_ge n (2 ^ 53) with lt | ge
  · have log := log2_le pos lt
    have mantissa : n * 2 ^ j = n * 2 ^ (52 - n.log2) * 2 ^ (j - (52 - n.log2)) := by
      rw [Nat.mul_assoc, ← Nat.pow_add]
      congr 2
      omega
    have exponent : -(j : Int) = (n.log2 - 52 : Int) - (j - (52 - n.log2) : Nat) := by omega
    rw [mantissa, exponent, (normal_whole pos lt).round_scaled s]
    exact .small s pos lt rfl
  · have high : 53 ≤ n.log2 := (Nat.le_log2 (Nat.ne_of_gt pos)).2 ge
    have log : (n * 2 ^ j).log2 = 52 + (n.log2 + j - 52) := by
      rw [Normal.log2_scaled (Nat.ne_of_gt pos)]
      omega
    exact large_rounded s ge log (by omega)

theorem ofNat (n : Nat) : Nearest n (Float.ofNat n).toModel.unpack := by
  rcases Nat.eq_zero_or_pos n with rfl | pos
  · exact .zero .positive rfl
  rcases Nat.lt_or_ge n (2 ^ 53) with lt | ge
  · rw [ofNat_unpack pos lt]
    exact .small .positive pos lt rfl
  · have large : ¬ (n < 2 ^ 53 ∧ 0 ≤ 22) := fun small => Nat.not_lt.2 ge small.1
    have scientific : Float.ofNat n =
        Number.packed (UnpackedFloat.ofScientific Format.binary64 n 0) := dif_neg large
    have bound : ¬ (0 : Int) < -(2 ^ Format.binary64.exponentBits + n.log2) := by
      have bits : (2 : Int) ^ Format.binary64.exponentBits = 2048 := rfl
      omega
    rw [scientific, UnpackedFloat.ofScientific, dif_neg (Nat.ne_of_gt pos), if_neg (by decide),
      if_neg bound, if_pos le_rfl]
    have shifted : n <<< 53 * 10 ^ (0 : Int).toNat = n * 2 ^ 53 :=
      (Nat.mul_one _).trans (Nat.shiftLeft_eq n 53)
    have product := rounded .positive pos (j := 53) (by omega)
    rw [← shifted] at product
    exact product.packed

theorem ofInt (v : Int) : Nearest v (Float.ofInt v).toModel.unpack := by
  cases v with
  | ofNat n => exact ofNat n
  | negSucc n => exact (ofNat (n + 1)).neg.packed

/-- A product with a positive factor that is a double. -/
theorem mul (h : Nearest v u) (pos : 0 < n) (lt : n < 2 ^ 53) :
    Nearest (v * n) (UnpackedFloat.mul Format.binary64 u
      (.finite .positive (n * 2 ^ (52 - n.log2)) (n.log2 - 52) (normal_whole pos lt).pos)) := by
  have sign (s : Sign) : s * .positive = s := by cases s <;> rfl
  have apply_mul (s : Sign) (i : Nat) : s.apply i * n = s.apply (i * n : Nat) := by
    cases s
    · exact Int.neg_mul i n
    · rfl
  have log := log2_le pos lt
  cases h with
  | zero s zero => exact .zero _ (by rw [zero, Int.zero_mul])
  | small s pos' lt' value =>
    rename_i i
    have log' := log2_le pos' lt'
    have mantissa : i * 2 ^ (52 - i.log2) * (n * 2 ^ (52 - n.log2)) =
        i * n * 2 ^ (104 - i.log2 - n.log2) := by
      have powers : 104 - i.log2 - n.log2 = 52 - i.log2 + (52 - n.log2) := by omega
      rw [powers, Nat.pow_add]
      ac_rfl
    have exponent : (i.log2 - 52 : Int) + (n.log2 - 52) = -(104 - i.log2 - n.log2 : Nat) := by
      omega
    have both : 0 < i * n := Nat.mul_pos pos' pos
    have long : i.log2 + n.log2 ≤ (i * n).log2 := by
      rw [Nat.le_log2 (Nat.ne_of_gt both), Nat.pow_add]
      exact Nat.mul_le_mul (Nat.log2_self_le (Nat.ne_of_gt pos'))
        (Nat.log2_self_le (Nat.ne_of_gt pos))
    rw [UnpackedFloat.mul, sign, mantissa, exponent, value, apply_mul]
    exact rounded s both (by omega)
  | large s pos' ge value full high =>
    rename_i i m e'
    have full' := (normal_whole pos lt).log2_eq
    have both : 0 < m * (n * 2 ^ (52 - n.log2)) := Nat.mul_pos pos' (normal_whole pos lt).pos
    have long : 52 + 52 ≤ (m * (n * 2 ^ (52 - n.log2))).log2 := by
      rw [Nat.le_log2 (Nat.ne_of_gt both), Nat.pow_add]
      exact Nat.mul_le_mul ((Nat.le_log2 (Nat.ne_of_gt pos')).1 full.ge)
        ((Nat.le_log2 (Nat.ne_of_gt (normal_whole pos lt).pos)).1 full'.ge)
    rw [UnpackedFloat.mul, sign, value, apply_mul]
    exact large_rounded s (ge.trans (Nat.le_mul_of_pos_right i pos))
      (k := (m * (n * 2 ^ (52 - n.log2))).log2 - 52) (by omega) (by omega)
  | infinite s ge value =>
    rename_i i
    rw [UnpackedFloat.mul, sign, value, apply_mul]
    exact .infinite s (ge.trans (Nat.le_mul_of_pos_right i pos)) rfl

end Nearest

/-- A ratio that is a whole number is that number however it is rounded. -/
theorem Ratio.round_whole (rule : Rule) {r : Ratio} (pos : 0 < r.den) (whole : r.num = n * r.den) :
    r.round rule = n := by
  have rest : rule.roundsUp n 0 r.den = false := by
    cases rule <;> simp [Rule.roundsUp] <;> omega
  rw [Ratio.round, whole, Nat.mul_div_cancel _ pos, Nat.mul_mod_left, rest]
  exact Nat.add_zero n

theorem Exact.ratio_whole {a : Exact} {j : Nat} (mantissa : a.mantissa = n * 2 ^ j)
    (exponent : a.exponent = -j) : a.ratio.num = n * a.ratio.den := by
  rw [Exact.ratio, mantissa, exponent]
  cases j with
  | zero => exact Nat.mul_one _
  | succ j =>
    have below : ¬ 0 ≤ -((j + 1 : Nat) : Int) := by omega
    have places : (- -((j + 1 : Nat) : Int)).toNat = j + 1 := by omega
    rw [if_neg below, places]
    rfl

theorem Exact.ratio_large {a : Exact} (full : a.mantissa.log2 = 52) (high : 1 ≤ a.exponent) :
    ∃ n, a.ratio.num = n * a.ratio.den ∧ 2 ^ 53 ≤ n := by
  have filled : 2 ^ 52 ≤ a.mantissa := by
    rw [← full]
    exact Nat.log2_self_le (by rintro zero; simp [zero] at full)
  have two : 2 ^ 1 ≤ twoPow a.exponent.toNat := Nat.pow_le_pow_right (by decide) (by omega)
  rw [Exact.ratio, if_pos (by omega)]
  exact ⟨_, (Nat.mul_one _).symm, Nat.mul_le_mul filled two⟩

theorem apply_eq (s : Sign) (n : Int) : s.apply n = if isNegative s then -n else n := by
  cases s <;> rfl

theorem natAbs_apply (s : Sign) (n : Nat) : (s.apply n).natAbs = n := by
  cases s
  · exact Int.natAbs_neg n
  · rfl

namespace Nearest

/-- The magnitude that the parts have, and their sign. -/
theorem value (h : Nearest v u) {a : Exact} (found : unpackedValue? u = some a) :
    ∃ n : Nat, a.ratio.num = n * a.ratio.den ∧
      (v.natAbs < 2 ^ 53 → n = v.natAbs) ∧ (2 ^ 53 ≤ v.natAbs → 2 ^ 53 ≤ n) ∧
      v = if a.negative then -(v.natAbs : Int) else v.natAbs := by
  cases h with
  | zero s zero =>
    obtain rfl := Option.some.inj found
    subst zero
    exact ⟨0, (Nat.zero_mul _).symm, fun _ => rfl, id, by split <;> rfl⟩
  | small s pos lt valued =>
    rename_i n
    obtain rfl := Option.some.inj found
    have log := log2_le pos lt
    rw [valued, natAbs_apply]
    exact ⟨n, Exact.ratio_whole rfl (by dsimp only; omega), fun _ => rfl, id, apply_eq s n⟩
  | large s pos ge valued full high =>
    rename_i n m e
    obtain rfl := Option.some.inj found
    obtain ⟨i, whole, large⟩ := Exact.ratio_large (a := ⟨isNegative s, m, e⟩) full high
    rw [valued, natAbs_apply]
    exact ⟨i, whole, fun lt => absurd ge (Nat.not_le.2 lt), fun _ => large, apply_eq s n⟩
  | infinite s ge valued => cases found

theorem isFinite (h : Nearest v u) (lt : v.natAbs < 2 ^ 53) : u.isFinite = true := by
  cases h with
  | infinite s ge valued =>
    rw [valued, natAbs_apply] at lt
    exact absurd ge (Nat.not_le.2 lt)
  | _ => rfl

end Nearest

/-- What can be read off the double next to an integer. -/
structure Stands (x : Float) (v : Int) : Prop where
  finite : v.natAbs < 2 ^ 53 → x.isFinite = true
  integer : v.natAbs < 2 ^ 53 → ∀ d, integer? d x = some v
  above : 2 ^ 53 ≤ v → ∀ d i, integer? d x = some i → 2 ^ 53 ≤ i
  below : v ≤ -2 ^ 53 → ∀ d i, integer? d x = some i → i ≤ -2 ^ 53

theorem Nearest.integer (h : Nearest v x.toModel.unpack) {a : Exact}
    (found : finite? x = some a) :
    ∃ i : Int, (∀ d, integer? d x = some i) ∧ (v.natAbs < 2 ^ 53 → i = v) ∧
      (2 ^ 53 ≤ v → 2 ^ 53 ≤ i) ∧ (v ≤ -2 ^ 53 → i ≤ -2 ^ 53) := by
  obtain ⟨n, whole, small, large, sign⟩ := h.value ((finite?_eq_unpacked x).symm.trans found)
  refine ⟨if a.negative then -(n : Int) else n, fun d => ?_, ?_⟩
  · rw [integer?, found, Option.map_some, Ratio.round_whole _ a.ratio_den_pos whole]
  · cases negative : a.negative with
    | false =>
      rw [negative, if_neg Bool.false_ne_true] at sign
      rw [if_neg Bool.false_ne_true]
      omega
    | true =>
      rw [negative, if_pos rfl] at sign
      rw [if_pos rfl]
      omega

theorem Nearest.stands (h : Nearest v x.toModel.unpack) : Stands x v := by
  refine ⟨h.isFinite, fun lt d => ?_, fun ge d i found => ?_, fun le d i found => ?_⟩
  · have finite := h.isFinite lt
    obtain ⟨a, value⟩ : ∃ a, finite? x = some a := by
      rw [finite?_eq_unpacked]
      cases parts : x.toModel.unpack with
      | finite | zero => exact ⟨_, rfl⟩
      | infinity | notANumber =>
        rw [parts] at finite
        cases finite
    obtain ⟨i, read, small, -⟩ := h.integer value
    rw [read d, small lt]
  · obtain ⟨a, value, -⟩ := Option.map_eq_some_iff.1 found
    obtain ⟨j, read, -, above, -⟩ := h.integer value
    exact Option.some.inj ((read d).symm.trans found) ▸ above ge
  · obtain ⟨a, value, -⟩ := Option.map_eq_some_iff.1 found
    obtain ⟨j, read, -, -, below⟩ := h.integer value
    exact Option.some.inj ((read d).symm.trans found) ▸ below le

theorem stands_ofInt (v : Int) : Stands (Float.ofInt v) v := (Nearest.ofInt v).stands

theorem toInt64_ofInt (small : v.natAbs < 2 ^ 53) : toInt64 (Float.ofInt v) = v := by
  rw [toInt64, clampInt, (stands_ofInt v).integer small]
  unfold minInt64 maxInt64
  dsimp only
  omega

theorem stands_mul (v : Int) (pos : 0 < n) (lt : n < 2 ^ 53) :
    Stands (Float.ofInt v * Float.ofInt n) (v * n) := by
  have product : (Float.ofInt v * Float.ofInt n).toModel.unpack =
      (packed (UnpackedFloat.mul Format.binary64 (Float.ofInt v).toModel.unpack
        (Float.ofNat n).toModel.unpack)).toModel.unpack := rfl
  refine Nearest.stands ?_
  rw [product, ofNat_unpack pos lt]
  exact ((Nearest.ofInt v).mul pos lt).packed

end TemplateFormula.Number
