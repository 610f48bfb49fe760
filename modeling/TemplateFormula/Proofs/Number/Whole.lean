import TemplateFormula.Proofs.Number.Doubles
import TemplateFormula.Proofs.Printing.Numeral

/-!
# The text of a whole number

A whole number below `2 ^ 53` is written with its decimal digits: no other whole number lies in the
interval of reals that read back as its double, so whatever power of ten the search for the shortest
digits stops at, the digits and the zeros behind them are the number.
-/

namespace TemplateFormula.Number

variable {m n c : Nat}

theorem natChars_zeros (pos : 0 < n) (p : Nat) :
    natChars (n * tenPow p) = natChars n ++ List.replicate p '0' := by
  induction p with
  | zero =>
    rw [List.replicate_zero, List.append_nil]
    exact congrArg natChars (Nat.mul_one n)
  | succ p ih =>
    have more : 0 < n * tenPow p := Nat.mul_pos pos (tenPow_pos p)
    have split : n * tenPow (p + 1) = 10 * (n * tenPow p) + 0 := by
      have step : tenPow (p + 1) = tenPow p * 10 := rfl
      rw [step, Nat.add_zero]
      ac_rfl
    rw [split, natChars, ← Nat.toDigits_append_toDigits (by decide) more (by decide),
      List.replicate_succ', ← List.append_assoc, ← ih]
    rfl

/-- An interval that is narrow around a whole number. -/
structure Interval.Around (i : Interval) (n : Nat) : Prop where
  value_eq : i.value = n * i.den
  low_lt : i.low < i.value
  lt_high : i.value < i.high
  low_ge : i.value ≤ i.low + 2
  high_le : i.high ≤ i.value + 2
  den_ge : 4 ≤ i.den

namespace Interval

variable {i : Interval}

theorem Around.eq_of_near (h : i.Around n) (low : i.low ≤ m * i.den) (high : m * i.den ≤ i.high) :
    m = n := by
  have ⟨value, _, _, low_ge, high_le, den⟩ := h
  rcases Nat.lt_trichotomy m n with lt | eq | gt
  · have gap := Nat.mul_le_mul_right i.den (Nat.succ_le_of_lt lt)
    rw [Nat.succ_mul] at gap
    omega
  · exact eq
  · have gap := Nat.mul_le_mul_right i.den (Nat.succ_le_of_lt gt)
    rw [Nat.succ_mul] at gap
    omega

theorem within_of_contains (h : i.contains c = true) : i.low ≤ c * i.den ∧ c * i.den ≤ i.high := by
  unfold contains at h
  split at h <;> simp only [Bool.and_eq_true, decide_eq_true_eq] at h <;> omega

/-- A multiple of a power of ten that reads back as a whole number is that number. -/
theorem Around.eq_of_contains (h : i.Around n) {p : Nat}
    (found : (i.inUnits p).contains c = true) : c * tenPow p = n := by
  obtain ⟨low, high⟩ := within_of_contains found
  rw [inUnits, if_pos (Int.natCast_nonneg p)] at low high
  have scaled : c * (i.den * tenPow p) = c * tenPow p * i.den := by ac_rfl
  simp only [Int.toNat_natCast, scaled] at low high
  exact h.eq_of_near low high

theorem contains_of_nearest? (h : i.nearest? = some c) : i.contains c = true := by
  unfold nearest? at h
  dsimp only at h
  split at h
  · next first second =>
    split at h
    all_goals
      obtain rfl := Option.some.inj h
      assumption
  · next first second => exact Option.some.inj h ▸ first
  · next first second => exact Option.some.inj h ▸ second
  · cases h

theorem Around.nearest? (h : i.Around n) : (i.inUnits (0 : Nat)).nearest? ≠ none := by
  have ⟨value, low, high, _, _, den⟩ := h
  have unit : i.inUnits (0 : Nat) = i := by
    have one : i.den * tenPow 0 = i.den := Nat.mul_one i.den
    rw [inUnits, Int.natCast_zero, if_pos (Int.le_refl 0), Int.toNat_zero, one]
  have quotient : i.value / i.den = n := by
    rw [value, Nat.mul_div_cancel _ (by omega)]
  have found : i.contains n = true := by
    unfold contains
    rw [← value]
    split <;> simp <;> omega
  rw [unit, Interval.nearest?, quotient, found]
  cases i.contains (n + 1) <;> exact Option.some_ne_none _

theorem Around.search (h : i.Around n) (fuel : Nat) {p : Nat} (enough : p < fuel) :
    ∃ c q : Nat, i.search fuel p = ⟨c, q⟩ ∧ c * tenPow q = n := by
  induction fuel generalizing p with
  | zero => exact absurd enough (Nat.not_lt_zero p)
  | succ fuel ih =>
    rw [Interval.search]
    cases found : (i.inUnits p).nearest? with
    | some c => exact ⟨c, p, rfl, h.eq_of_contains (contains_of_nearest? found)⟩
    | none =>
      cases p with
      | zero => exact absurd found h.nearest?
      | succ p =>
        have down : ((p + 1 : Nat) : Int) - 1 = p := by omega
        rw [down]
        exact ih (by omega)

end Interval

theorem around_whole (pos : 0 < n) (lt : n < 2 ^ 53) :
    (Exact.interval ⟨false, n * 2 ^ (52 - n.log2), n.log2 - 52⟩).Around n := by
  have ⟨ge, _, _, _⟩ := normal_whole pos lt
  have small : n.log2 < 53 := (Nat.log2_lt (Nat.ne_of_gt pos)).2 lt
  have below : ¬ 0 ≤ (n.log2 : Int) - 52 - 2 := by omega
  have places : (-((n.log2 : Int) - 52 - 2)).toNat = 52 - n.log2 + 2 := by omega
  have den : twoPow (52 - n.log2 + 2) = 2 ^ (52 - n.log2) * 4 := Nat.pow_add 2 _ 2
  have two : 0 < 2 ^ (52 - n.log2) := Nat.two_pow_pos _
  have scaled : n * (2 ^ (52 - n.log2) * 4) = 4 * (n * 2 ^ (52 - n.log2)) := by ac_rfl
  simp only [Exact.interval, if_neg below, places, den]
  refine ⟨?_, ?_, ?_, ?_, ?_, ?_⟩ <;> dsimp only <;> (try split) <;> omega

theorem shortest_whole (pos : 0 < n) (lt : n < 2 ^ 53) :
    ∃ c q : Nat, Exact.shortest ⟨false, n * 2 ^ (52 - n.log2), n.log2 - 52⟩ = ⟨c, q⟩ ∧
      c * tenPow q = n := by
  have normal := normal_whole pos lt
  have small : n.log2 < 53 := (Nat.log2_lt (Nat.ne_of_gt pos)).2 lt
  have scale : Exact.scale ⟨false, n * 2 ^ (52 - n.log2), n.log2 - 52⟩ =
      ((n.log2 * 30103 / 100000 + 1 : Nat) : Int) := by
    rw [Exact.scale, normal.log2_eq]
    dsimp only
    omega
  rw [Exact.shortest, if_neg (Nat.ne_of_gt normal.pos), scale]
  exact (around_whole pos lt).search 22 (by omega)

/-- The double that the digits of a whole number are read as. -/
def whole (n : Nat) : Float := Decimal.toFloat ⟨n, 0⟩

theorem whole_eq (pos : 0 < n) (lt : n < 2 ^ 53) : whole n = (normal_whole pos lt).toFloat := by
  have short : (Nat.toDigits 10 n).length ≤ 16 :=
    (Nat.length_toDigits_le_iff (by decide) (by decide)).2 (by omega)
  rw [whole, Decimal.toFloat]
  dsimp only
  rw [if_neg (Nat.ne_of_gt pos), if_neg (by omega), if_neg (by omega)]
  exact ofScientific_whole pos lt

theorem chars_whole (lt : n < 2 ^ 53) : chars (whole n) = natChars n := by
  rcases Nat.eq_zero_or_pos n with rfl | pos
  · rfl
  have normal := normal_whole pos lt
  have small : n.log2 < 53 := (Nat.log2_lt (Nat.ne_of_gt pos)).2 lt
  have largest : (1e21 : Float).toModel.unpack =
      .finite .positive 7629394531250000 17 (by decide) := by rfl
  have smallest : (1e-6 : Float).toModel.unpack =
      .finite .positive 4722366482869645 (-72) (by decide) := by rfl
  obtain ⟨c, q, digits, value⟩ := shortest_whole pos lt
  have coefficient : 0 < c := by
    rcases Nat.eq_zero_or_pos c with rfl | h
    · rw [Nat.zero_mul] at value
      omega
    · exact h
  have middle : (decide ((whole n).abs ≥ 1e21) || decide ((whole n).abs < 1e-6)) = false := by
    rw [whole_eq pos lt, normal.abs_eq]
    rw [Bool.or_eq_false_iff, decide_eq_false_iff_not, decide_eq_false_iff_not]
    exact ⟨normal.not_le largest (by omega), normal.not_lt smallest (by omega)⟩
  rw [chars, middle, whole_eq pos lt, normal.finite?_eq]
  simp only [if_neg (Nat.ne_of_gt normal.pos), digits]
  rw [← value, natChars_zeros coefficient]
  simp [signChars, Decimal.positional]

theorem parse?_natChars (n : Nat) : parse? (natChars n) = some (whole n) := by
  have digits := natChars_areDigits n
  obtain ⟨d, ds, split⟩ : ∃ d ds, natChars n = d :: ds := List.exists_cons_of_ne_nil digits.1
  have first : d.isDigit = true := digits.2 d (by rw [split]; exact List.mem_cons_self)
  have unsigned : takeSign (natChars n) = (false, natChars n) := by
    rw [split]
    exact takeSign_signChars false first
  have all : (natChars n ++ []).span Char.isDigit = (natChars n, []) :=
    span_digits digits (by simp)
  rw [List.append_nil] at all
  have decimal : takeDecimal? (natChars n) = some (⟨n, 0⟩, []) := by
    simp only [takeDecimal?, all, takeFraction, takeExponent]
    rw [split]
    simp
    rw [← split, natChars, Nat.ofDigitChars_toDigits (by decide) (by decide)]
  rw [parse?, unsigned]
  simp only [decimal]
  rfl

end TemplateFormula.Number
