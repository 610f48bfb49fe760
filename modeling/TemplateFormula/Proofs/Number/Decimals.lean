import TemplateFormula.Proofs.Number.Doubles
import TemplateFormula.Proofs.Number.Order
import TemplateFormula.Proofs.Printing.Numeral

/-!
# Decimals

A decimal is a row of digits with at most one point before, among or behind them, and perhaps an
exponent. The texts that are used up by reading a decimal are those, and the double that is read is
a number: neither packing into bits nor a product or quotient of finite doubles makes a NaN.
-/

namespace TemplateFormula.Number

open Float.Model UnpackedFloat

section Reading

open Scan (AreDigits IsPower)

variable {cs rest : List Char}

/-- Digits with perhaps a point, at least one digit, and perhaps an exponent. -/
def IsDecimal (cs : List Char) : Prop :=
  ∃ whole point fraction power, cs = whole ++ point ++ fraction ++ power ∧
    (∀ c ∈ whole, c.isDigit = true) ∧ (∀ c ∈ fraction, c.isDigit = true) ∧
    (point = ['.'] ∨ point = [] ∧ fraction = []) ∧ (whole ≠ [] ∨ fraction ≠ []) ∧ IsPower power

/-- No sign, or one of the two. -/
def IsSign (cs : List Char) : Prop := cs = [] ∨ cs = ['+'] ∨ cs = ['-']

/-- A power and the exponent that it stands for. -/
inductive Scales : List Char → Int → Prop where
  | none : Scales [] 0
  | mark {c : Char} {sign ds : List Char} (mark : c = 'e' ∨ c = 'E') (isSign : IsSign sign)
      (digits : AreDigits ds) :
      Scales (c :: sign ++ ds)
        (if sign = ['-'] then -(Nat.ofDigitChars 10 ds 0 : Int) else Nat.ofDigitChars 10 ds 0)

/-- A decimal as a whole number times a power of ten. -/
inductive Spells : List Char → Decimal → Prop where
  | mk {whole point fraction power : List Char} {e : Int}
      (whole_digits : ∀ c ∈ whole, c.isDigit = true)
      (fraction_digits : ∀ c ∈ fraction, c.isDigit = true)
      (dotted : point = ['.'] ∨ point = [] ∧ fraction = [])
      (some_ : whole ≠ [] ∨ fraction ≠ []) (scales : Scales power e) :
      Spells (whole ++ point ++ fraction ++ power)
        ⟨Nat.ofDigitChars 10 (whole ++ fraction) 0, e - fraction.length⟩

theorem Scales.isPower {power : List Char} {e : Int} (h : Scales power e) : IsPower power := by
  cases h with
  | none => exact .inl rfl
  | mark mark isSign digits => exact .inr ⟨_, _, _, rfl, mark, isSign, digits⟩

theorem Spells.isDecimal {d : Decimal} (h : Spells cs d) : IsDecimal cs := by
  obtain ⟨whole, fraction, dotted, some_, scales⟩ := h
  exact ⟨_, _, _, _, rfl, whole, fraction, dotted, some_, scales.isPower⟩

theorem IsDecimal.spells (h : IsDecimal cs) : ∃ d, Spells cs d := by
  obtain ⟨whole, point, fraction, power, rfl, digits, behind, dotted, some_, isPower⟩ := h
  have scaled : ∃ e, Scales power e := by
    rcases isPower with rfl | ⟨mark, sign, ds, rfl, marks, isSign, digits⟩
    · exact ⟨0, .none⟩
    · exact ⟨_, .mark marks isSign digits⟩
  obtain ⟨e, scales⟩ := scaled
  exact ⟨_, .mk digits behind dotted some_ scales⟩

theorem span_eq_takeWhile (cs : List Char) :
    cs.span Char.isDigit = (cs.takeWhile Char.isDigit, cs.dropWhile Char.isDigit) :=
  List.span_eq_takeWhile_dropWhile _ cs

theorem span_of_digits {ds : List Char} (digits : ∀ c ∈ ds, c.isDigit = true)
    (ends : ∀ c ∈ rest.head?, c.isDigit = false) :
    (ds ++ rest).span Char.isDigit = (ds, rest) := by
  rw [span_eq_takeWhile, List.takeWhile_append_of_pos digits, List.dropWhile_append_of_pos digits]
  cases rest with
  | nil => simp
  | cons c rest => simp [ends c rfl]

theorem digits_takeWhile (cs : List Char) : ∀ c ∈ cs.takeWhile Char.isDigit, c.isDigit = true :=
  fun _ member => List.mem_takeWhile_imp member

theorem takeSign_parts (cs : List Char) :
    ∃ sign, IsSign sign ∧ cs = sign ++ (takeSign cs).2 ∧
      (takeSign cs).1 = decide (sign = ['-']) := by
  rw [takeSign.eq_def]
  split
  · exact ⟨['-'], .inr (.inr rfl), rfl, rfl⟩
  · exact ⟨['+'], .inr (.inl rfl), rfl, rfl⟩
  · exact ⟨[], .inl rfl, rfl, rfl⟩

theorem takeSign_append {sign : List Char} (h : IsSign sign)
    (unsigned : ∀ c ∈ cs.head?, c ≠ '+' ∧ c ≠ '-') :
    takeSign (sign ++ cs) = (decide (sign = ['-']), cs) := by
  rcases h with rfl | rfl | rfl
  · rw [List.nil_append, takeSign.eq_def]
    split
    · exact absurd rfl (unsigned '-' rfl).2
    · exact absurd rfl (unsigned '+' rfl).1
    · rfl
  · rfl
  · rfl

/-- A digit is no sign. -/
theorem unsigned_of_isDigit {c : Char} (digit : c.isDigit = true) (cs : List Char) :
    ∀ d ∈ (c :: cs).head?, d ≠ '+' ∧ d ≠ '-' := by
  rintro _ ⟨⟩
  constructor
  · rintro rfl
    cases digit
  · rintro rfl
    cases digit

/-- What is read as a fraction is a point with digits behind it, or nothing. -/
theorem takeFraction_parts (cs : List Char) :
    ∃ point, (point = ['.'] ∨ point = [] ∧ (takeFraction cs).1 = []) ∧
      (∀ c ∈ (takeFraction cs).1, c.isDigit = true) ∧
      cs = point ++ (takeFraction cs).1 ++ (takeFraction cs).2 := by
  rw [takeFraction.eq_def]
  split
  · next ds =>
    rw [span_eq_takeWhile]
    refine ⟨['.'], .inl rfl, digits_takeWhile ds, ?_⟩
    exact congrArg ('.' :: ·) List.takeWhile_append_dropWhile.symm
  · exact ⟨[], .inr ⟨rfl, rfl⟩, List.forall_mem_nil _, rfl⟩

/-- The exponent that is read, with what spells it. -/
theorem takeExponent_scales (cs : List Char) :
    ∃ power, Scales power (takeExponent cs).1 ∧ cs = power ++ (takeExponent cs).2 := by
  cases cs with
  | nil => exact ⟨[], .none, rfl⟩
  | cons c r =>
    simp only [takeExponent, span_eq_takeWhile]
    split
    · next mark =>
      obtain ⟨sign, isSign, split, negative⟩ := takeSign_parts r
      split
      · exact ⟨[], .none, rfl⟩
      · next some_ =>
        have digits : AreDigits ((takeSign r).2.takeWhile Char.isDigit) :=
          ⟨by simpa using some_, digits_takeWhile _⟩
        have scales := Scales.mark mark isSign digits
        simp only [negative, decide_eq_true_eq]
        refine ⟨_, scales, ?_⟩
        rw [List.cons_append, List.cons_append, List.append_assoc,
          List.takeWhile_append_dropWhile, ← split]
    · exact ⟨[], .none, rfl⟩

/-- What is taken from the front of a text is a decimal. -/
theorem spells_of_takeDecimal? {d : Decimal} (h : takeDecimal? cs = some (d, rest)) :
    ∃ body, Spells body d ∧ cs = body ++ rest := by
  rw [takeDecimal?, span_eq_takeWhile] at h
  dsimp only at h
  split at h
  · cases h
  · next digits =>
    obtain ⟨point, dotted, fraction, split⟩ := takeFraction_parts (cs.dropWhile Char.isDigit)
    obtain ⟨power, scales, split'⟩ :=
      takeExponent_scales (takeFraction (cs.dropWhile Char.isDigit)).2
    obtain ⟨rfl, rfl⟩ := Prod.mk.inj (Option.some.inj h)
    refine ⟨_, .mk (digits_takeWhile cs) fraction dotted ?_ scales, ?_⟩
    · simpa [-List.takeWhile_eq_nil_iff, imp_iff_not_or] using digits
    · rw [List.append_assoc, List.append_assoc, List.append_assoc, ← split',
        ← List.append_assoc point, ← split, List.takeWhile_append_dropWhile]

theorem takeExponent_of_scales {power : List Char} {e : Int} (h : Scales power e) :
    takeExponent power = (e, []) := by
  cases h with
  | none => rfl
  | @mark c sign ds mark isSign digits =>
    obtain ⟨d, ds, rfl⟩ := List.exists_cons_of_ne_nil digits.1
    have taken := takeSign_append isSign
      (unsigned_of_isDigit (digits.2 d List.mem_cons_self) ds)
    have all : (d :: ds ++ []).span Char.isDigit = (d :: ds, []) := span_of_digits digits.2 nofun
    rw [List.append_nil] at all
    simp only [takeExponent, List.cons_append, if_pos mark, taken, all, List.isEmpty_cons,
      Bool.false_eq_true, if_false, decide_eq_true_eq]

/-- A decimal is used up. -/
theorem takeDecimal?_of_spells {d : Decimal} (h : Spells cs d) :
    takeDecimal? cs = some (d, []) := by
  obtain @⟨whole, point, fraction, power, e, hw, hf, dotted, some_, scales⟩ := h
  have exponent := takeExponent_of_scales scales
  have behind : ∀ c ∈ (power ++ []).head?, c.isDigit = false ∧ c ≠ '.' :=
    scales.isPower.behind nofun
  rw [List.append_nil] at behind
  have tail : takeFraction (point ++ fraction ++ power) = (fraction, power) := by
    rcases dotted with rfl | ⟨rfl, rfl⟩
    · exact span_of_digits hf fun c first => (behind c first).1
    · rw [List.append_nil, List.nil_append, takeFraction.eq_def]
      split
      · exact absurd rfl (behind '.' rfl).2
      · rfl
  have front : (whole ++ (point ++ fraction ++ power)).span Char.isDigit =
      (whole, point ++ fraction ++ power) := by
    refine span_of_digits hw fun c first => ?_
    rcases dotted with rfl | ⟨rfl, rfl⟩
    · obtain rfl := Option.some.inj first
      rfl
    · exact (behind c first).1
  have digits : (whole.isEmpty && fraction.isEmpty) = false := by
    cases whole <;> cases fraction <;> simp at some_ ⊢
  have grouped : whole ++ point ++ fraction ++ power = whole ++ (point ++ fraction ++ power) := by
    simp only [List.append_assoc]
  rw [takeDecimal?, grouped, front]
  dsimp only
  rw [tail]
  dsimp only
  rw [digits, exponent]
  rfl

/-- The texts that are decimals from end to end. -/
theorem takeDecimal?_iff : (∃ d, takeDecimal? cs = some (d, [])) ↔ IsDecimal cs := by
  constructor
  · rintro ⟨d, h⟩
    obtain ⟨body, spells, split⟩ := spells_of_takeDecimal? h
    rw [split, List.append_nil]
    exact spells.isDecimal
  · intro decimal
    obtain ⟨d, spells⟩ := decimal.spells
    exact ⟨d, takeDecimal?_of_spells spells⟩

end Reading

section Packing

variable {u : UnpackedFloat} {x y : Float}

theorem unpack_packComponents_ne (s : Sign) {e : BitVec 11} (m : BitVec 52) (ordinary : e ≠ -1#11) :
    UnpackedFloat.unpack Format.binary64 (packComponents Format.binary64 s e m) ≠ .notANumber := by
  rw [UnpackedFloat.unpack]
  simp only [unpackMantissa_packComponents, unpackExponent_packComponents,
    unpackSign_packComponents]
  rw [if_neg ordinary]
  split_ifs <;> exact UnpackedFloat.noConfusion

/-- Packing makes no NaN of anything else. -/
theorem isNaN_packed (h : u ≠ .notANumber) : (packed u).isNaN = false := by
  rw [isNaN_eq_false_iff]
  cases u with
  | notANumber => exact absurd rfl h
  | infinity s => rw [unpack_infinity]; exact UnpackedFloat.noConfusion
  | zero s => rw [unpack_zero]; exact UnpackedFloat.noConfusion
  | finite s m e pos =>
    change UnpackedFloat.unpack Format.binary64
      (UnpackedFloat.pack Format.binary64 (.finite s m e pos)) ≠ _
    rw [UnpackedFloat.pack]
    dsimp only
    split_ifs with large full
    · have infinite := unpack_infinity s
      intro same
      exact UnpackedFloat.noConfusion (infinite.symm.trans same)
    · refine unpack_packComponents_ne s _ fun ones => ?_
      have value := congrArg BitVec.toNat ones
      rw [BitVec.toNat_ofNat] at value
      have top : (-1#11).toNat = 2047 := rfl
      rw [top, Nat.mod_eq_of_lt (by omega)] at value
      omega
    · exact unpack_packComponents_ne s _ (by decide)

theorem round_ne (s : Sign) (m : Nat) (e : Int) (a : Accuracy) :
    roundWithAccuracy Format.binary64 s m e a ≠ .notANumber := by
  rw [roundWithAccuracy]
  dsimp only
  split_ifs <;> exact UnpackedFloat.noConfusion

/-- Finite and not zero. -/
def isProper : UnpackedFloat → Bool
  | .finite _ _ _ _ => true
  | _ => false

theorem isNaN_mul (hx : x.isNaN = false) (hy : isProper y.toModel.unpack = true) :
    (x * y).isNaN = false := by
  rw [isNaN_eq_false_iff] at hx
  change (packed (UnpackedFloat.mul Format.binary64 x.toModel.unpack y.toModel.unpack)).isNaN = _
  refine isNaN_packed ?_
  generalize x.toModel.unpack = u at hx
  generalize y.toModel.unpack = v at hy
  cases v with
  | finite =>
    cases u with
    | notANumber => exact absurd rfl hx
    | finite => exact round_ne _ _ _ _
    | _ => exact UnpackedFloat.noConfusion
  | _ => cases hy

theorem isNaN_div (hx : x.isNaN = false) (hy : isProper y.toModel.unpack = true) :
    (x / y).isNaN = false := by
  rw [isNaN_eq_false_iff] at hx
  change (packed (UnpackedFloat.div Format.binary64 x.toModel.unpack y.toModel.unpack)).isNaN = _
  refine isNaN_packed ?_
  generalize x.toModel.unpack = u at hx
  generalize y.toModel.unpack = v at hy
  cases v with
  | finite =>
    cases u with
    | notANumber => exact absurd rfl hx
    | finite => exact round_ne _ _ _ _
    | _ => exact UnpackedFloat.noConfusion
  | _ => cases hy

theorem isNaN_neg (hx : x.isNaN = false) : (-x).isNaN = false := by
  rw [isNaN_eq_false_iff] at hx
  change (packed x.toModel.unpack.neg).isNaN = _
  refine isNaN_packed ?_
  cases hu : x.toModel.unpack with
  | notANumber => exact absurd hu hx
  | _ => exact UnpackedFloat.noConfusion

theorem isNaN_signed (negative : Bool) (hx : x.isNaN = false) :
    (signed negative x).isNaN = false := by
  cases negative with
  | true => exact isNaN_neg hx
  | false => exact hx

theorem isProper_powerOfTen : ∀ e : Fin 23,
    isProper Float.exactlyRepresentablePowersOfTen[e].toModel.unpack = true := by
  decide +kernel

theorem isNaN_ofWord (n : UInt64) : n.toFloat.isNaN = false := by
  change (packed (UnpackedFloat.ofNat Format.binary64 n.toNat)).isNaN = _
  refine isNaN_packed ?_
  rw [UnpackedFloat.ofNat, UnpackedFloat.ofInt, UnpackedFloat.normalize]
  split
  · exact round_ne _ _ _ _
  · exact UnpackedFloat.noConfusion
  · exact round_ne _ _ _ _

theorem isNaN_ofScientific (m : Nat) (negative : Bool) (e : Nat) :
    (Float.ofScientific m negative e).isNaN = false := by
  rw [Float.ofScientific]
  split
  · next small =>
    have proper := isProper_powerOfTen ⟨e, Nat.lt_succ_of_le small.2⟩
    dsimp only
    split
    · exact isNaN_div (isNaN_ofWord _) proper
    · exact isNaN_mul (isNaN_ofWord _) proper
  · change (packed (UnpackedFloat.ofScientific Format.binary64 m _)).isNaN = _
    refine isNaN_packed ?_
    rw [UnpackedFloat.ofScientific]
    split_ifs
    all_goals first
      | exact UnpackedFloat.noConfusion
      | exact round_ne _ _ _ _

theorem isNaN_infinity : infinity.isNaN = false := by decide

theorem isNaN_nan : nan.isNaN = true := by decide

/-- A decimal is read as a number. -/
theorem isNaN_toFloat (d : Decimal) : d.toFloat.isNaN = false := by
  rw [Decimal.toFloat]
  split_ifs
  · rfl
  · exact isNaN_infinity
  · rfl
  · exact isNaN_ofScientific _ _ _

theorem isNaN_ofInt (n : Int) : (Float.ofInt n).isNaN = false := by
  cases n with
  | ofNat n => exact isNaN_ofScientific n false 0
  | negSucc n => exact isNaN_neg (isNaN_ofScientific (n + 1) false 0)

end Packing

end TemplateFormula.Number
