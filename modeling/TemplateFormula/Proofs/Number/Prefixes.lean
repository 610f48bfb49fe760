import TemplateFormula.Proofs.Number.Conversion
import TemplateFormula.Value.Conversion

/-!
# Numeric beginnings

Arithmetic takes a text for the number that it begins with. Behind leading blanks this is infinity by
its name, or the longest decimal, and for whole numbers the longest row of digits, each with a sign
or none. What could only be the start of a longer numeral, a point or an exponent mark without
digits, is left standing.
-/

namespace TemplateFormula

/-- The longest of the texts with a property that another text begins with. -/
structure IsLongest (P : List Char → Prop) (cs p : List Char) : Prop where
  initial : p <+: cs
  holds : P p
  longest : ∀ q, q <+: cs → P q → q.length ≤ p.length

theorem IsLongest.unique {P : List Char → Prop} {cs p q : List Char} (h : IsLongest P cs p)
    (h' : IsLongest P cs q) : p = q := by
  have lengths : p.length = q.length :=
    Nat.le_antisymm (h'.longest p h.initial h.holds) (h.longest q h'.initial h'.holds)
  exact (List.prefix_of_prefix_length_le h.initial h'.initial lengths.le).eq_of_length lengths

namespace Number

open Scan (AreDigits IsPower)

variable {cs ds q rest : List Char} {d : Decimal}

/-- A numeral of some kind behind a sign or none. -/
def Signed (kind : List Char → Prop) (p : List Char) : Prop :=
  ∃ sign body, IsSign sign ∧ p = sign ++ body ∧ kind body

/-- A decimal with a sign or none, and the double nearest to it. -/
def Denotes (p : List Char) (x : Float) : Prop :=
  ∃ sign body d, IsSign sign ∧ p = sign ++ body ∧ Spells body d ∧
    x = signed (decide (sign = ['-'])) d.toFloat

/-- What the front of a text stands for, where numerals are of some kind and infinity may be known
by its name: a number, or nothing at all. -/
inductive Begins (kind : List Char → Prop) (named : Prop) (t : List Char) : Option Float → Prop where
  | infinite {sign : List Char} (known : named) (isSign : IsSign sign)
      (front : sign ++ infinityName <+: t) :
      Begins kind named t (some (signed (decide (sign = ['-'])) infinity))
  | numeral {p : List Char} {x : Float}
      (unnamed : named → ∀ sign, IsSign sign → ¬ sign ++ infinityName <+: t)
      (longest : IsLongest (Signed kind) t p) (denotes : Denotes p x) :
      Begins kind named t (some x)
  | nothing (unnamed : named → ∀ sign, IsSign sign → ¬ sign ++ infinityName <+: t)
      (none_ : ∀ p, p <+: t → ¬ Signed kind p) :
      Begins kind named t none

section Longest

theorem takeFraction_suffix (cs : List Char) : (takeFraction cs).2 <:+ cs := by
  obtain ⟨point, -, -, split⟩ := takeFraction_parts cs
  exact ⟨_, split.symm⟩

theorem takeExponent_suffix (cs : List Char) : (takeExponent cs).2 <:+ cs := by
  obtain ⟨power, -, split⟩ := takeExponent_scales cs
  exact ⟨power, split.symm⟩

theorem digits_suffix (digits : ∀ c ∈ ds, c.isDigit = true) (rest : List Char) :
    (ds ++ rest).dropWhile Char.isDigit <:+ rest := by
  rw [List.dropWhile_append_of_pos digits]
  exact List.dropWhile_suffix _

theorem power_head {power : List Char} (h : IsPower power) (some_ : power ≠ []) :
    ∃ c cs, power = c :: cs ∧ (c = 'e' ∨ c = 'E') := by
  rcases h with rfl | ⟨mark, sign, ds, rfl, marks, -⟩
  · exact absurd rfl some_
  · exact ⟨mark, sign ++ ds, rfl, marks⟩

/-- Behind the mark and the sign no digit of the exponent is left. -/
theorem exponent_leaves {power : List Char} (h : IsPower power) (rest : List Char) :
    (takeExponent (power ++ rest)).2 <:+ rest := by
  rcases h with rfl | ⟨mark, sign, ds, rfl, marks, isSign, digits⟩
  · exact takeExponent_suffix rest
  · obtain ⟨d, ds, rfl⟩ := List.exists_cons_of_ne_nil digits.1
    have first : d.isDigit = true := digits.2 d List.mem_cons_self
    have sign_taken := takeSign_append isSign (unsigned_of_isDigit first (ds ++ rest))
    have some_ : ((d :: (ds ++ rest)).takeWhile Char.isDigit).isEmpty = false := by
      rw [List.takeWhile_cons_of_pos first, List.isEmpty_cons]
    have left : (takeExponent (mark :: (sign ++ d :: (ds ++ rest)))).2 =
        (d :: (ds ++ rest)).dropWhile Char.isDigit := by
      simp only [takeExponent, if_pos marks, span_eq_takeWhile, sign_taken, some_,
        Bool.false_eq_true, if_false]
    rw [List.append_assoc, List.cons_append, List.cons_append, left]
    exact digits_suffix digits.2 rest

/-- A power in front stops the readers of digits and of a fraction. -/
theorem power_stays {power : List Char} (h : IsPower power) (rest : List Char) :
    ((power ++ rest).dropWhile Char.isDigit = power ++ rest ∧
      (takeFraction (power ++ rest)).2 = power ++ rest) ∨ power = [] := by
  rcases h with rfl | ⟨mark, sign, ds, rfl, marks, -, -⟩
  · exact .inr rfl
  · have stops : mark.isDigit = false ∧ mark ≠ '.' := by
      rcases marks with rfl | rfl <;> decide
    apply Or.inl
    constructor
    · exact List.dropWhile_cons_of_neg (by simp [stops.1])
    · rw [List.cons_append, List.cons_append, takeFraction.eq_def]
      split
      · next same => exact absurd (List.cons.inj same).1 stops.2
      · rfl

theorem takeDecimal?_eq (cs : List Char) (some_ : cs.takeWhile Char.isDigit ≠ [] ∨
      (takeFraction (cs.dropWhile Char.isDigit)).1 ≠ []) :
    ∃ d, takeDecimal? cs = some (d, (takeExponent (takeFraction (cs.dropWhile Char.isDigit)).2).2) := by
  have found : ((cs.takeWhile Char.isDigit).isEmpty &&
      (takeFraction (cs.dropWhile Char.isDigit)).1.isEmpty) = false := by
    rw [Bool.and_eq_false_iff, List.isEmpty_eq_false_iff, List.isEmpty_eq_false_iff]
    exact some_
  rw [takeDecimal?, span_eq_takeWhile]
  dsimp only
  rw [found]
  exact ⟨_, rfl⟩

/-- Behind a decimal no more than what follows it is left. -/
theorem takeDecimal?_append (h : IsDecimal q) (rest : List Char) :
    ∃ d left, takeDecimal? (q ++ rest) = some (d, left) ∧ left <:+ rest := by
  obtain ⟨whole, point, fraction, power, rfl, hw, hf, dotted, some_, hp⟩ := h
  rw [List.append_assoc, List.append_assoc, List.append_assoc]
  have ends {cs : List Char} (h : cs = power ++ rest ∨ cs <:+ rest) :
      (takeExponent cs).2 <:+ rest := by
    rcases h with rfl | behind
    · exact exponent_leaves hp rest
    · exact (takeExponent_suffix cs).trans behind
  rcases dotted with rfl | ⟨rfl, rfl⟩
  · -- The point stops the digits before it.
    have front : (whole ++ (['.'] ++ (fraction ++ (power ++ rest)))).dropWhile Char.isDigit =
        '.' :: (fraction ++ (power ++ rest)) := by
      rw [List.dropWhile_append_of_pos hw]
      rfl
    have tail : (takeFraction ('.' :: (fraction ++ (power ++ rest)))).2 =
        (power ++ rest).dropWhile Char.isDigit := by
      rw [takeFraction, span_eq_takeWhile, List.dropWhile_append_of_pos hf]
    have digits : (takeFraction ('.' :: (fraction ++ (power ++ rest)))).1 =
        fraction ++ (power ++ rest).takeWhile Char.isDigit := by
      rw [takeFraction, span_eq_takeWhile, List.takeWhile_append_of_pos hf]
    obtain ⟨d, taken⟩ := takeDecimal?_eq (whole ++ (['.'] ++ (fraction ++ (power ++ rest))))
      (by
        rw [front, digits, List.takeWhile_append_of_pos hw]
        exact some_.imp (fun h => by simp [h]) (fun h => by simp [h]))
    rw [front, tail] at taken
    refine ⟨d, _, taken, ends ?_⟩
    rcases power_stays hp rest with ⟨stays, -⟩ | rfl
    · exact .inl stays
    · exact .inr (List.dropWhile_suffix _)
  · have present : whole ≠ [] := some_.resolve_right fun h => h rfl
    have front : (whole ++ ([] ++ ([] ++ (power ++ rest)))).dropWhile Char.isDigit =
        (power ++ rest).dropWhile Char.isDigit := List.dropWhile_append_of_pos hw
    obtain ⟨d, taken⟩ := takeDecimal?_eq (whole ++ ([] ++ ([] ++ (power ++ rest))))
      (.inl (by
        rw [List.takeWhile_append_of_pos hw]
        simp [present]))
    rw [front] at taken
    refine ⟨d, _, taken, ends ?_⟩
    rcases power_stays hp rest with ⟨stays, still⟩ | rfl
    · rw [stays, still]
      exact .inl rfl
    · exact .inr ((takeFraction_suffix _).trans (List.dropWhile_suffix _))

theorem takeDecimal?_longest (h : takeDecimal? cs = some (d, rest)) :
    ∃ body, Spells body d ∧ IsLongest IsDecimal cs body := by
  obtain ⟨body, spells, rfl⟩ := spells_of_takeDecimal? h
  refine ⟨body, spells, List.prefix_append _ _, spells.isDecimal, ?_⟩
  rintro q ⟨behind, split⟩ decimal
  obtain ⟨_, left, taken, suffix⟩ := takeDecimal?_append decimal behind
  rw [split, h] at taken
  cases taken
  have lengths := congrArg List.length split
  have fewer := suffix.length_le
  rw [List.length_append, List.length_append] at lengths
  omega

theorem takeDecimal?_eq_none (h : takeDecimal? cs = none) (front : q <+: cs) : ¬ IsDecimal q := by
  intro decimal
  obtain ⟨behind, rfl⟩ := front
  obtain ⟨_, _, taken, -⟩ := takeDecimal?_append decimal behind
  rw [h] at taken
  cases taken

theorem takeWhile_longest (some_ : cs.takeWhile Char.isDigit ≠ []) :
    IsLongest AreDigits cs (cs.takeWhile Char.isDigit) := by
  refine ⟨List.takeWhile_prefix _, ⟨some_, digits_takeWhile cs⟩, ?_⟩
  rintro q ⟨behind, rfl⟩ digits
  rw [List.takeWhile_append_of_pos digits.2]
  exact (List.prefix_append _ _).length_le

end Longest

section Signs

variable {kind : List Char → Prop} {named : Prop} {t p p' : List Char} {x y : Float}

/-- Numerals of a kind begin with a digit or a point. -/
def Unsigned (kind : List Char → Prop) : Prop :=
  ∀ body, kind body → ∃ c cs, body = c :: cs ∧ c ≠ '+' ∧ c ≠ '-'

theorem unsigned_digits : Unsigned AreDigits := by
  intro body digits
  obtain ⟨c, cs, rfl⟩ := List.exists_cons_of_ne_nil digits.1
  exact ⟨c, cs, rfl, unsigned_of_isDigit (digits.2 c List.mem_cons_self) cs c rfl⟩

theorem unsigned_decimal : Unsigned IsDecimal := by
  intro body decimal
  obtain ⟨c, cs, rfl, -⟩ := decimal.head
  exact ⟨c, cs, rfl, decimal.unsigned c rfl⟩

/-- The sign in front of a numeral is the one that is read. -/
theorem Signed.split (unsigned : Unsigned kind) (h : Signed kind p) (front : p <+: t) :
    ∃ body, kind body ∧ body <+: (takeSign t).2 ∧
      p.length + (takeSign t).2.length = t.length + body.length := by
  obtain ⟨sign, body, isSign, rfl, isKind⟩ := h
  obtain ⟨behind, rfl⟩ := front
  obtain ⟨c, cs, rfl, other⟩ := unsigned body isKind
  have taken : takeSign (sign ++ (c :: cs ++ behind)) =
      (decide (sign = ['-']), c :: cs ++ behind) := by
    apply takeSign_append isSign
    rintro _ ⟨⟩
    exact other
  rw [List.append_assoc, taken]
  refine ⟨c :: cs, isKind, List.prefix_append _ _, ?_⟩
  simp only [List.length_append]
  omega

/-- The longest numeral behind the sign gives the longest one with it. -/
theorem longest_signed (unsigned : Unsigned kind) {sign body : List Char} (isSign : IsSign sign)
    (split : t = sign ++ (takeSign t).2) (h : IsLongest kind (takeSign t).2 body) :
    IsLongest (Signed kind) t (sign ++ body) := by
  constructor
  · rw [split]
    exact (List.prefix_append_right_inj sign).2 h.initial
  · exact ⟨sign, body, isSign, rfl, h.holds⟩
  · intro q front numeral
    obtain ⟨other, isKind, initial, lengths⟩ := numeral.split unsigned front
    have shorter := h.longest other initial isKind
    have whole := congrArg List.length split
    rw [List.length_append] at whole ⊢
    omega

theorem front_infinity {sign : List Char} (isSign : IsSign sign)
    (front : sign ++ infinityName <+: t) :
    (takeSign t).1 = decide (sign = ['-']) ∧ infinityName <+: (takeSign t).2 := by
  obtain ⟨behind, rfl⟩ := front
  have taken : takeSign (sign ++ (infinityName ++ behind)) =
      (decide (sign = ['-']), infinityName ++ behind) := by
    apply takeSign_append isSign
    rintro _ ⟨⟩
    decide
  rw [List.append_assoc, taken]
  exact ⟨rfl, List.prefix_append _ _⟩

/-- A numeral is read as a whole for the double that it denotes. -/
theorem parse?_of_denotes (h : Denotes p x) : parse? p = some x := by
  obtain ⟨sign, body, d, isSign, rfl, spells, rfl⟩ := h
  have taken := takeSign_append isSign spells.isDecimal.unsigned
  have used : takeDecimal? (takeSign (sign ++ body)).2 = some (d, []) := by
    rw [taken]
    exact takeDecimal?_of_spells spells
  rw [parse?_of_decimal used, taken]

/-- The front of a text stands for one thing at most. -/
theorem Begins.unique {r r' : Option Float} (h : Begins kind named t r)
    (h' : Begins kind named t r') : r = r' := by
  cases h with
  | infinite known isSign front =>
    cases h' with
    | infinite _ isSign' front' =>
      rw [← (front_infinity isSign front).1, ← (front_infinity isSign' front').1]
    | numeral unnamed => exact absurd front (unnamed known _ isSign)
    | nothing unnamed => exact absurd front (unnamed known _ isSign)
  | numeral unnamed longest denotes =>
    cases h' with
    | infinite known isSign front => exact absurd front (unnamed known _ isSign)
    | numeral _ longest' denotes' =>
      obtain rfl := longest.unique longest'
      rw [← parse?_of_denotes denotes, ← parse?_of_denotes denotes']
    | nothing _ none_ => exact absurd longest.holds (none_ _ longest.initial)
  | nothing unnamed none_ =>
    cases h' with
    | infinite known isSign front => exact absurd front (unnamed known _ isSign)
    | numeral _ longest => exact absurd longest.holds (none_ _ longest.initial)
    | nothing => rfl

end Signs

section Readings

theorem leadingFloat_begins (cs : List Char) :
    ∃ r, Begins IsDecimal True (Text.trimStart cs) r ∧ leadingFloat cs = r.getD nan ∧
      ∀ x ∈ r, x.isNaN = false := by
  rw [leadingFloat]
  generalize Text.trimStart cs = t
  obtain ⟨sign, isSign, split, negative⟩ := takeSign_parts t
  by_cases named : infinityName.isPrefixOf (takeSign t).2 = true
  · have front : sign ++ infinityName <+: t := by
      rw [split]
      exact (List.prefix_append_right_inj sign).2 (List.isPrefixOf_iff_prefix.1 named)
    refine ⟨_, .infinite trivial isSign front, ?_, ?_⟩
    · simp only [if_pos named, negative, Option.getD_some]
    · rintro _ ⟨⟩
      exact isNaN_signed _ isNaN_infinity
  · have unnamed : True → ∀ sign, IsSign sign → ¬ sign ++ infinityName <+: t :=
      fun _ sign isSign front =>
        named (List.isPrefixOf_iff_prefix.2 (front_infinity isSign front).2)
    rcases taken : takeDecimal? (takeSign t).2 with _ | ⟨d, rest⟩
    · refine ⟨none, .nothing unnamed fun p front numeral => ?_, ?_, nofun⟩
      · obtain ⟨body, decimal, initial, -⟩ := numeral.split unsigned_decimal front
        exact takeDecimal?_eq_none taken initial decimal
      · simp only [if_neg named, taken, Option.getD_none]
    · obtain ⟨body, spells, longest⟩ := takeDecimal?_longest taken
      refine ⟨_, .numeral unnamed (longest_signed unsigned_decimal isSign split longest)
        ⟨sign, body, d, isSign, rfl, spells, rfl⟩, ?_, ?_⟩
      · simp only [if_neg named, taken, negative, Option.getD_some]
      · rintro _ ⟨⟩
        exact isNaN_signed _ (isNaN_toFloat d)

theorem spells_digits (digits : AreDigits ds) : Spells ds ⟨Nat.ofDigitChars 10 ds 0, 0⟩ := by
  have spells := Spells.mk digits.2 (List.forall_mem_nil _) (.inr ⟨rfl, rfl⟩) (.inl digits.1) .none
  simpa using spells

theorem leadingInt_begins (cs : List Char) :
    ∃ r, Begins AreDigits False (Text.trimStart cs) r ∧ leadingInt cs = r.getD nan ∧
      ∀ x ∈ r, x.isNaN = false := by
  rw [leadingInt]
  generalize Text.trimStart cs = t
  obtain ⟨sign, isSign, split, negative⟩ := takeSign_parts t
  by_cases some_ : (takeSign t).2.takeWhile Char.isDigit = []
  · refine ⟨none, .nothing False.elim fun p front numeral => ?_, ?_, nofun⟩
    · obtain ⟨body, digits, ⟨behind, initial⟩, -⟩ := numeral.split unsigned_digits front
      rw [← initial, List.takeWhile_append_of_pos digits.2] at some_
      exact digits.1 (List.append_eq_nil_iff.1 some_).1
    · simp only [some_, List.isEmpty_nil, if_true, Option.getD_none]
  · have longest := takeWhile_longest some_
    refine ⟨_, .numeral False.elim (longest_signed unsigned_digits isSign split longest)
      ⟨sign, _, _, isSign, rfl, spells_digits longest.holds, rfl⟩, ?_, ?_⟩
    · simp only [List.isEmpty_iff, if_neg some_, negative, Option.getD_some]
    · rintro _ ⟨⟩
      exact isNaN_signed _ (isNaN_toFloat _)

end Readings

end Number

namespace Value

open Number (Begins IsDecimal leadingFloat leadingInt nan)
open Scan (AreDigits)

/-- What a text begins with as arithmetic takes it: nothing and both zeros are the positive zero. -/
def counted (r : Option Float) : Float := r.elim 0 fun x => if x == 0 then 0 else x

theorem textNumber_getD {r : Option Float} (numbers : ∀ x ∈ r, x.isNaN = false) :
    textNumber (r.getD nan) = counted r := by
  cases r with
  | none => rfl
  | some x =>
    have number := numbers x rfl
    simp only [textNumber, counted, Option.getD_some, Option.elim_some, number, Bool.false_or]

theorem isNaN_counted {r : Option Float} (numbers : ∀ x ∈ r, x.isNaN = false) :
    (counted r).isNaN = false := by
  cases r with
  | none => rfl
  | some x =>
    rw [counted, Option.elim_some]
    split
    · rfl
    · exact numbers x rfl

theorem isNaN_getD {r : Option Float} (numbers : ∀ x ∈ r, x.isNaN = false) :
    (r.getD nan).isNaN = true ↔ r = none := by
  cases r with
  | none => exact iff_of_true Number.isNaN_nan rfl
  | some x =>
    rw [Option.getD_some, numbers x rfl]
    exact iff_of_false Bool.noConfusion (Option.some_ne_none x)

/-- A text is read for what it begins with behind blanks: the name of infinity with a sign or none,
or else the nearest double of the longest decimal; and for whole numbers the nearest double of the
longest row of digits with a sign or none. It is NaN if and only if there is no such beginning, and
arithmetic then takes zero for it. -/
theorem text_begins (s : String) :
    (∃ r, (∀ r', Begins IsDecimal True (Text.trimStart s.toList) r' ↔ r' = r) ∧
      leadingFloat s.toList = r.getD nan ∧
      ((leadingFloat s.toList).isNaN = true ↔ r = none) ∧
      (text s).operand = number (counted r) ∧ (counted r).isNaN = false) ∧
    (∃ r, (∀ r', Begins AreDigits False (Text.trimStart s.toList) r' ↔ r' = r) ∧
      leadingInt s.toList = r.getD nan ∧
      ((leadingInt s.toList).isNaN = true ↔ r = none) ∧
      (text s).wholeOperand = number (counted r) ∧ (counted r).isNaN = false) := by
  constructor
  · obtain ⟨r, begins, reading, numbers⟩ := Number.leadingFloat_begins s.toList
    refine ⟨r, fun r' => ⟨fun h => h.unique begins, fun h => h ▸ begins⟩, reading, ?_, ?_,
      isNaN_counted numbers⟩
    · rw [reading]
      exact isNaN_getD numbers
    · rw [operand, reading, textNumber_getD numbers]
  · obtain ⟨r, begins, reading, numbers⟩ := Number.leadingInt_begins s.toList
    refine ⟨r, fun r' => ⟨fun h => h.unique begins, fun h => h ▸ begins⟩, reading, ?_, ?_,
      isNaN_counted numbers⟩
    · rw [reading]
      exact isNaN_getD numbers
    · rw [wholeOperand, reading, textNumber_getD numbers]

end Value

end TemplateFormula
