import TemplateFormula.Proofs.Lexing.Closing
import TemplateFormula.Proofs.Number.Prefixes
import TemplateFormula.Proofs.Printing.Numeral
import Mathlib.Data.List.TakeWhile

/-!
# Numeric literals are as long as they can be

What the scanner takes for a numeral is one, so it stands for a number; and it is the longest that
the text goes on with, whatever follows it. A point that no digit follows, or an exponent mark that
no digit follows behind a sign or none, is handed back.
-/

namespace TemplateFormula

namespace Scan

theorem isWhole_wholeChars {cs : List Char} (some_ : wholeChars cs ≠ []) :
    IsWhole (wholeChars cs) := by
  cases cs with
  | nil => exact absurd rfl some_
  | cons c cs =>
    by_cases zero : c = '0'
    · subst zero
      exact .inl rfl
    · rw [wholeChars_of_ne zero] at some_ ⊢
      refine .inr ⟨⟨some_, fun d member => List.mem_takeWhile_imp member⟩, ?_⟩
      by_cases digit : c.isDigit = true
      · rw [List.takeWhile_cons_of_pos digit, List.head?_cons]
        exact fun same => zero (Option.some.inj same)
      · rw [List.takeWhile_cons_of_neg digit] at some_
        exact absurd rfl some_

theorem areDigits_takeWhile {cs : List Char} (some_ : cs.takeWhile Char.isDigit ≠ []) :
    AreDigits (cs.takeWhile Char.isDigit) :=
  ⟨some_, fun _ member => List.mem_takeWhile_imp member⟩

theorem isFraction_fractionChars (cs : List Char) : IsFraction (fractionChars cs) := by
  cases cs with
  | nil => exact .inl rfl
  | cons c cs =>
    by_cases point : c = '.'
    · subst point
      by_cases none_ : cs.takeWhile Char.isDigit = []
      · exact .inl (by simp only [fractionChars, none_, List.isEmpty_nil, if_true])
      · refine .inr ⟨cs.takeWhile Char.isDigit, ?_, areDigits_takeWhile none_⟩
        simp only [fractionChars, List.isEmpty_iff, if_neg none_]
    · exact .inl (fractionChars_of_ne point cs)

theorem exponentSignChars_cases (cs : List Char) :
    exponentSignChars cs = [] ∨ exponentSignChars cs = ['+'] ∨ exponentSignChars cs = ['-'] := by
  unfold exponentSignChars
  split
  · exact .inr (.inl rfl)
  · exact .inr (.inr rfl)
  · exact .inl rfl

theorem isPower_exponentChars (cs : List Char) : IsPower (exponentChars cs) := by
  cases cs with
  | nil => exact .inl rfl
  | cons c cs =>
    by_cases mark : c = 'e' ∨ c = 'E'
    · by_cases none_ : (cs.drop (exponentSignChars cs).length).takeWhile Char.isDigit = []
      · exact .inl (by simp only [exponentChars, if_pos mark, none_, List.isEmpty_nil, if_true])
      · refine .inr ⟨c, exponentSignChars cs, _, ?_, mark, exponentSignChars_cases cs,
          areDigits_takeWhile none_⟩
        simp only [exponentChars, if_pos mark, List.isEmpty_iff, if_neg none_]
    · exact .inl (by simp only [exponentChars, if_neg mark])

/-- What the scanner takes for a numeral is one. -/
theorem isNumeral_unsignedChars {cs : List Char} (some_ : unsignedChars cs ≠ []) :
    IsNumeral (unsignedChars cs) := by
  by_cases none_ : (wholeChars cs).isEmpty = true
  · simp only [unsignedChars, if_pos none_] at some_
    exact absurd rfl some_
  · have whole : IsWhole (wholeChars cs) :=
      isWhole_wholeChars fun empty => none_ (by rw [empty, List.isEmpty_nil])
    simp only [unsignedChars, if_neg none_]
    exact ⟨_, _, _, rfl, whole, isFraction_fractionChars _, isPower_exponentChars _⟩

/-- No name begins where a numeral does. -/
theorem numeral_head {after : Bool} {cs : List Char} (some_ : numeralChars after cs ≠ []) :
    ∃ c ds, cs = c :: ds ∧ (c = '-' ∨ c.isDigit = true) := by
  cases cs with
  | nil => exact absurd rfl some_
  | cons c cs =>
    by_cases minus : c = '-'
    · exact ⟨c, cs, rfl, .inl minus⟩
    · rw [numeralChars_of_ne after minus] at some_
      obtain ⟨d, ds, front, digit⟩ := Number.IsNumeral.head (isNumeral_unsignedChars some_)
      have initial := unsignedChars_initial (c :: cs)
      rw [front, List.cons_prefix_cons] at initial
      exact ⟨c, cs, rfl, .inr (initial.1 ▸ digit)⟩

variable {whole fraction power numeral rest cs p q : List Char} {after : Bool}

/-- A numeral, before which a minus sign may stand where no operand has ended. -/
def IsLiteral (afterOperand : Bool) (p : List Char) : Prop :=
  IsNumeral p ∨ afterOperand = false ∧ ∃ q, p = '-' :: q ∧ IsNumeral q

/-- The start of a fraction or an exponent that no digit follows. -/
def Dangling (start rest : List Char) : Prop :=
  (∀ c ∈ rest.head?, c.isDigit = false) ∧
    (start = ['.'] ∨ ∃ mark sign, (mark = 'e' ∨ mark = 'E') ∧ start = mark :: sign ∧
      (sign = ['+'] ∨ sign = ['-'] ∨ sign = [] ∧ ∀ c ∈ rest.head?, c ≠ '+' ∧ c ≠ '-'))

section Parts

theorem digits_initial (digits : ∀ c ∈ cs, c.isDigit = true) (rest : List Char) :
    cs <+: (cs ++ rest).takeWhile Char.isDigit := by
  rw [List.takeWhile_append_of_pos digits]
  exact List.prefix_append _ _

theorem whole_initial (h : IsWhole whole) (rest : List Char) :
    whole <+: wholeChars (whole ++ rest) := by
  rcases h with rfl | ⟨digits, first⟩
  · exact List.prefix_rfl
  · obtain ⟨c, cs, rfl⟩ := List.exists_cons_of_ne_nil digits.1
    have other : c ≠ '0' := fun zero => first (by rw [zero, List.head?_cons])
    rw [List.cons_append, wholeChars_of_ne other, ← List.cons_append]
    exact digits_initial digits.2 rest

theorem fractionChars_point (digits : AreDigits cs) (rest : List Char) :
    fractionChars ('.' :: cs ++ rest) = '.' :: (cs ++ rest).takeWhile Char.isDigit := by
  have longer := digits_initial digits.2 rest
  have some_ : (cs ++ rest).takeWhile Char.isDigit ≠ [] := fun none_ =>
    digits.1 (List.prefix_nil.1 (none_ ▸ longer))
  simp only [List.cons_append, fractionChars, List.isEmpty_iff, if_neg some_]

theorem fraction_initial (h : IsFraction fraction) (rest : List Char) :
    fraction <+: fractionChars (fraction ++ rest) := by
  rcases h with rfl | ⟨ds, rfl, digits⟩
  · exact List.nil_prefix
  · rw [fractionChars_point digits]
    exact (List.prefix_cons_inj '.').2 (digits_initial digits.2 rest)

theorem exponentChars_mark {mark : Char} {sign : List Char} (marks : mark = 'e' ∨ mark = 'E')
    (signs : sign = [] ∨ sign = ['+'] ∨ sign = ['-']) (digits : AreDigits cs) (rest : List Char) :
    exponentChars (mark :: sign ++ cs ++ rest) =
      mark :: sign ++ (cs ++ rest).takeWhile Char.isDigit := by
  have signed : exponentSignChars (sign ++ (cs ++ rest)) = sign := by
    rcases signs with rfl | rfl | rfl
    · rw [List.nil_append]
      exact exponentSignChars_digits digits
    · rfl
    · rfl
  have longer := digits_initial digits.2 rest
  have some_ : (cs ++ rest).takeWhile Char.isDigit ≠ [] := fun none_ =>
    digits.1 (List.prefix_nil.1 (none_ ▸ longer))
  simp only [List.append_assoc, List.cons_append, exponentChars, if_pos marks, signed,
    List.drop_left, List.isEmpty_iff, if_neg some_]

theorem power_initial (h : IsPower power) (rest : List Char) :
    power <+: exponentChars (power ++ rest) := by
  rcases h with rfl | ⟨mark, sign, ds, rfl, marks, signs, digits⟩
  · exact List.nil_prefix
  · rw [exponentChars_mark marks signs digits]
    exact (List.prefix_append_right_inj _).2 (digits_initial digits.2 rest)

/-- What stands in front of a power is neither a digit nor a point. -/
theorem power_front (h : IsPower power) (some_ : power ≠ []) (rest : List Char) :
    ∀ c ∈ (power ++ rest).head?, c.isDigit = false ∧ c ≠ '.' := by
  obtain ⟨mark, cs, rfl, marks⟩ := Number.power_head h some_
  rintro _ ⟨⟩
  rcases marks with rfl | rfl <;> decide

theorem unsignedChars_eq (some_ : wholeChars cs ≠ []) :
    unsignedChars cs = wholeChars cs ++ fractionChars (cs.drop (wholeChars cs).length) ++
      exponentChars (cs.drop ((wholeChars cs).length +
        (fractionChars (cs.drop (wholeChars cs).length)).length)) := by
  simp only [unsignedChars, List.isEmpty_iff, if_neg some_]

/-- The parts of a numeral at the front, where the digits before the point are all read. -/
theorem unsignedChars_parts (present : whole ≠ [])
    (digits : wholeChars (whole ++ rest) = whole) :
    unsignedChars (whole ++ rest) = whole ++ fractionChars rest ++
      exponentChars (rest.drop (fractionChars rest).length) := by
  have some_ : wholeChars (whole ++ rest) ≠ [] := by rwa [digits]
  rw [unsignedChars_eq some_, digits, List.drop_left, ← List.drop_drop, List.drop_left]

end Parts

section Longest

theorem IsWhole.ne_nil (h : IsWhole whole) : whole ≠ [] := h.areDigits.1

/-- No numeral at the front is longer than the one that is found. -/
theorem numeral_length_le (h : IsNumeral numeral) (rest : List Char) :
    numeral.length ≤ (unsignedChars (numeral ++ rest)).length := by
  obtain ⟨whole, fraction, power, rfl, isWhole, isFraction, isPower⟩ := h
  have grouped : whole ++ fraction ++ power ++ rest = whole ++ (fraction ++ (power ++ rest)) := by
    simp only [List.append_assoc]
  rw [grouped]
  by_cases bare : fraction ++ power = []
  · obtain ⟨rfl, rfl⟩ := List.append_eq_nil_iff.1 bare
    have longer := whole_initial isWhole rest
    have some_ : wholeChars (whole ++ rest) ≠ [] := fun none_ =>
      isWhole.ne_nil (List.prefix_nil.1 (none_ ▸ longer))
    have shorter := longer.length_le
    simp only [List.append_nil, List.nil_append, unsignedChars_eq some_, List.length_append]
    omega
  · have front : ∀ c ∈ (fraction ++ (power ++ rest)).head?, c.isDigit = false := by
      rcases isFraction with rfl | ⟨ds, rfl, -⟩
      · exact fun c first => (power_front isPower bare rest c first).1
      · rintro _ ⟨⟩
        rfl
    rw [unsignedChars_parts isWhole.ne_nil (wholeChars_of isWhole front)]
    by_cases none_ : power = []
    · subst none_
      have shorter := (fraction_initial isFraction rest).length_le
      simp only [List.append_nil, List.nil_append, List.length_append]
      omega
    · have found : fractionChars (fraction ++ (power ++ rest)) = fraction :=
        fractionChars_of isFraction (power_front isPower none_ rest)
      have shorter := (power_initial isPower rest).length_le
      rw [found, List.drop_left]
      simp only [List.length_append]
      omega

/-- Where neither a fraction nor an exponent begins, a numeral is read as it is. -/
theorem unsignedChars_stops (h : IsNumeral numeral) (stops : ∀ c ∈ rest.head?, c.isDigit = false)
    (no_fraction : fractionChars rest = []) (no_power : exponentChars rest = []) :
    unsignedChars (numeral ++ rest) = numeral := by
  obtain ⟨whole, fraction, power, rfl, isWhole, isFraction, isPower⟩ := h
  have behind_power : ∀ c ∈ (power ++ rest).head?, c.isDigit = false := by
    by_cases none_ : power = []
    · subst none_
      exact stops
    · exact fun c first => (power_front isPower none_ rest c first).1
  have front : ∀ c ∈ (fraction ++ (power ++ rest)).head?, c.isDigit = false := by
    rcases isFraction with rfl | ⟨ds, rfl, -⟩
    · exact behind_power
    · rintro _ ⟨⟩
      rfl
  have fraction_found : fractionChars (fraction ++ (power ++ rest)) = fraction := by
    rcases isFraction with rfl | ⟨ds, rfl, digits⟩
    · by_cases none_ : power = []
      · subst none_
        exact no_fraction
      · exact fractionChars_of (.inl rfl) (power_front isPower none_ rest)
    · rw [fractionChars_point digits, takeWhile_digits digits behind_power]
  have power_found : exponentChars (power ++ rest) = power := by
    rcases isPower with rfl | ⟨mark, sign, ds, rfl, marks, signs, digits⟩
    · exact no_power
    · rw [exponentChars_mark marks signs digits, takeWhile_digits digits stops]
  rw [List.append_assoc, List.append_assoc,
    unsignedChars_parts isWhole.ne_nil (wholeChars_of isWhole front), fraction_found,
    List.drop_left, power_found, List.append_assoc]

/-- A point or a mark that no digit follows begins neither a fraction nor an exponent. -/
theorem Dangling.stops {start : List Char} (h : Dangling start rest) :
    (∀ c ∈ (start ++ rest).head?, c.isDigit = false) ∧ fractionChars (start ++ rest) = [] ∧
      exponentChars (start ++ rest) = [] := by
  obtain ⟨behind, form⟩ := h
  have none_ : rest.takeWhile Char.isDigit = [] := by
    cases rest with
    | nil => rfl
    | cons c rest => exact List.takeWhile_cons_of_neg (by simp [behind c rfl])
  rcases form with rfl | ⟨mark, sign, marks, rfl, signs⟩
  · refine ⟨?_, ?_, ?_⟩
    · rintro _ ⟨⟩
      rfl
    · simp only [List.singleton_append, fractionChars, none_, List.isEmpty_nil, if_true]
    · rfl
  · refine ⟨?_, ?_, ?_⟩
    · rintro _ ⟨⟩
      rcases marks with rfl | rfl <;> rfl
    · have other : mark ≠ '.' := by rcases marks with rfl | rfl <;> decide
      exact fractionChars_of_ne other (sign ++ rest)
    · have signed : exponentSignChars (sign ++ rest) = sign := by
        rcases signs with rfl | rfl | ⟨rfl, other⟩
        · rfl
        · rfl
        · rw [List.nil_append, exponentSignChars.eq_def]
          split
          · exact absurd rfl (other '+' rfl).1
          · exact absurd rfl (other '-' rfl).2
          · rfl
      simp only [List.cons_append, exponentChars, if_pos marks, signed, List.drop_left, none_,
        List.isEmpty_nil, if_true]

end Longest

section Literals

theorem IsNumeral.isDecimal (h : IsNumeral numeral) : Number.IsDecimal numeral := by
  obtain ⟨whole, fraction, power, rfl, isWhole, isFraction, isPower⟩ := h
  have digits := isWhole.areDigits
  rcases isFraction with rfl | ⟨ds, rfl, behind⟩
  · exact ⟨whole, [], [], power, by simp, digits.2, nofun, .inr ⟨rfl, rfl⟩, .inl digits.1, isPower⟩
  · exact ⟨whole, ['.'], ds, power, by simp, digits.2, behind.2, .inl rfl, .inl digits.1, isPower⟩

theorem IsLiteral.denotes (h : IsLiteral after p) : ∃ v, Number.Denotes p v := by
  rcases h with numeral | ⟨-, q, rfl, numeral⟩
  · obtain ⟨d, spells⟩ := numeral.isDecimal.spells
    exact ⟨_, [], p, d, .inl rfl, rfl, spells, rfl⟩
  · obtain ⟨d, spells⟩ := numeral.isDecimal.spells
    exact ⟨_, ['-'], q, d, .inr (.inr rfl), rfl, spells, rfl⟩

theorem IsLiteral.ne_nil (h : IsLiteral after p) : p ≠ [] := by
  rcases h with numeral | ⟨-, q, rfl, -⟩
  · obtain ⟨c, cs, rfl, -⟩ := Number.IsNumeral.head numeral
    exact List.cons_ne_nil c cs
  · exact List.cons_ne_nil '-' q

theorem unsignedChars_ne_nil (h : IsNumeral numeral) (rest : List Char) :
    unsignedChars (numeral ++ rest) ≠ [] := by
  obtain ⟨c, cs, rfl, -⟩ := Number.IsNumeral.head h
  have longer := numeral_length_le h rest
  intro none_
  rw [none_] at longer
  exact Nat.not_succ_le_zero _ longer

/-- The sign is read where it is allowed, and what stands behind it as without one. -/
theorem numeralChars_literal (h : IsLiteral after p) (rest : List Char) :
    ∃ sign numeral, p = sign ++ numeral ∧ IsNumeral numeral ∧
      numeralChars after (p ++ rest) = sign ++ unsignedChars (numeral ++ rest) := by
  rcases h with numeral | ⟨rfl, q, rfl, numeral⟩
  · obtain ⟨c, cs, rfl, digit⟩ := Number.IsNumeral.head numeral
    have other : c ≠ '-' := by
      rintro rfl
      cases digit
    exact ⟨[], c :: cs, rfl, numeral, numeralChars_of_ne after other (cs ++ rest)⟩
  · have some_ := unsignedChars_ne_nil numeral rest
    refine ⟨['-'], q, rfl, numeral, ?_⟩
    simp only [List.cons_append, numeralChars, Bool.false_or, List.isEmpty_iff, if_neg some_,
      List.nil_append]

theorem isLiteral_numeralChars (some_ : numeralChars after cs ≠ []) :
    IsLiteral after (numeralChars after cs) := by
  obtain ⟨c, cs, rfl, -⟩ := numeral_head some_
  by_cases minus : c = '-'
  · subst minus
    simp only [numeralChars] at some_ ⊢
    by_cases none_ : (after || (unsignedChars cs).isEmpty) = true
    · rw [if_pos none_] at some_
      exact absurd rfl some_
    · rw [if_neg none_]
      rw [Bool.or_eq_true, List.isEmpty_iff, not_or] at none_
      exact .inr ⟨eq_false_of_ne_true none_.1, _, rfl, isNumeral_unsignedChars none_.2⟩
  · rw [numeralChars_of_ne after minus] at some_ ⊢
    exact .inl (isNumeral_unsignedChars some_)

theorem numeralChars_longest (some_ : numeralChars after cs ≠ []) :
    IsLongest (IsLiteral after) cs (numeralChars after cs) := by
  refine ⟨numeralChars_initial after cs, isLiteral_numeralChars some_, ?_⟩
  rintro p ⟨rest, rfl⟩ literal
  obtain ⟨sign, numeral, rfl, isNumeral, found⟩ := numeralChars_literal literal rest
  have longer := numeral_length_le isNumeral rest
  rw [found, List.length_append, List.length_append]
  exact Nat.add_le_add_left longer _

theorem numeralChars_ne_nil_iff :
    numeralChars after cs ≠ [] ↔ ∃ p, p ≠ [] ∧ p <+: cs ∧ IsLiteral after p := by
  constructor
  · intro some_
    exact ⟨_, some_, numeralChars_initial after cs, isLiteral_numeralChars some_⟩
  · rintro ⟨p, -, ⟨rest, rfl⟩, literal⟩
    obtain ⟨sign, numeral, rfl, isNumeral, found⟩ := numeralChars_literal literal rest
    rw [found]
    exact List.append_ne_nil_of_right_ne_nil sign (unsignedChars_ne_nil isNumeral rest)

theorem numeralChars_stops {start : List Char} (h : IsLiteral after p)
    (dangling : Dangling start rest) : numeralChars after (p ++ (start ++ rest)) = p := by
  obtain ⟨sign, numeral, rfl, isNumeral, found⟩ := numeralChars_literal h (start ++ rest)
  obtain ⟨stops, no_fraction, no_power⟩ := dangling.stops
  rw [found, unsignedChars_stops isNumeral stops no_fraction no_power]

/-- The lexeme of a literal that is found. -/
theorem number?_literal (some_ : numeralChars after cs ≠ []) :
    ∃ v, Number.Denotes (numeralChars after cs) v ∧ number? after cs =
      some ⟨.number v, some (String.ofList (numeralChars after cs)),
        (numeralChars after cs).length⟩ := by
  obtain ⟨v, denotes⟩ := (isLiteral_numeralChars some_).denotes
  refine ⟨v, denotes, ?_⟩
  simp only [number?, List.isEmpty_iff, if_neg some_, Number.parse?_of_denotes denotes,
    Option.map_some]

theorem number?_eq_none_iff : number? after cs = none ↔ numeralChars after cs = [] := by
  constructor
  · intro none_
    by_contra some_
    obtain ⟨v, -, found⟩ := number?_literal some_
    rw [none_] at found
    cases found
  · intro none_
    simp only [number?, none_, List.isEmpty_nil, if_true]

end Literals

end Scan

namespace Lexer

open Scan (number? numeralChars IsLiteral Dangling)

/-- In every state a number is found if and only if the text goes on with a literal, where a sign is
part of one unless an operand has just ended. The token is the longest such literal. What only seems
to go on behind a literal, a point or an exponent mark without a digit, is left to the next token. -/
theorem literals_maximal (l : Lexer) :
    ((number? l.afterOperand l.rest).isSome = true ↔
      ∃ p, p ≠ [] ∧ p <+: l.rest ∧ IsLiteral l.afterOperand p) ∧
    (∀ x, number? l.afterOperand l.rest = some x →
      ∃ p v, IsLongest (IsLiteral l.afterOperand) l.rest p ∧ Number.Denotes p v ∧
        x = ⟨.number v, some (String.ofList p), p.length⟩ ∧
        (l.deliver x).1 =
          ⟨.number v, some (String.ofList p), l.position, l.position.advance p⟩ ∧
        (l.deliver x).2.rest = l.rest.drop p.length) ∧
    ∀ p start rest, IsLiteral l.afterOperand p → l.rest = p ++ start ++ rest →
      Dangling start rest → ∃ x, number? l.afterOperand l.rest = some x ∧
        x.length = p.length ∧ (l.deliver x).2.rest = start ++ rest := by
  refine ⟨?_, ?_, ?_⟩
  · rw [Option.isSome_iff_ne_none, Ne, Scan.number?_eq_none_iff]
    exact Scan.numeralChars_ne_nil_iff
  · intro x found
    have some_ : numeralChars l.afterOperand l.rest ≠ [] := by
      intro none_
      rw [Scan.number?_eq_none_iff.2 none_] at found
      cases found
    obtain ⟨v, denotes, literal⟩ := Scan.number?_literal some_
    have spelled := List.prefix_iff_eq_take.1 (Scan.numeralChars_initial l.afterOperand l.rest)
    obtain rfl := Option.some.inj (found.symm.trans literal)
    refine ⟨_, v, Scan.numeralChars_longest some_, denotes, rfl, ?_, rfl⟩
    simp only [deliver, ← spelled]
  · intro p start rest literal split dangling
    have whole : numeralChars l.afterOperand l.rest = p := by
      rw [split, List.append_assoc]
      exact Scan.numeralChars_stops literal dangling
    have some_ : numeralChars l.afterOperand l.rest ≠ [] := by
      rw [whole]
      exact literal.ne_nil
    obtain ⟨v, -, found⟩ := Scan.number?_literal some_
    rw [whole] at found
    refine ⟨_, found, rfl, ?_⟩
    simp only [deliver, split, List.append_assoc, List.drop_left]

/-- An expression that begins with a number behind which an exponent lacks its digits. -/
def danglingExponent : Lexer :=
  ofSource ['-', '1', '2', '.', '5', 'e', '+', 'x'] ⟨true, true⟩

theorem literals_maximal_danglingExponent :
    IsLiteral danglingExponent.afterOperand ['-', '1', '2', '.', '5'] ∧
      danglingExponent.rest = ['-', '1', '2', '.', '5'] ++ ['e', '+'] ++ ['x'] ∧
      Dangling ['e', '+'] ['x'] ∧
      ∃ x, number? danglingExponent.afterOperand danglingExponent.rest = some x ∧ x.length = 5 ∧
        (danglingExponent.deliver x).2.rest = ['e', '+', 'x'] := by
  have numeral : Scan.IsNumeral ['1', '2', '.', '5'] := by
    refine ⟨['1', '2'], ['.', '5'], [], rfl, .inr ⟨⟨List.cons_ne_nil _ _, ?_⟩, ?_⟩, ?_, .inl rfl⟩
    · simp
    · simp
    · exact .inr ⟨['5'], rfl, List.cons_ne_nil _ _, by simp⟩
  have literal : IsLiteral danglingExponent.afterOperand ['-', '1', '2', '.', '5'] :=
    .inr ⟨rfl, _, rfl, numeral⟩
  have dangling : Dangling ['e', '+'] ['x'] :=
    ⟨by simp, .inr ⟨'e', ['+'], .inl rfl, rfl, .inl rfl⟩⟩
  exact ⟨literal, rfl, dangling,
    (literals_maximal danglingExponent).2.2 _ _ _ literal rfl dangling⟩

end Lexer

end TemplateFormula
