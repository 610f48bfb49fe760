import TemplateFormula.Proofs.Json.Form
import TemplateFormula.Proofs.Printing.Quote
import TemplateFormula.Proofs.Printing.Numeral

/-!
# Texts and numbers of JSON read back

The reader takes a text in quotes, or the numeral of a finite number, from the front of what follows
it and finds the text or the number again.
-/

namespace TemplateFormula

namespace Json

variable {c d : Char} {cs rest : List Char}

theorem takeString?_plain (hslash : c ≠ '\\') (hquote : c ≠ '"') (hprintable : 32 ≤ c.toNat) :
    takeString? (c :: cs) = (takeString? cs).map fun p => (c :: p.1, p.2) := by
  rw [takeString?.eq_def]
  split
  · next h => cases h
  · next h => exact absurd (List.cons.inj h).1 hquote
  · next h => exact absurd (List.cons.inj h).1 hslash
  · next h => exact absurd (List.cons.inj h).1 hslash
  · next h =>
    obtain ⟨rfl, rfl⟩ := List.cons.inj h
    have hno : ¬ (decide (c.toNat < 32) || c == '\\') = true := by
      simp [hslash, Nat.not_lt.2 hprintable]
    rw [if_neg hno]

theorem takeString?_escaped (hu : d ≠ 'u') (hd : escaped? d = some c) :
    takeString? ('\\' :: d :: cs) = (takeString? cs).map fun p => (c :: p.1, p.2) := by
  rw [takeString?.eq_def]
  split
  · next h => cases h
  · next h => cases (List.cons.inj h).1
  · next h => exact absurd (List.cons.inj (List.cons.inj h).2).1 hu
  · next h =>
    obtain ⟨rfl, rfl⟩ := List.cons.inj (List.cons.inj h).2
    rw [hd, Option.bind_some]
  · next hno h =>
    obtain ⟨rfl, rfl⟩ := List.cons.inj h
    exact (hno _ _ rfl rfl).elim

/-- A character is no half of a pair of surrogates. -/
theorem not_surrogate (c : Char) :
    isHighSurrogate c.toNat = false ∧ isLowSurrogate c.toNat = false := by
  have hvalid : c.toNat.isValidChar := c.valid
  simp only [Nat.isValidChar] at hvalid
  simp only [isHighSurrogate, isLowSurrogate, Bool.and_eq_false_iff, decide_eq_false_iff_not]
  omega

theorem takeString?_unicodeEscape (hlt : c.toNat < 65536) :
    takeString? (unicodeEscape c.toNat ++ cs) =
      (takeString? cs).map fun p => (c :: p.1, p.2) := by
  obtain ⟨hhigh, hlow⟩ := not_surrogate c
  rw [unicodeEscape]
  simp only [List.cons_append, List.nil_append]
  rw [takeString?, hexNat?_digits, Nat.mod_eq_of_lt hlt, Option.bind_some, hhigh, hlow,
    Char.ofNat_toNat]
  simp

theorem takeString?_escapeChar (c : Char) (cs : List Char) :
    takeString? (escapeChar c ++ cs) = (takeString? cs).map fun p => (c :: p.1, p.2) := by
  obtain ⟨d, hd, _, hu, _, hc⟩ | ⟨hu, hlt⟩ | ⟨hplain, hslash, hquote, hprintable⟩ :=
    escapeChar_cases c
  · rw [hd]
    exact takeString?_escaped hu hc
  · rw [hu]
    exact takeString?_unicodeEscape hlt
  · rw [hplain]
    exact takeString?_plain hslash hquote hprintable

theorem takeString?_flatMap (cs rest : List Char) :
    takeString? (cs.flatMap escapeChar ++ '"' :: rest) = some (cs, rest) := by
  induction cs with
  | nil => simp [takeString?]
  | cons c cs ih =>
    rw [List.flatMap_cons, List.append_assoc, takeString?_escapeChar, ih]
    rfl

theorem quote_append (cs rest : List Char) :
    quote cs ++ rest = '"' :: (cs.flatMap escapeChar ++ '"' :: rest) := by
  simp [quote]

end Json

namespace Number

/-- A number is finite if its opposite is. -/
theorem isFinite_of_neg {x : Float} (h : (-x).isFinite = true) : x.isFinite = true := by
  change (Float.Model.pack x.toModel.unpack.neg).unpack.isFinite = true at h
  change x.toModel.unpack.isFinite = true
  cases hx : x.toModel.unpack with
  | notANumber =>
    rw [hx] at h
    revert h
    decide
  | infinity sign =>
    rw [hx] at h
    revert h
    cases sign <;> decide
  | zero sign => rfl
  | finite sign mantissa exponent pos => rfl

theorem isFinite_of_signed {negative : Bool} {x : Float} (h : (signed negative x).isFinite = true) :
    x.isFinite = true := by
  cases negative with
  | true => exact isFinite_of_neg h
  | false => exact h

end Number

namespace Number

open Scan

variable {cs rest : List Char}

theorem takeWhole?_of (h : IsWhole cs) (hrest : ∀ c ∈ rest.head?, c.isDigit = false) :
    Json.takeWhole? (cs ++ rest) = some (cs, rest) := by
  have hdigits := h.areDigits
  have hzero : ¬ (cs.head? == some '0' && decide (1 < cs.length)) = true := by
    rcases h with rfl | h
    · decide
    · simp [h.2]
  have hempty : cs.isEmpty = false := by simpa using hdigits.1
  simp only [Json.takeWhole?, takeWhile_digits hdigits hrest, dropWhile_digits hdigits hrest,
    hempty, Bool.false_or, if_neg hzero]

/-- Both readers of a fraction take the same digits. -/
theorem fraction_read (h : IsFraction cs) :
    ∃ ds, ∀ rest, EndsNumeral rest ∨ rest.head? = some 'e' →
      takeFraction (cs ++ rest) = (ds, rest) ∧
      Json.takeFraction? (cs ++ rest) = some (ds, rest) := by
  rcases h with rfl | ⟨ds, rfl, hds⟩
  · refine ⟨[], fun rest hrest => ?_⟩
    cases rest with
    | nil => exact ⟨rfl, rfl⟩
    | cons c rest =>
      have hpoint : c ≠ '.' := by
        rcases hrest with hrest | hrest
        · exact (hrest c rfl).2.1
        · rw [Option.some.inj hrest]
          decide
      simp [takeFraction, Json.takeFraction?, hpoint]
  · refine ⟨ds, fun rest hrest => ?_⟩
    have hdigit : ∀ c ∈ rest.head?, c.isDigit = false := by
      rcases hrest with hrest | hrest
      · exact fun c hc => (hrest c hc).1
      · rw [hrest]
        rintro _ ⟨⟩
        rfl
    simp only [List.cons_append, takeFraction, Json.takeFraction?, span_digits hds hdigit,
      takeWhile_digits hds hdigit, dropWhile_digits hds hdigit, List.isEmpty_iff, if_neg hds.1,
      true_and]

/-- Both readers of an exponent find the same number. -/
theorem exponent_read (h : IsExponent cs) :
    ∃ e, ∀ rest, EndsNumeral rest →
      takeExponent (cs ++ rest) = (e, rest) ∧ Json.takeExponent? (cs ++ rest) = some (e, rest) := by
  rcases h with rfl | ⟨sign, ds, rfl, hsign, hds⟩
  · refine ⟨0, fun rest hrest => ?_⟩
    cases rest with
    | nil => exact ⟨rfl, rfl⟩
    | cons c rest =>
      obtain ⟨_, _, he, hE⟩ := hrest c rfl
      simp [takeExponent, Json.takeExponent?, he, hE]
  · obtain ⟨negative, hnegative⟩ :
        ∃ negative, ∀ rest, takeSign (sign ++ (ds ++ rest)) = (negative, ds ++ rest) := by
      rcases hsign with rfl | rfl
      · exact ⟨false, fun _ => rfl⟩
      · exact ⟨true, fun _ => rfl⟩
    let n := Nat.ofDigitChars 10 ds 0
    refine ⟨if negative then -(n : Int) else n, fun rest hrest => ?_⟩
    have hdigit : ∀ c ∈ rest.head?, c.isDigit = false := fun c hc => (hrest c hc).1
    have hempty : ds.isEmpty = false := by simpa using hds.1
    simp only [List.cons_append, List.append_assoc, takeExponent, Json.takeExponent?, hnegative,
      span_digits hds hdigit, takeWhile_digits hds hdigit, dropWhile_digits hds hdigit, hempty,
      true_or, if_true, Bool.false_eq_true, if_false]
    exact ⟨rfl, rfl⟩

/-- The sign of a number is read first. -/
theorem takeNumber?_signChars (negative : Bool) (hminus : cs.head? ≠ some '-') :
    Json.takeNumber? (signChars negative ++ cs) = (Json.takeWhole? cs).bind fun w =>
      (Json.takeFraction? w.2).bind fun f => (Json.takeExponent? f.2).bind fun e =>
        let x := Decimal.toFloat ⟨Nat.ofDigitChars 10 (w.1 ++ f.1) 0, e.1 - f.1.length⟩
        if x.isFinite then some (signed negative x, e.2) else none := by
  cases negative with
  | true => rfl
  | false =>
    cases cs with
    | nil => rfl
    | cons c cs =>
      have hc : c ≠ '-' := fun h => hminus (congrArg some h)
      simp only [signChars, Bool.false_eq_true, if_false, List.nil_append, Json.takeNumber?]
      split
      · next h => exact absurd (List.cons.inj h).1 hc
      · rfl

/-- Both readers of a numeral find the same decimal, and the one for JSON needs it to be finite. -/
theorem unsigned_read (h : IsUnsigned cs) :
    ∃ d : Decimal, ∀ rest, EndsNumeral rest →
      takeDecimal? (cs ++ rest) = some (d, rest) ∧
      ∀ negative, d.toFloat.isFinite = true →
        Json.takeNumber? (signChars negative ++ (cs ++ rest)) =
          some (signed negative d.toFloat, rest) := by
  obtain ⟨whole, fraction, exponent, rfl, hw, hf, he⟩ := h
  obtain ⟨ds, hfraction⟩ := fraction_read hf
  obtain ⟨e, hexponent⟩ := exponent_read he
  refine ⟨⟨Nat.ofDigitChars 10 (whole ++ ds) 0, e - ds.length⟩, fun rest hrest => ?_⟩
  have hbehind : EndsNumeral (exponent ++ rest) ∨ (exponent ++ rest).head? = some 'e' := by
    rcases he with rfl | ⟨sign, es, rfl, _⟩
    · exact .inl hrest
    · exact .inr rfl
  have hdigit : ∀ c ∈ (fraction ++ (exponent ++ rest)).head?, c.isDigit = false := by
    rcases hf with rfl | ⟨fs, rfl, _⟩
    · rcases hbehind with h | h
      · exact fun c hc => (h c hc).1
      · rw [List.nil_append, h]
        rintro _ ⟨⟩
        rfl
    · rintro _ ⟨⟩
      rfl
  have hdigits := hw.areDigits
  have hempty : whole.isEmpty = false := by simpa using hdigits.1
  obtain ⟨hf₁, hf₂⟩ := hfraction _ hbehind
  obtain ⟨he₁, he₂⟩ := hexponent _ hrest
  constructor
  · simp only [List.append_assoc, takeDecimal?, span_digits hdigits hdigit, hf₁, he₁, hempty,
      Bool.false_and, Bool.false_eq_true, if_false]
  · intro negative hfinite
    have hminus : (whole ++ (fraction ++ (exponent ++ rest))).head? ≠ some '-' := by
      obtain ⟨c, cs, rfl, hc⟩ := hw.head
      intro h
      rw [Option.some.inj h] at hc
      cases hc
    simp only [List.append_assoc, takeNumber?_signChars negative hminus, takeWhole?_of hw hdigit,
      hf₂, he₂, hfinite, if_true, Option.bind_some]

/-- The text of a finite number is read back as the number, without the sign of a zero. -/
theorem takeNumber?_chars {x : Float} (hx : x.isFinite = true) (h : ReadsBack x)
    (hrest : EndsNumeral rest) :
    Json.takeNumber? (chars x ++ rest) = some (if isZero x then 0 else x, rest) := by
  obtain ⟨negative, body, hchars, hbody⟩ := chars_isNumeral h
  obtain ⟨d, hread⟩ := unsigned_read hbody
  have hend : EndsNumeral [] := by
    rintro c ⟨⟩
  have hdecimal : takeDecimal? body = some (d, []) := by
    simpa only [List.append_nil] using (hread [] hend).1
  have hsigned : signed negative d.toFloat = if isZero x then 0 else x := by
    obtain ⟨c, ds, rfl, hc⟩ := IsUnsigned.head hbody
    have hback := parse?_chars h
    rw [hchars, parse?, takeSign_signChars negative hc] at hback
    simp only [hdecimal] at hback
    exact Option.some.inj hback
  have hfinite : d.toFloat.isFinite = true := by
    refine @isFinite_of_signed negative _ ?_
    rw [hsigned]
    split
    · decide
    · exact hx
  rw [hchars, List.append_assoc, (hread rest hrest).2 negative hfinite, hsigned]

end Number

end TemplateFormula
