import TemplateFormula.Proofs.Printing.Written
import Mathlib.Data.List.TakeDrop

/-!
# Written numbers

The text of a finite double is one numeral: digits without a leading zero, perhaps a point with
digits behind it, and perhaps an exponent. The lexer reads it as a whole.
-/

namespace TemplateFormula

namespace Scan

def AreDigits (cs : List Char) : Prop := cs ≠ [] ∧ ∀ c ∈ cs, c.isDigit = true

/-- Nothing in front of which a numeral could go on. -/
def EndsNumeral (cs : List Char) : Prop :=
  ∀ c ∈ cs.head?, c.isDigit = false ∧ c ≠ '.' ∧ c ≠ 'e' ∧ c ≠ 'E'

/-- The digits before a point. -/
def IsWhole (cs : List Char) : Prop := cs = ['0'] ∨ (AreDigits cs ∧ cs.head? ≠ some '0')

def IsFraction (cs : List Char) : Prop := cs = [] ∨ ∃ ds, cs = '.' :: ds ∧ AreDigits ds

def IsExponent (cs : List Char) : Prop :=
  cs = [] ∨ ∃ sign ds, cs = 'e' :: sign ++ ds ∧ (sign = ['+'] ∨ sign = ['-']) ∧ AreDigits ds

def IsUnsigned (cs : List Char) : Prop :=
  ∃ whole fraction exponent, cs = whole ++ fraction ++ exponent ∧
    IsWhole whole ∧ IsFraction fraction ∧ IsExponent exponent

/-- A mark, perhaps a sign, and digits. -/
def IsPower (cs : List Char) : Prop :=
  cs = [] ∨ ∃ mark sign ds, cs = mark :: sign ++ ds ∧ (mark = 'e' ∨ mark = 'E') ∧
    (sign = [] ∨ sign = ['+'] ∨ sign = ['-']) ∧ AreDigits ds

/-- Numerals without a sign as they may stand in a source text. -/
def IsNumeral (cs : List Char) : Prop :=
  ∃ whole fraction power, cs = whole ++ fraction ++ power ∧
    IsWhole whole ∧ IsFraction fraction ∧ IsPower power

variable {cs rest : List Char}

theorem takeWhile_digits (h : AreDigits cs) (hrest : ∀ c ∈ rest.head?, c.isDigit = false) :
    (cs ++ rest).takeWhile Char.isDigit = cs := by
  rw [List.takeWhile_append_of_pos h.2]
  cases rest with
  | nil => simp
  | cons c rest => simp [hrest c rfl]

theorem wholeChars_of (h : IsWhole cs) (hrest : ∀ c ∈ rest.head?, c.isDigit = false) :
    wholeChars (cs ++ rest) = cs := by
  rcases h with rfl | ⟨hdigits, hzero⟩
  · rfl
  · cases cs with
    | nil => exact absurd rfl hdigits.1
    | cons c cs =>
      have hc : c ≠ '0' := fun h => hzero (by rw [h]; rfl)
      rw [wholeChars.eq_def]
      split
      · next h => exact absurd (List.cons.inj h).1 hc
      · exact takeWhile_digits hdigits hrest

theorem fractionChars_of (h : IsFraction cs)
    (hrest : ∀ c ∈ rest.head?, c.isDigit = false ∧ c ≠ '.') :
    fractionChars (cs ++ rest) = cs := by
  rcases h with rfl | ⟨ds, rfl, hds⟩
  · cases rest with
    | nil => rfl
    | cons c rest =>
      have hc := (hrest c rfl).2
      rw [List.nil_append, fractionChars.eq_def]
      split
      · next h => exact absurd (List.cons.inj h).1 hc
      · rfl
  · simp only [List.cons_append, fractionChars, takeWhile_digits hds fun c hc => (hrest c hc).1,
      List.isEmpty_iff, if_neg hds.1]

theorem exponentSignChars_digits (h : AreDigits cs) : exponentSignChars (cs ++ rest) = [] := by
  cases cs with
  | nil => exact absurd rfl h.1
  | cons c cs =>
    have hc : c.isDigit = true := h.2 c (by simp)
    rw [List.cons_append, exponentSignChars.eq_def]
    split
    · next heq =>
      rw [(List.cons.inj heq).1] at hc
      cases hc
    · next heq =>
      rw [(List.cons.inj heq).1] at hc
      cases hc
    · rfl

theorem exponentChars_of (h : IsPower cs) (hrest : EndsNumeral rest) :
    exponentChars (cs ++ rest) = cs := by
  rcases h with rfl | ⟨mark, sign, ds, rfl, hmark, hsign, hds⟩
  · cases rest with
    | nil => rfl
    | cons c rest =>
      obtain ⟨_, _, he, hE⟩ := hrest c rfl
      simp [exponentChars, he, hE]
  · have htake : (ds ++ rest).takeWhile Char.isDigit = ds :=
      takeWhile_digits hds fun c hc => (hrest c hc).1
    have hread : exponentSignChars (sign ++ (ds ++ rest)) = sign := by
      rcases hsign with rfl | rfl | rfl
      · rw [List.nil_append, exponentSignChars_digits hds]
      · rfl
      · rfl
    simp [exponentChars, if_pos hmark, hread, htake, hds.1]

theorem IsWhole.head {cs : List Char} (h : IsWhole cs) : ∃ c ds, cs = c :: ds ∧ c.isDigit := by
  rcases h with rfl | ⟨⟨hne, hdigits⟩, _⟩
  · exact ⟨'0', [], rfl, rfl⟩
  · cases cs with
    | nil => exact absurd rfl hne
    | cons c ds => exact ⟨c, ds, rfl, hdigits c (by simp)⟩

theorem IsWhole.areDigits (h : IsWhole cs) : AreDigits cs := by
  rcases h with rfl | ⟨h, _⟩
  · exact ⟨by simp, by simp⟩
  · exact h

theorem IsPower.head (h : IsPower cs) : ∀ c ∈ cs.head?, c = 'e' ∨ c = 'E' := by
  rcases h with rfl | ⟨mark, sign, ds, rfl, hmark, _⟩
  · rintro _ ⟨⟩
  · rintro _ ⟨⟩
    exact hmark

/-- What stands behind the digits of a numeral is neither a digit nor a point. -/
theorem IsPower.behind (h : IsPower cs) (hrest : EndsNumeral rest) :
    ∀ c ∈ (cs ++ rest).head?, c.isDigit = false ∧ c ≠ '.' := by
  cases cs with
  | nil => exact fun c hc => ⟨(hrest c hc).1, (hrest c hc).2.1⟩
  | cons c cs =>
    rintro _ ⟨⟩
    rcases h.head c rfl with rfl | rfl <;> decide

theorem IsFraction.behind (h : IsFraction cs)
    (hrest : ∀ c ∈ rest.head?, c.isDigit = false ∧ c ≠ '.') :
    ∀ c ∈ (cs ++ rest).head?, c.isDigit = false := by
  rcases h with rfl | ⟨ds, rfl, _⟩
  · exact fun c hc => (hrest c hc).1
  · rintro _ ⟨⟩
    rfl

/-- The scanner reads a numeral as a whole. -/
theorem unsignedChars_of (h : IsNumeral cs) (hrest : EndsNumeral rest) :
    unsignedChars (cs ++ rest) = cs := by
  obtain ⟨whole, fraction, power, rfl, hw, hf, hp⟩ := h
  have hbehind := hp.behind hrest
  have hwhole := wholeChars_of hw (hf.behind hbehind)
  have hne : whole ≠ [] := by
    obtain ⟨c, ds, rfl, _⟩ := hw.head
    exact List.cons_ne_nil _ _
  simp only [List.append_assoc, unsignedChars, hwhole, List.isEmpty_iff, if_neg hne, List.drop_left]
  rw [← List.drop_drop, List.drop_left, fractionChars_of hf hbehind, List.drop_left,
    exponentChars_of hp hrest]

theorem IsExponent.isPower (h : IsExponent cs) : IsPower cs := by
  rcases h with rfl | ⟨sign, ds, rfl, hsign, hds⟩
  · exact .inl rfl
  · exact .inr ⟨'e', sign, ds, rfl, .inl rfl, .inr hsign, hds⟩

theorem IsUnsigned.isNumeral (h : IsUnsigned cs) : IsNumeral cs := by
  obtain ⟨whole, fraction, exponent, rfl, hw, hf, he⟩ := h
  exact ⟨whole, fraction, exponent, rfl, hw, hf, he.isPower⟩

end Scan

namespace Number

open Scan

theorem dropWhile_digits {cs rest : List Char} (h : AreDigits cs)
    (hrest : ∀ c ∈ rest.head?, c.isDigit = false) :
    (cs ++ rest).dropWhile Char.isDigit = rest := by
  rw [List.dropWhile_append_of_pos h.2]
  cases rest with
  | nil => rfl
  | cons c rest => simp [hrest c rfl]

theorem span_digits {cs rest : List Char} (h : AreDigits cs)
    (hrest : ∀ c ∈ rest.head?, c.isDigit = false) :
    (cs ++ rest).span Char.isDigit = (cs, rest) := by
  rw [List.span_eq_takeWhile_dropWhile, takeWhile_digits h hrest, dropWhile_digits h hrest]

theorem natChars_areDigits (n : Nat) : AreDigits (natChars n) :=
  ⟨Nat.toDigits_ne_nil, fun _ h => Nat.isDigit_of_mem_toDigits (by decide) (by decide) h⟩

theorem head?_append {cs ds : List Char} (h : cs ≠ []) : (cs ++ ds).head? = cs.head? := by
  cases cs with
  | nil => exact absurd rfl h
  | cons c cs => rfl

theorem natChars_head {n : Nat} (h : n ≠ 0) : (natChars n).head? ≠ some '0' := by
  induction n using Nat.strongRecOn with
  | ind n ih =>
    rw [natChars, Nat.toDigits_eq_if (by decide)]
    split
    · next hlt =>
      have hdigit : ∀ m, m < 10 → m ≠ 0 → m.digitChar ≠ '0' := by decide
      simpa using hdigit n hlt h
    · next hge =>
      have hhead := ih (n / 10) (by omega) (by omega)
      rw [natChars] at hhead
      rwa [head?_append Nat.toDigits_ne_nil]

theorem AreDigits.append {cs ds : List Char} (h : AreDigits cs) (hd : ∀ c ∈ ds, c.isDigit = true) :
    AreDigits (cs ++ ds) := by
  refine ⟨by simp [h.1], fun c hc => ?_⟩
  rcases List.mem_append.1 hc with hc | hc
  · exact h.2 c hc
  · exact hd c hc

theorem replicate_zero_digits (n : Nat) : ∀ c ∈ List.replicate n '0', c.isDigit = true := by
  intro c hc
  rw [(List.mem_replicate.1 hc).2]
  rfl

theorem withExponent_isUnsigned (d : Decimal) : IsUnsigned d.withExponent := by
  have hdigits := natChars_areDigits d.coefficient
  unfold Decimal.withExponent
  split
  · next h => exact absurd h hdigits.1
  · next c r h =>
    rw [h] at hdigits
    have hc : c.isDigit = true := hdigits.2 c (by simp)
    have hwhole : IsWhole [c] := by
      by_cases hz : c = '0'
      · exact .inl (by rw [hz])
      · exact .inr ⟨⟨List.cons_ne_nil _ _, by simpa using hc⟩, by simpa using hz⟩
    have hfraction : IsFraction (if r.isEmpty then [] else '.' :: r) := by
      split
      · exact .inl rfl
      · next hr =>
        exact .inr ⟨r, rfl, by simpa using hr, fun c hc => hdigits.2 c (by simp [hc])⟩
    dsimp only
    generalize d.exponent + (r.length : Int) = e
    have hexponent : IsExponent ('e' :: if e < 0 then intChars e else '+' :: intChars e) := by
      have hds := natChars_areDigits e.natAbs
      unfold intChars
      split
      · exact .inr ⟨['-'], _, rfl, .inr rfl, hds⟩
      · exact .inr ⟨['+'], _, rfl, .inl rfl, hds⟩
    exact ⟨[c], _, _, rfl, hwhole, hfraction, hexponent⟩

theorem positional_isUnsigned (d : Decimal) (h : d.coefficient ≠ 0 ∨ d.exponent ≤ 0) :
    IsUnsigned d.positional := by
  have hdigits := natChars_areDigits d.coefficient
  unfold Decimal.positional
  dsimp only
  by_cases he : 0 ≤ d.exponent
  · rw [if_pos he]
    refine ⟨_, [], [], (by simp only [List.append_nil]; rfl), ?_, .inl rfl, .inl rfl⟩
    by_cases hc : d.coefficient = 0
    · have hz : d.exponent = 0 := by omega
      rw [hc, hz]
      exact .inl rfl
    · refine .inr ⟨AreDigits.append hdigits (replicate_zero_digits _), ?_⟩
      rw [head?_append hdigits.1]
      exact natChars_head hc
  · rw [if_neg he]
    generalize hplaces : (-d.exponent).toNat = places
    have hpos : 0 < places := by omega
    generalize hds : List.replicate (places + 1 - (natChars d.coefficient).length) '0' ++
      natChars d.coefficient = ds
    have hlen : places + 1 ≤ ds.length := by
      rw [← hds, List.length_append, List.length_replicate]
      omega
    have hall : ∀ c ∈ ds, c.isDigit = true := by
      rw [← hds]
      intro c hc
      rcases List.mem_append.1 hc with hc | hc
      · exact replicate_zero_digits _ c hc
      · exact hdigits.2 c hc
    have htake : ds.take (ds.length - places) ≠ [] := by
      rw [← List.length_pos_iff, List.length_take]
      omega
    have hdrop : ds.drop (ds.length - places) ≠ [] := by
      rw [← List.length_pos_iff, List.length_drop]
      omega
    refine ⟨ds.take (ds.length - places), '.' :: ds.drop (ds.length - places), [], by simp, ?_,
      .inr ⟨_, rfl, hdrop, fun c hc => hall c (List.mem_of_mem_drop hc)⟩, .inl rfl⟩
    by_cases hle : (natChars d.coefficient).length ≤ places
    · -- the digits start behind the point, with one zero before it
      have hone : ds.length - places = 1 := by
        rw [← hds, List.length_append, List.length_replicate]
        omega
      obtain ⟨k, hk⟩ : ∃ k, places + 1 - (natChars d.coefficient).length = k + 1 :=
        ⟨places - (natChars d.coefficient).length, by omega⟩
      rw [hone, ← hds, hk, List.replicate_succ]
      exact .inl rfl
    · have hself : ds = natChars d.coefficient := by
        rw [← hds, Nat.sub_eq_zero_of_le (by omega)]
        rfl
      have hcoefficient : d.coefficient ≠ 0 := by
        intro hz
        rw [hz] at hle
        exact hle hpos
      refine .inr ⟨⟨htake, fun c hc => hall c (List.mem_of_mem_take hc)⟩, ?_⟩
      rw [List.head?_take, if_neg (by omega), hself]
      exact natChars_head hcoefficient

theorem takeSign_signChars (negative : Bool) {c : Char} {cs : List Char} (hc : c.isDigit) :
    takeSign (signChars negative ++ c :: cs) = (negative, c :: cs) := by
  cases negative with
  | true => rfl
  | false =>
    simp only [signChars, Bool.false_eq_true, if_false, List.nil_append]
    rw [takeSign.eq_def]
    split
    · next h =>
      rw [(List.cons.inj h).1] at hc
      cases hc
    · next h =>
      rw [(List.cons.inj h).1] at hc
      cases hc
    · rfl

theorem parse?_zeros (negative : Bool) (n : Nat) :
    parse? (signChars negative ++ List.replicate (n + 1) '0') = some (signed negative 0) := by
  have htake : takeDecimal? (List.replicate (n + 1) '0') = some (⟨0, 0⟩, []) := by
    simp [takeDecimal?, takeFraction, takeExponent]
  rw [parse?, List.replicate_succ, takeSign_signChars negative rfl, ← List.replicate_succ]
  simp only [htake]
  rfl

theorem mantissa_signed_zero (negative : Bool) :
    (finite? (signed negative 0)).map (·.mantissa) = some 0 := by
  cases negative <;> rfl

/-- The text of a double that reads back is a numeral with at most a minus sign before it. -/
theorem chars_isNumeral {x : Float} (h : ReadsBack x) :
    ∃ negative body, chars x = signChars negative ++ body ∧ IsUnsigned body := by
  obtain ⟨a, ha, h⟩ := h
  by_cases hz : a.mantissa = 0
  · refine ⟨false, ['0'], by simp [chars, ha, hz, signChars], ?_⟩
    exact ⟨['0'], [], [], rfl, .inl rfl, .inl rfl, .inl rfl⟩
  · have hback := h.resolve_left hz
    simp only [chars, ha, if_neg hz] at hback ⊢
    split at hback
    · next hlarge =>
      rw [if_pos hlarge]
      exact ⟨a.negative, _, rfl, withExponent_isUnsigned _⟩
    · next hlarge =>
      rw [if_neg hlarge]
      refine ⟨a.negative, _, rfl, positional_isUnsigned _ ?_⟩
      by_cases hcoefficient : a.shortest.coefficient = 0
      · refine .inr (Int.not_lt.1 fun hexponent => hz ?_)
        -- a row of zeros would read back as a zero
        obtain ⟨n, hn⟩ : ∃ n, a.shortest.exponent.toNat = n + 1 :=
          ⟨a.shortest.exponent.toNat - 1, by omega⟩
        have hzeros : a.shortest.positional = List.replicate (n + 2) '0' := by
          rw [Decimal.positional, if_pos (Int.le_of_lt hexponent), hcoefficient, hn]
          rfl
        rw [hzeros, parse?_zeros] at hback
        have hmantissa := mantissa_signed_zero a.negative
        rw [Option.some.inj hback, ha] at hmantissa
        exact Option.some.inj hmantissa
      · exact .inl hcoefficient

theorem parse?_chars {x : Float} (h : ReadsBack x) :
    parse? (chars x) = some (if isZero x then 0 else x) := by
  obtain ⟨a, ha, h⟩ := h
  by_cases hz : a.mantissa = 0
  · have hzero : isZero x = true := by simp [isZero, ha, hz]
    have hchars : chars x = signChars false ++ List.replicate (0 + 1) '0' := by
      simp only [chars, ha, if_pos hz]
      rfl
    rw [hchars, parse?_zeros, if_pos hzero]
    rfl
  · have hzero : ¬ isZero x = true := by simp [isZero, ha, hz]
    rw [h.resolve_left hz, if_neg hzero]

theorem takeSign_digit {c : Char} {cs : List Char} (hc : c.isDigit) :
    takeSign (c :: cs) = (false, c :: cs) :=
  takeSign_signChars false hc

theorem takeFraction_of {cs rest : List Char} (h : IsFraction cs)
    (hrest : ∀ c ∈ rest.head?, c.isDigit = false ∧ c ≠ '.') :
    ∃ ds, takeFraction (cs ++ rest) = (ds, rest) := by
  rcases h with rfl | ⟨ds, rfl, hds⟩
  · refine ⟨[], ?_⟩
    rw [List.nil_append, takeFraction.eq_def]
    split
    · exact absurd rfl (hrest '.' rfl).2
    · rfl
  · exact ⟨ds, span_digits hds fun c hc => (hrest c hc).1⟩

theorem takeExponent_of {cs : List Char} (h : IsPower cs) : ∃ e, takeExponent cs = (e, []) := by
  rcases h with rfl | ⟨mark, sign, ds, rfl, hmark, hsign, hds⟩
  · exact ⟨0, rfl⟩
  · have hspan : ds.span Char.isDigit = (ds, []) := by
      simpa using @span_digits ds [] hds (by rintro _ ⟨⟩)
    obtain ⟨negative, hsigned⟩ : ∃ negative, takeSign (sign ++ ds) = (negative, ds) := by
      rcases hsign with rfl | rfl | rfl
      · cases ds with
        | nil => exact absurd rfl hds.1
        | cons d ds => exact ⟨false, takeSign_digit (hds.2 d (by simp))⟩
      · exact ⟨false, rfl⟩
      · exact ⟨true, rfl⟩
    have hne : ds.isEmpty = false := by simp [hds.1]
    simp only [takeExponent, List.cons_append, if_pos hmark, hsigned, hspan, hne,
      Bool.false_eq_true, if_false]
    exact ⟨_, rfl⟩

/-- Every numeral stands for a number, also with a sign. -/
theorem isSome_parse?_signed (negative : Bool) {cs : List Char} (h : IsNumeral cs) :
    (parse? (signChars negative ++ cs)).isSome := by
  obtain ⟨whole, fraction, power, rfl, hw, hf, hp⟩ := h
  have hends : EndsNumeral [] := by rintro _ ⟨⟩
  have hbehind : ∀ c ∈ power.head?, c.isDigit = false ∧ c ≠ '.' := by
    simpa using hp.behind hends
  obtain ⟨ds, hfraction⟩ := takeFraction_of hf hbehind
  obtain ⟨e, hexponent⟩ := takeExponent_of hp
  have hspan := span_digits hw.areDigits (hf.behind hbehind)
  obtain ⟨c, cs, rfl, hc⟩ := hw.head
  rw [List.cons_append] at hspan
  simp [parse?, takeSign_signChars negative hc, takeDecimal?, hspan, hfraction, hexponent,
    -List.span_eq_takeWhile_dropWhile]

theorem isSome_parse? {cs : List Char} (h : IsNumeral cs) : (parse? cs).isSome :=
  isSome_parse?_signed false h

/-- The number that a numeral stands for. -/
def value {cs : List Char} (h : IsNumeral cs) : Float := (parse? cs).get (isSome_parse? h)

theorem IsNumeral.head {cs : List Char} (h : IsNumeral cs) : ∃ c ds, cs = c :: ds ∧ c.isDigit := by
  obtain ⟨whole, fraction, power, rfl, hw, _⟩ := h
  obtain ⟨c, ds, rfl, hc⟩ := hw.head
  exact ⟨c, ds ++ (fraction ++ power), by simp, hc⟩

/-- A numeral in a source text is read as one lexeme. -/
theorem number?_numeral {cs rest : List Char} (h : IsNumeral cs) (after : Bool)
    (hrest : EndsNumeral rest) :
    number? after (cs ++ rest) =
      some ⟨.number (value h), some (String.ofList cs), cs.length⟩ := by
  have hread := unsignedChars_of h hrest
  obtain ⟨c, ds, rfl, hc⟩ := IsNumeral.head h
  have hnumeral : numeralChars after (c :: ds ++ rest) = c :: ds := by
    rw [numeralChars.eq_def]
    split
    · next hminus =>
      rw [(List.cons.inj hminus).1] at hc
      cases hc
    · exact hread
  have hparse : parse? (c :: ds) = some (value h) := (Option.some_get _).symm
  simp only [number?, hnumeral, List.isEmpty_cons, Bool.false_eq_true, if_false, hparse,
    Option.map_some]

theorem IsUnsigned.head {cs : List Char} (h : IsUnsigned cs) :
    ∃ c ds, cs = c :: ds ∧ c.isDigit := by
  obtain ⟨whole, fraction, exponent, rfl, hw, _⟩ := h
  obtain ⟨c, ds, rfl, hc⟩ := hw.head
  exact ⟨c, ds ++ (fraction ++ exponent), by simp, hc⟩

theorem chars_head {x : Float} (h : ReadsBack x) :
    ∃ c cs, chars x = c :: cs ∧ (c = '-' ∨ c.isDigit) := by
  obtain ⟨negative, body, hchars, hbody⟩ := chars_isNumeral h
  obtain ⟨c, ds, rfl, hc⟩ := IsUnsigned.head hbody
  cases negative with
  | true => exact ⟨'-', c :: ds, hchars, .inl rfl⟩
  | false => exact ⟨c, ds, hchars, .inr hc⟩

theorem numeralChars_chars {x : Float} (h : ReadsBack x) {rest : List Char}
    (hrest : EndsNumeral rest) : numeralChars false (chars x ++ rest) = chars x := by
  obtain ⟨negative, body, hchars, hbody⟩ := chars_isNumeral h
  have hread := unsignedChars_of hbody.isNumeral hrest
  obtain ⟨c, ds, rfl, hc⟩ := IsUnsigned.head hbody
  rw [hchars]
  cases negative with
  | true =>
    simp only [signChars, if_true, List.cons_append, List.nil_append, numeralChars] at hread ⊢
    simp [hread]
  | false =>
    simp only [signChars, Bool.false_eq_true, if_false, List.nil_append]
    rw [numeralChars.eq_def]
    split
    · next hminus =>
      rw [(List.cons.inj hminus).1] at hc
      cases hc
    · exact hread

/-- A written number is read as one lexeme, with the sign taken from a zero. -/
theorem number?_chars {x : Float} (h : ReadsBack x) {rest : List Char} (hrest : EndsNumeral rest) :
    number? false (chars x ++ rest) =
      some ⟨.number (if isZero x then 0 else x), some (String.ofList (chars x)),
        (chars x).length⟩ := by
  obtain ⟨c, cs, hchars, _⟩ := chars_head h
  have hne : (chars x).isEmpty = false := by rw [hchars]; rfl
  simp only [number?, numeralChars_chars h hrest, hne, Bool.false_eq_true, if_false,
    parse?_chars h, Option.map_some]

end Number

end TemplateFormula
