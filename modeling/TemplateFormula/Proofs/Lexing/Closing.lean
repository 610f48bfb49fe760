import TemplateFormula.Proofs.Lexing.Progress
import Mathlib.Data.List.Find

/-!
# Scanning in front of a closing brace

A closing brace ends words, numerals and free text as the end of the text does, and so do other
characters that no word goes on with. What a scanner finds in front of one that it does not get over
does not depend on what is behind it.
-/

namespace TemplateFormula.Scan

variable {p u : List Char} {c d : Char}

/-- A character that no word goes on with, nor the digits of a numeral. -/
structure Parting (d : Char) : Prop where
  start : isIdentifierStart d = false
  part : isIdentifierPart d = false
  lower : d.toLower = d
  word : ∀ k ∈ keywords, d ∉ k.1
  digit : d.isDigit = false
  point : d ≠ '.'
  power : d ≠ 'e' ∧ d ≠ 'E'

/-- Signs of an exponent. -/
def IsSign (d : Char) : Prop := d = '+' ∨ d = '-'

theorem not_isSign_brace : ¬ IsSign '\x7d' := by
  rintro (h | h) <;> exact absurd h (by decide)

theorem parting_brace : Parting '\x7d' := by
  constructor <;> decide

theorem takeWhile_closing {part : Char → Bool} (stops : part d = false) (p u : List Char) :
    (p ++ d :: u).takeWhile part = p.takeWhile part := by
  rw [List.takeWhile_append, List.takeWhile_cons_of_neg (by simp [stops])]
  split
  · next whole => rw [List.append_nil, (List.takeWhile_prefix part).eq_of_length whole]
  · rfl

theorem dropWhile_closing {part : Char → Bool} (stops : part d = false) (p u : List Char) :
    (p ++ d :: u).dropWhile part = p.dropWhile part ++ d :: u := by
  rw [List.dropWhile_append, List.dropWhile_cons_of_neg (by simp [stops])]
  split
  · next whole => rw [List.isEmpty_iff.mp whole, List.nil_append]
  · rfl

theorem drop_closing (n : Nat) (h : n ≤ p.length) : (p ++ d :: u).drop n = p.drop n ++ d :: u :=
  List.drop_append_of_le_length h

theorem take_closing (n : Nat) (h : n ≤ p.length) : (p ++ d :: u).take n = p.take n :=
  List.take_append_of_le_length h

section Numerals

variable (parting : Parting d)
include parting

omit parting in
theorem wholeChars_of_ne (other : c ≠ '0') (cs : List Char) :
    wholeChars (c :: cs) = (c :: cs).takeWhile Char.isDigit := by
  rw [wholeChars.eq_def]
  split
  · next h => exact absurd (List.cons.inj h).1 other
  · rfl

theorem wholeChars_closing (p u : List Char) : wholeChars (p ++ d :: u) = wholeChars p := by
  cases p with
  | nil =>
    have other : d ≠ '0' := by
      rintro rfl
      exact absurd parting.digit (by decide)
    have parts : ¬ d.isDigit = true := by simp [parting.digit]
    rw [List.nil_append, wholeChars_of_ne other, List.takeWhile_cons_of_neg parts]
    rfl
  | cons c p =>
    by_cases zero : c = '0'
    · subst zero
      rfl
    · rw [List.cons_append, wholeChars_of_ne zero, wholeChars_of_ne zero, ← List.cons_append]
      exact takeWhile_closing parting.digit _ _

omit parting in
theorem fractionChars_of_ne (h : c ≠ '.') (cs : List Char) : fractionChars (c :: cs) = [] := by
  rw [fractionChars.eq_def]
  split
  · next eq => exact absurd (List.cons.inj eq).1 h
  · rfl

theorem fractionChars_closing (p u : List Char) :
    fractionChars (p ++ d :: u) = fractionChars p := by
  cases p with
  | nil => exact fractionChars_of_ne parting.point u
  | cons c p =>
    rw [List.cons_append]
    by_cases point : c = '.'
    · subst point
      simp only [fractionChars, takeWhile_closing parting.digit]
    · rw [fractionChars_of_ne point, fractionChars_of_ne point]

omit parting in
/-- The sign of an exponent stands directly behind its mark. -/
theorem exponentSignChars_closing (some_ : p = [] → ¬ IsSign d) :
    exponentSignChars (p ++ d :: u) = exponentSignChars p := by
  cases p with
  | nil =>
    have other := some_ rfl
    rw [List.nil_append, exponentSignChars.eq_def]
    split
    · next eq => exact absurd (.inl (List.cons.inj eq).1) other
    · next eq => exact absurd (.inr (List.cons.inj eq).1) other
    · rfl
  | cons c p =>
    rw [List.cons_append, exponentSignChars.eq_def, exponentSignChars.eq_def]
    by_cases plus : c = '+'
    · subst plus
      rfl
    · by_cases minus : c = '-'
      · subst minus
        rfl
      · simp [plus, minus]

/-- The mark of an exponent and nothing behind it. -/
def IsMark (cs : List Char) : Prop := cs = ['e'] ∨ cs = ['E']

theorem exponentChars_closing (sign : IsSign d → ¬ IsMark p) :
    exponentChars (p ++ d :: u) = exponentChars p := by
  cases p with
  | nil =>
    obtain ⟨lower, upper⟩ := parting.power
    simp only [List.nil_append, exponentChars, lower, upper, or_self, if_false]
  | cons c p =>
    by_cases mark : c = 'e' ∨ c = 'E'
    · have signs : exponentSignChars (p ++ d :: u) = exponentSignChars p := by
        refine exponentSignChars_closing ?_
        rintro rfl signed
        exact sign signed (mark.imp (by rintro rfl; rfl) (by rintro rfl; rfl))
      have sign_le := (exponentSignChars_initial p).length_le
      simp only [List.cons_append, exponentChars, signs, drop_closing _ sign_le,
        takeWhile_closing parting.digit]
    · simp only [List.cons_append, exponentChars, if_neg mark]

/-- A numeral with the mark of an exponent behind it, which a sign may go on with. -/
def EndsOpen (numeral cs : List Char) : Prop :=
  numeral ≠ [] ∧ IsMark (cs.drop numeral.length)

theorem unsignedChars_closing (sign : IsSign d → ¬ EndsOpen (unsignedChars p) p) :
    unsignedChars (p ++ d :: u) = unsignedChars p := by
  have whole := wholeChars_initial p
  have fraction := fractionChars_initial (p.drop (wholeChars p).length)
  have both := (append_initial whole fraction).length_le
  rw [List.length_append] at both
  by_cases none_ : (wholeChars p).isEmpty = true
  · simp only [unsignedChars, wholeChars_closing parting, if_pos none_]
  · have exponent : exponentChars (p.drop ((wholeChars p).length +
        (fractionChars (p.drop (wholeChars p).length)).length) ++ d :: u) =
        exponentChars (p.drop ((wholeChars p).length +
          (fractionChars (p.drop (wholeChars p).length)).length)) := by
      refine exponentChars_closing parting fun signed mark => sign signed ?_
      have bare : exponentChars (p.drop ((wholeChars p).length +
          (fractionChars (p.drop (wholeChars p).length)).length)) = [] := by
        rcases mark with mark | mark <;> rw [mark] <;> rfl
      simp only [EndsOpen, unsignedChars, if_neg none_, bare, List.append_nil, List.length_append]
      refine ⟨List.append_ne_nil_of_left_ne_nil (fun empty => none_ ?_) _, mark⟩
      rw [empty, List.isEmpty_nil]
    simp only [unsignedChars, wholeChars_closing parting, drop_closing _ whole.length_le,
      fractionChars_closing parting, drop_closing _ both, exponent]

omit parting in
theorem numeralChars_of_ne (afterOperand : Bool) (h : c ≠ '-') (cs : List Char) :
    numeralChars afterOperand (c :: cs) = unsignedChars (c :: cs) := by
  rw [numeralChars.eq_def]
  split
  · next eq => exact absurd (List.cons.inj eq).1 h
  · rfl

theorem numeralChars_closing {afterOperand : Bool} (some_ : IsSign d → p ≠ [])
    (sign : IsSign d → ¬ EndsOpen (numeralChars afterOperand p) p) :
    numeralChars afterOperand (p ++ d :: u) = numeralChars afterOperand p := by
  cases p with
  | nil =>
    have other : d ≠ '-' := fun minus => some_ (.inr minus) rfl
    rw [List.nil_append, numeralChars_of_ne _ other]
    exact unsignedChars_closing parting (p := []) fun signed => absurd rfl (some_ signed)
  | cons c p =>
    rw [List.cons_append]
    by_cases minus : c = '-'
    · subst minus
      cases afterOperand with
      | true => rfl
      | false =>
        have digits : unsignedChars (p ++ d :: u) = unsignedChars p := by
          refine unsignedChars_closing parting fun signed open_ => sign signed ?_
          have some_ : ¬ (unsignedChars p).isEmpty = true := fun empty =>
            open_.1 (List.isEmpty_iff.mp empty)
          simp only [numeralChars, Bool.false_or, if_neg some_]
          exact ⟨List.cons_ne_nil _ _, open_.2⟩
        simp only [numeralChars, digits]
    · rw [numeralChars_of_ne _ minus, numeralChars_of_ne _ minus, ← List.cons_append]
      refine unsignedChars_closing parting fun signed => ?_
      have unsigned := sign signed
      rwa [numeralChars_of_ne _ minus] at unsigned

theorem number?_closing {afterOperand : Bool} (some_ : IsSign d → p ≠ [])
    (sign : IsSign d → ¬ EndsOpen (numeralChars afterOperand p) p) :
    number? afterOperand (p ++ d :: u) = number? afterOperand p := by
  rw [number?, number?, numeralChars_closing parting some_ sign]

end Numerals

section Words

variable (parting : Parting d)
include parting

theorem identifier?_closing (p u : List Char) : identifier? (p ++ d :: u) = identifier? p := by
  cases p with
  | nil => simp only [List.nil_append, identifier?, parting.start, Bool.false_eq_true, if_false]
  | cons c p => simp only [List.cons_append, identifier?, takeWhile_closing parting.part]

theorem matchesWord_closing {word : List Char} (h : d ∉ word) (p u : List Char) :
    matchesWord word (p ++ d :: u) = matchesWord word p := by
  by_cases fits : word.length ≤ p.length
  · have behind : ((p ++ d :: u).drop word.length).head?.any isIdentifierPart =
        (p.drop word.length).head?.any isIdentifierPart := by
      rw [drop_closing _ fits]
      cases p.drop word.length with
      | nil => exact parting.part
      | cons c cs => rfl
    rw [matchesWord, matchesWord, behind, take_closing _ fits]
  · -- The word would have to reach over the character, which is in none.
    have beyond : Number.asciiLower ((p ++ d :: u).take word.length) ≠ word := by
      intro same
      apply h
      rw [← same]
      refine List.mem_map.mpr ⟨d, ?_, parting.lower⟩
      obtain ⟨k, more⟩ : ∃ k, word.length = p.length + (k + 1) :=
        ⟨word.length - p.length - 1, by omega⟩
      rw [more, List.take_length_add_append]
      simp
    have short : Number.asciiLower (p.take word.length) ≠ word := by
      intro same
      have lengths := congrArg List.length same
      simp only [Number.asciiLower, List.length_map, List.length_take] at lengths
      omega
    rw [matchesWord, matchesWord, beq_false_of_ne beyond, beq_false_of_ne short, Bool.false_and,
      Bool.false_and]

omit parting in
theorem length_le_of_matchesWord {word cs : List Char} (h : matchesWord word cs = true) :
    word.length ≤ cs.length := by
  simp only [matchesWord, Bool.and_eq_true, beq_iff_eq] at h
  have lengths := congrArg List.length h.1
  simp only [Number.asciiLower, List.length_map, List.length_take] at lengths
  omega

theorem keyword?_closing (p u : List Char) : keyword? (p ++ d :: u) = keyword? p := by
  have found : keywords.find? (fun k => matchesWord k.1 (p ++ d :: u)) =
      keywords.find? fun k => matchesWord k.1 p := by
    apply List.find?_congr
    intro k member
    exact matchesWord_closing parting (parting.word k member) p u
  rw [keyword?, keyword?, found]
  cases first : keywords.find? fun k => matchesWord k.1 p with
  | none => rfl
  | some k =>
    have matches_ : matchesWord k.1 p = true :=
      List.find?_some (p := fun k : List Char × TokenKind => matchesWord k.1 p) first
    have fits := length_le_of_matchesWord matches_
    simp only [Option.map_some, take_closing _ fits]

end Words

section Signs

theorem isPrefixOf_closing {symbol : List Char} (h : d ∉ symbol) (p u : List Char) :
    symbol.isPrefixOf (p ++ d :: u) = symbol.isPrefixOf p := by
  induction symbol generalizing p with
  | nil => rfl
  | cons e symbol ih =>
    simp only [List.mem_cons, not_or] at h
    cases p with
    | nil => simp [List.isPrefixOf, Ne.symm h.1]
    | cons c p => simp only [List.cons_append, List.isPrefixOf, ih h.2]

/-- A character that is a punctuator of its own or in none. -/
def Lone (d : Char) : Prop := ∀ symbol ∈ punctuators, symbol.toList = [d] ∨ d ∉ symbol.toList

instance : DecidablePred Lone := fun d =>
  inferInstanceAs (Decidable (∀ symbol ∈ punctuators, symbol.toList = [d] ∨ d ∉ symbol.toList))

theorem lone_brace : Lone '\x7d' := by decide

theorem punctuator?_closing (p u : List Char) :
    punctuator? (p ++ '\x7d' :: u) = punctuator? (p ++ ['\x7d']) := by
  have found : punctuators.find? (fun s => s.toList.isPrefixOf (p ++ '\x7d' :: u)) =
      punctuators.find? fun s => s.toList.isPrefixOf (p ++ ['\x7d']) := by
    apply List.find?_congr
    intro symbol member
    rcases lone_brace symbol member with alone | other
    · rw [alone]
      cases p <;> rfl
    · rw [isPrefixOf_closing other, isPrefixOf_closing other]
  rw [punctuator?, punctuator?, found]

/-- Only alone is such a character a punctuator, or part of one. -/
theorem punctuator?_enclosed (lone : Lone d) {cs : List Char} (some_ : cs ≠ []) :
    punctuator? (cs ++ d :: u) = punctuator? cs := by
  obtain ⟨c, cs, rfl⟩ := List.exists_cons_of_ne_nil some_
  have found : punctuators.find? (fun s => s.toList.isPrefixOf (c :: cs ++ d :: u)) =
      punctuators.find? fun s => s.toList.isPrefixOf (c :: cs) := by
    apply List.find?_congr
    intro symbol member
    rcases lone symbol member with alone | other
    · rw [alone]
      rfl
    · exact isPrefixOf_closing other (c :: cs) u
  rw [punctuator?, punctuator?, found]

theorem punctuator?_brace {cs : List Char} {x : Lexeme} (h : punctuator? cs = some x)
    (brace : x.kind.isPunctuator "\x7d") : x.length = 1 := by
  obtain ⟨p, -, rfl⟩ := Option.map_eq_some_iff.1 h
  obtain rfl : p = "\x7d" := beq_iff_eq.mp brace
  rfl

end Signs

section Stretches

/-- A quotation that ends in a text ends there whatever is behind the text. -/
theorem quotedLength_append {q : Char} {n m : Nat} {cs : List Char}
    (h : quotedLength q n cs = .ok m) (u : List Char) : quotedLength q n (cs ++ u) = .ok m := by
  fun_induction quotedLength q n cs with
  | case1 | case2 | case4 => cases h
  | case3 n c cs escape ih =>
    rw [List.cons_append, List.cons_append, quotedLength, if_pos escape]
    exact ih h
  | case5 n cs alone pair =>
    rw [List.cons_append, quotedLength_of_ne (ne_slash alone pair), if_pos rfl]
    exact h
  | case6 n c cs alone pair other ih =>
    rw [List.cons_append, quotedLength_of_ne (ne_slash alone pair), if_neg other]
    exact ih h

/-- A closing brace ends no quotation. -/
theorem quotedLength_unended {q : Char} {n : Nat} {cs : List Char} {e : QuoteFault}
    (h : quotedLength q n cs = .error e) (other : '\x7d' ≠ q) :
    ∃ e, quotedLength q n (cs ++ ['\x7d']) = .error e := by
  fun_induction quotedLength q n cs with
  | case1 n =>
    refine ⟨.unterminated, ?_⟩
    rw [List.nil_append, quotedLength_of_ne (by decide), if_neg other, quotedLength]
  | case2 n =>
    refine ⟨.unexpected (n + 1), ?_⟩
    have stays : ¬ (isEscape '\x7d' || '\x7d' == q) = true := by
      rw [beq_false_of_ne other]
      decide
    rw [List.singleton_append, quotedLength, if_neg stays]
  | case3 n c cs escape ih =>
    rw [List.cons_append, List.cons_append, quotedLength, if_pos escape]
    exact ih h
  | case4 n c cs stays =>
    refine ⟨.unexpected (n + 1), ?_⟩
    rw [List.cons_append, List.cons_append, quotedLength, if_neg stays]
  | case5 => cases h
  | case6 n c cs alone pair ends ih =>
    rw [List.cons_append, quotedLength_of_ne (ne_slash alone pair), if_neg ends]
    exact ih h

theorem quoted?_unended {cs : List Char} {e : QuoteFault} (h : quoted? cs = .error e) :
    ∃ e, quoted? (cs ++ ['\x7d']) = .error e := by
  cases cs with
  | nil => cases h
  | cons q cs =>
    rw [List.cons_append]
    simp only [quoted?] at h ⊢
    by_cases quote : q = '"' ∨ q = '\''
    · have other : '\x7d' ≠ q := by
        rcases quote with rfl | rfl <;> decide
      rw [if_pos quote] at h ⊢
      cases length_eq : quotedLength q 1 cs with
      | ok m =>
        rw [length_eq] at h
        cases h
      | error e =>
        obtain ⟨e, unended⟩ := quotedLength_unended length_eq other
        exact ⟨e, by rw [unended]⟩
    · rw [if_neg quote] at h
      cases h

theorem quoted?_append {cs : List Char} {x : Option Lexeme} (h : quoted? cs = .ok x)
    (some_ : cs ≠ []) (u : List Char) : quoted? (cs ++ u) = .ok x := by
  cases cs with
  | nil => exact absurd rfl some_
  | cons q cs =>
    rw [List.cons_append]
    simp only [quoted?] at h ⊢
    by_cases quote : q = '"' ∨ q = '\''
    · rw [if_pos quote] at h ⊢
      cases length_eq : quotedLength q 1 cs with
      | error e =>
        rw [length_eq] at h
        cases h
      | ok m =>
        have bounds := quotedLength_bounds length_eq
        rw [length_eq] at h
        rw [quotedLength_append length_eq u, ← h]
        have content : (cs ++ u).take (m - 1) = cs.take (m - 1) :=
          List.take_append_of_le_length (by omega)
        have spelling : (q :: (cs ++ u)).take (m + 1) = (q :: cs).take (m + 1) := by
          rw [List.take_succ_cons, List.take_succ_cons,
            List.take_append_of_le_length (show m ≤ cs.length by omega)]
        simp only [content, spelling]
    · rw [if_neg quote] at h ⊢
      exact h

theorem getLast?_tail {d : Char} {cs : List Char} (h : (c :: cs).getLast? = some d) (ne : c ≠ d) :
    cs.getLast? = some d := by
  cases cs with
  | nil =>
    rw [List.getLast?_singleton] at h
    exact absurd (Option.some.inj h) ne
  | cons e cs => rwa [List.getLast?_cons_cons] at h

/-- Behind a dollar sign the text goes on as far as its last character. -/
theorem head?_behind_dollar {cs : List Char} (h : ('$' :: cs).getLast? = some '\x7d')
    (u : List Char) : (cs ++ u).head? = cs.head? := by
  have last := getLast?_tail h (by decide)
  cases cs with
  | nil => cases last
  | cons d cs => rfl

theorem dollarPath_append {cs : List Char} (h : cs.getLast? = some '\x7d') (u : List Char) :
    dollarPath (cs ++ u) = dollarPath cs := by
  obtain ⟨p, rfl⟩ := List.getLast?_eq_some_iff.mp h
  rw [List.append_assoc, List.singleton_append]
  have head : (p ++ '\x7d' :: u).head? = (p ++ ['\x7d']).head? := by cases p <;> rfl
  have part : isPathPart '\x7d' = false := by decide
  simp only [dollarPath, head, takeWhile_closing part]

theorem rawStretch_dollar {cs : List Char} (island : cs.head? ≠ some '\x7b')
    (pair : cs.head? ≠ some '$') (n : Nat) :
    rawStretch n ('$' :: cs) =
      if (dollarPath cs).isEmpty then rawStretch (n + 1) cs
      else .ok ⟨n, some ⟨.variable (String.ofList (dollarPath cs)),
        some (String.ofList ('$' :: dollarPath cs)), (dollarPath cs).length + 1⟩⟩ := by
  rw [rawStretch]
  split
  · next eq => exact absurd eq island
  · next eq => exact absurd eq pair
  · rfl

/-- Literal text that ends in front of the last character, a brace, ends there whatever is behind
that. -/
theorem rawStretch_append {n : Nat} {cs : List Char} {s : Stretch} (h : rawStretch n cs = .ok s)
    (closes : cs.getLast? = some '\x7d') (short : s.length < n + cs.length) (u : List Char) :
    rawStretch n (cs ++ u) = .ok s := by
  fun_induction rawStretch n cs with
  | case1 => cases closes
  | case2 | case4 => cases h
  | case3 n c cs escape ih =>
    have more := getLast?_tail closes (by decide)
    have inner : c ≠ '\x7d' := by
      rintro rfl
      exact absurd escape (by decide)
    have rest := ih h (getLast?_tail more inner) (by simp only [List.length_cons] at short; omega)
    rw [List.cons_append, List.cons_append, rawStretch, if_pos escape]
    exact rest
  | case5 n cs island =>
    rw [List.cons_append, rawStretch, head?_behind_dollar closes, island]
    exact h
  | case6 n cs pair =>
    rw [List.cons_append, rawStretch, head?_behind_dollar closes, pair]
    exact h
  | case7 n cs path none_ island pair ih =>
    have more := getLast?_tail closes (by decide)
    have rest := ih h more (by simp only [List.length_cons] at short; omega)
    rw [List.cons_append, rawStretch_dollar, dollarPath_append more, if_pos none_]
    · exact rest
    · rw [head?_behind_dollar closes]
      exact island
    · rw [head?_behind_dollar closes]
      exact pair
  | case8 n cs path some_ island pair =>
    have more := getLast?_tail closes (by decide)
    rw [List.cons_append, rawStretch_dollar, dollarPath_append more, if_neg some_]
    · exact h
    · rw [head?_behind_dollar closes]
      exact island
    · rw [head?_behind_dollar closes]
      exact pair
  | case9 n c cs alone escape dollar ih =>
    rw [List.cons_append, rawStretch_of_ne (ne_slash alone escape) dollar]
    cases cs with
    | nil =>
      cases h
      exact absurd short (by simp)
    | cons d cs =>
      rw [List.getLast?_cons_cons] at closes
      exact ih h closes (by simp only [List.length_cons] at short ⊢; omega)

/-- The same for the literal text of a template. -/
theorem templateStretch_append {n : Nat} {cs : List Char} {s : Stretch}
    (h : templateStretch n cs = .ok s) (closes : cs.getLast? = some '\x7d')
    (short : s.length < n + cs.length) (u : List Char) : templateStretch n (cs ++ u) = .ok s := by
  fun_induction templateStretch n cs with
  | case1 => cases closes
  | case2 => exact absurd closes (by decide)
  | case4 => cases h
  | case3 n c cs escape ih =>
    have more := getLast?_tail closes (by decide)
    have inner : c ≠ '\x7d' := by
      rintro rfl
      exact absurd escape (by decide)
    have rest := ih h (getLast?_tail more inner) (by simp only [List.length_cons] at short; omega)
    rw [List.cons_append, List.cons_append, templateStretch, if_pos escape]
    exact rest
  | case5 n cs =>
    rw [List.cons_append, List.cons_append, templateStretch]
    exact h
  | case6 n cs =>
    rw [List.cons_append, templateStretch_of_ne (by decide), if_pos rfl]
    · exact h
    · exact fun _ eq => absurd eq (by decide)
  | case7 n c cs alone escape hole other ih =>
    rw [List.cons_append, templateStretch_of_ne (ne_slash alone escape), if_neg other]
    · cases cs with
      | nil =>
        cases h
        exact absurd short (by simp)
      | cons d cs =>
        rw [List.getLast?_cons_cons] at closes
        exact ih h closes (by simp only [List.length_cons] at short ⊢; omega)
    · rintro ds rfl same
      cases cs with
      | nil => cases closes
      | cons d cs => exact hole cs rfl (by rw [(List.cons.inj same).1])

/-- A template that ends in a text ends there whatever is behind the text. -/
theorem templateStretch_ended {n : Nat} {cs : List Char} {s : Stretch} {x : Lexeme}
    (h : templateStretch n cs = .ok s) (found : s.next = some x) (u : List Char) :
    templateStretch n (cs ++ u) = .ok s := by
  fun_induction templateStretch n cs with
  | case1 | case2 =>
    cases h
    cases found
  | case3 n c cs escape ih =>
    rw [List.cons_append, List.cons_append, templateStretch, if_pos escape]
    exact ih h
  | case4 => cases h
  | case5 n cs =>
    rw [List.cons_append, List.cons_append, templateStretch]
    exact h
  | case6 n cs =>
    rw [List.cons_append, templateStretch_of_ne (by decide), if_pos rfl]
    · exact h
    · exact fun _ eq => absurd eq (by decide)
  | case7 n c cs alone escape hole other ih =>
    rw [List.cons_append, templateStretch_of_ne (ne_slash alone escape), if_neg other]
    · exact ih h
    · rintro ds rfl same
      cases cs with
      | nil =>
        cases h
        cases found
      | cons d cs => exact hole cs rfl (by rw [(List.cons.inj same).1])

/-- A template goes on behind a brace unless it has ended before. -/
theorem templateStretch_enclosed {n : Nat} {cs : List Char} {s : Stretch} {x : Lexeme}
    (found : s.next = some x) :
    templateStretch n (cs ++ ['\x7d']) = .ok s ↔ templateStretch n cs = .ok s := by
  have unended (n : Nat) : ¬ (.ok ⟨n, none⟩ : Except Nat Stretch) = .ok s := by
    rintro ⟨⟩
    cases found
  fun_induction templateStretch n cs with
  | case1 n => exact iff_of_false (unended (n + 1)) (unended n)
  | case2 n => exact iff_of_false (by rintro ⟨⟩) (unended (n + 1))
  | case3 n c cs escape ih =>
    rw [List.cons_append, List.cons_append, templateStretch, if_pos escape]
    exact ih
  | case4 n c cs stays =>
    rw [List.cons_append, List.cons_append, templateStretch, if_neg stays]
  | case5 n cs =>
    rw [List.cons_append, List.cons_append, templateStretch]
  | case6 n cs =>
    rw [List.cons_append, templateStretch_of_ne (by decide), if_pos rfl]
    exact fun _ eq => absurd eq (by decide)
  | case7 n c cs alone escape hole other ih =>
    rw [List.cons_append, templateStretch_of_ne (ne_slash alone escape), if_neg other]
    · exact ih
    · rintro ds rfl same
      cases cs with
      | nil => exact absurd (List.cons.inj same).1 (by decide)
      | cons d cs => exact hole cs rfl (by rw [(List.cons.inj same).1])

/-- A template that nothing ends goes on to the end of the text. -/
theorem templateStretch_length {n : Nat} {cs : List Char} {s : Stretch}
    (h : templateStretch n cs = .ok s) (none_ : s.next = none) : s.length = n + cs.length := by
  fun_induction templateStretch n cs with
  | case1 | case2 =>
    cases h
    rfl
  | case3 n c cs _ ih =>
    rw [ih h, List.length_cons, List.length_cons]
    omega
  | case4 => cases h
  | case5 | case6 =>
    cases h
    cases none_
  | case7 n c cs _ _ _ _ ih =>
    rw [ih h, List.length_cons]
    omega

end Stretches

end TemplateFormula.Scan
