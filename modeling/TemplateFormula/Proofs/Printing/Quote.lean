import TemplateFormula.Json.Printer
import TemplateFormula.Json.Reader
import TemplateFormula.Proofs.Lexing.Outcomes

/-!
# Quoted texts

A text written in quotes for JSON is read back by the lexer as one lexeme with the same text.
-/

namespace TemplateFormula

namespace Scan

variable {quote : Char} {n : Nat} {cs : List Char}

theorem quotedLength_plain {c : Char} (h : c ≠ '\\') (hq : c ≠ quote) :
    quotedLength quote n (c :: cs) = quotedLength quote (n + 1) cs := by
  rw [quotedLength_of_ne h, if_neg hq]

theorem quotedLength_escaped {c : Char} (h : isEscape c) :
    quotedLength quote n ('\\' :: c :: cs) = quotedLength quote (n + 2) cs := by
  simp [quotedLength, h]

theorem quotedLength_close (h : quote ≠ '\\') : quotedLength quote n (quote :: cs) = .ok n := by
  rw [quotedLength_of_ne h, if_pos rfl]

end Scan

namespace Text

theorem unescape_plain {c : Char} {cs : List Char} (h : c ≠ '\\') :
    unescape (c :: cs) = c :: unescape cs := by
  rw [unescape.eq_def]
  split
  · next h' => exact absurd (List.cons.inj h').1 h
  · next h' => exact absurd (List.cons.inj h').1 h
  · next h' => exact absurd (List.cons.inj h').1 h
  · next h' => exact absurd (List.cons.inj h').1 h
  · next h' =>
    obtain ⟨rfl, rfl⟩ := List.cons.inj h'
    rfl
  · next h' => cases h'

theorem unescape_escaped {c : Char} {cs : List Char} (h : c ≠ 'u') :
    unescape ('\\' :: c :: cs) = escapeImage c ++ unescape cs := by
  rw [unescape.eq_def]
  split
  · next h' => exact absurd (List.cons.inj (List.cons.inj h').2).1 h
  · next h' => exact absurd (List.cons.inj (List.cons.inj h').2).1 h
  · next h' =>
    obtain ⟨rfl, rfl⟩ := List.cons.inj (List.cons.inj h').2
    rfl
  · next h' => cases (List.cons.inj h').2
  · next hno _ h' =>
    obtain ⟨rfl, rfl⟩ := List.cons.inj h'
    exact (hno _ _ rfl rfl).elim
  · next h' => cases h'

end Text

namespace Json

open Text (unescape)

theorem hexDigit?_hexChar : ∀ n, n < 16 → Number.hexDigit? (hexChar n) = some n := by decide

theorem hexChar_ne : ∀ n, n < 16 → hexChar n ≠ '+' ∧ hexChar n ≠ '\\' ∧ hexChar n ≠ '"' := by decide

theorem hexNat?_digits (n : Nat) :
    Number.hexNat? [hexChar (n / 4096 % 16), hexChar (n / 256 % 16), hexChar (n / 16 % 16),
      hexChar (n % 16)] = some (n % 65536) := by
  have hdigit (k : Nat) : Number.hexDigit? (hexChar (k % 16)) = some (k % 16) :=
    hexDigit?_hexChar _ (Nat.mod_lt _ (by decide))
  simp only [Number.hexNat?, List.isEmpty_cons, List.foldlM_cons, List.foldlM_nil, hdigit,
    Option.map_some, Option.bind_eq_bind, Option.bind_some, Option.pure_def]
  simp only [Bool.false_eq_true, if_false, Option.some.injEq]
  omega

theorem codePoint?_unicodeEscape {c : Char} (h : c.toNat < 65536) :
    Text.codePoint? (hexChar (c.toNat / 4096 % 16)) (hexChar (c.toNat / 256 % 16))
      (hexChar (c.toNat / 16 % 16)) (hexChar (c.toNat % 16)) = some c := by
  have hplus := (hexChar_ne (c.toNat / 4096 % 16) (Nat.mod_lt _ (by decide))).1
  have hvalid : c.toNat.isValidChar := c.valid
  rw [Text.codePoint?, if_neg hplus, hexNat?_digits, Nat.mod_eq_of_lt h, Option.bind_some,
    Text.scalar?, if_pos hvalid, Char.ofNat_toNat]

/-- How a character is written in quotes. -/
theorem escapeChar_cases (c : Char) :
    (∃ d, escapeChar c = ['\\', d] ∧ Scan.isEscape d ∧ d ≠ 'u' ∧ Text.escapeImage d = [c] ∧
      escaped? d = some c) ∨
    (escapeChar c = unicodeEscape c.toNat ∧ c.toNat < 65536) ∨
    (escapeChar c = [c] ∧ c ≠ '\\' ∧ c ≠ '"' ∧ 32 ≤ c.toNat) := by
  unfold escapeChar
  split
  · exact .inl ⟨'"', by decide⟩
  · exact .inl ⟨'\\', by decide⟩
  · exact .inl ⟨'n', by decide⟩
  · exact .inl ⟨'r', by decide⟩
  · exact .inl ⟨'t', by decide⟩
  · exact .inl ⟨'b', by decide⟩
  · exact .inl ⟨'f', by decide⟩
  · next hquote hslash _ _ _ _ _ =>
    by_cases hc : Text.isControl c
    · refine .inr (.inl ⟨by rw [if_pos hc], ?_⟩)
      simp only [Text.isControl, Bool.or_eq_true, Bool.and_eq_true, decide_eq_true_eq] at hc
      omega
    · refine .inr (.inr ⟨by rw [if_neg hc], hslash, hquote, Nat.le_of_not_lt fun hlt => hc ?_⟩)
      simp [Text.isControl, hlt]

theorem quotedLength_escapeChar (c : Char) (n : Nat) (cs : List Char) :
    Scan.quotedLength '"' n (escapeChar c ++ cs) =
      Scan.quotedLength '"' (n + (escapeChar c).length) cs := by
  obtain ⟨d, hd, hescape, _⟩ | ⟨hu, _⟩ | ⟨hplain, hslash, hquote, _⟩ := escapeChar_cases c
  · rw [hd]
    exact Scan.quotedLength_escaped hescape
  · have hstep (k n : Nat) (cs : List Char) : Scan.quotedLength '"' n (hexChar (k % 16) :: cs) =
        Scan.quotedLength '"' (n + 1) cs := by
      have hne := hexChar_ne (k % 16) (Nat.mod_lt _ (by decide))
      exact Scan.quotedLength_plain hne.2.1 hne.2.2
    rw [hu, unicodeEscape]
    simp only [List.cons_append, List.nil_append, List.length_cons, List.length_nil]
    rw [Scan.quotedLength_escaped (by decide), hstep, hstep, hstep, hstep]
  · rw [hplain]
    exact Scan.quotedLength_plain hslash hquote

theorem unescape_escapeChar (c : Char) (cs : List Char) :
    unescape (escapeChar c ++ cs) = c :: unescape cs := by
  obtain ⟨d, hd, _, hu, himage, _⟩ | ⟨hu, hlt⟩ | ⟨hplain, hslash, _⟩ := escapeChar_cases c
  · rw [hd]
    simp only [List.cons_append, List.nil_append]
    rw [Text.unescape_escaped hu, himage]
    rfl
  · rw [hu, unicodeEscape]
    simp only [List.cons_append, List.nil_append]
    rw [unescape, codePoint?_unicodeEscape hlt]
  · rw [hplain]
    exact Text.unescape_plain hslash

theorem quotedLength_flatMap (cs rest : List Char) (n : Nat) :
    Scan.quotedLength '"' n (cs.flatMap escapeChar ++ '"' :: rest) =
      .ok (n + (cs.flatMap escapeChar).length) := by
  induction cs generalizing n with
  | nil => exact Scan.quotedLength_close (by decide)
  | cons c cs ih =>
    rw [List.flatMap_cons, List.append_assoc, quotedLength_escapeChar, ih, List.length_append,
      Nat.add_assoc]

theorem unescape_flatMap (cs : List Char) : unescape (cs.flatMap escapeChar) = cs := by
  induction cs with
  | nil => exact Text.unescape_nil
  | cons c cs ih => rw [List.flatMap_cons, unescape_escapeChar, ih]

theorem quoted?_quote (s : String) (rest : List Char) :
    Scan.quoted? (quote s.toList ++ rest) =
      .ok (some ⟨.text s, some (String.ofList (quote s.toList)), (quote s.toList).length⟩) := by
  have hlength := quotedLength_flatMap s.toList rest 1
  have hshape : quote s.toList ++ rest = '"' :: (s.toList.flatMap escapeChar ++ '"' :: rest) := by
    simp [quote]
  rw [hshape, Scan.quoted?, if_pos (.inl rfl), hlength]
  have htake : (s.toList.flatMap escapeChar ++ '"' :: rest).take
      (1 + (s.toList.flatMap escapeChar).length - 1) = s.toList.flatMap escapeChar := by
    rw [Nat.add_sub_cancel_left, List.take_left]
  have hraw : ('"' :: (s.toList.flatMap escapeChar ++ '"' :: rest)).take
      (quote s.toList).length = quote s.toList := by
    rw [← hshape, List.take_left]
  have hlen : 1 + (s.toList.flatMap escapeChar).length + 1 = (quote s.toList).length := by
    simp [quote]
    omega
  simp only [htake, hlen, hraw, unescape_flatMap, String.ofList_toList]

end Json

end TemplateFormula
