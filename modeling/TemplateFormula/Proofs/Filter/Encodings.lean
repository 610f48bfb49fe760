import Mathlib
import TemplateFormula.Filter.Text
import TemplateFormula.Proofs.Text.Percent
import TemplateFormula.Text.Base64

/-!
# Filters that encode and those that decode

Both pairs go through the bytes of the text, and neither loses one. In base64 four digits fill three
bytes without a bit to spare, so a group of them is read and nothing is held when the next one
begins. The last one or two bytes are written with bits to spare, which are dropped at the padding.
The decoding filters can fail on a text in general, so their success is part of what is shown.
-/

namespace TemplateFormula.Text.Base64

variable {v held bits : Nat}

theorem digit_value : ∀ v < 64, digitValue? (digit v) = some v ∧ isSkipped (digit v) = false ∧
    digit v ≠ '=' := by decide

/-- A digit brings six bits, which complete a byte if there are two before them. -/
theorem decodeFrom_digit (held : Nat) (lt : v < 64) (cs : List Char) :
    decodeFrom held bits (digit v :: cs) =
      if bits < 2 then decodeFrom (held * 64 + v) (bits + 6) cs
      else (decodeFrom ((held * 64 + v) % 2 ^ (bits - 2)) (bits - 2) cs).map
        (UInt8.ofNat ((held * 64 + v) / 2 ^ (bits - 2)) :: ·) := by
  obtain ⟨value, inked, other⟩ := digit_value v lt
  rw [decodeFrom, inked, if_neg Bool.false_ne_true, if_neg other, value]
  rfl

theorem decodeFrom_padding (held bits : Nat) (cs : List Char) :
    decodeFrom held bits ('=' :: cs) = some [] := rfl

/-- The first two digits of a group complete a byte and hold four bits of the next one. -/
theorem decodeFrom_first (a : UInt8) (lt : held < 16) (cs : List Char) :
    decodeFrom 0 0 (digit (a.toNat / 4) :: digit (a.toNat % 4 * 16 + held) :: cs) =
      (decodeFrom held 4 cs).map (a :: ·) := by
  have byte := a.toNat_lt
  have whole : (a.toNat / 4 * 64 + (a.toNat % 4 * 16 + held)) / 2 ^ 4 = a.toNat := by omega
  have rest : (a.toNat / 4 * 64 + (a.toNat % 4 * 16 + held)) % 2 ^ 4 = held := by omega
  rw [decodeFrom_digit 0 (by omega), if_pos (by decide), Nat.zero_mul, Nat.zero_add,
    decodeFrom_digit _ (by omega), if_neg (by decide), whole, rest, UInt8.ofNat_toNat]

theorem decodeFrom_second (b : UInt8) (lt : held < 4) (cs : List Char) :
    decodeFrom (b.toNat / 16) 4 (digit (b.toNat % 16 * 4 + held) :: cs) =
      (decodeFrom held 2 cs).map (b :: ·) := by
  have byte := b.toNat_lt
  have whole : (b.toNat / 16 * 64 + (b.toNat % 16 * 4 + held)) / 2 ^ 2 = b.toNat := by omega
  have rest : (b.toNat / 16 * 64 + (b.toNat % 16 * 4 + held)) % 2 ^ 2 = held := by omega
  rw [decodeFrom_digit _ (by omega), if_neg (by decide), whole, rest, UInt8.ofNat_toNat]

/-- The last digit of a group leaves nothing to hold. -/
theorem decodeFrom_third (c : UInt8) (cs : List Char) :
    decodeFrom (c.toNat / 64) 2 (digit (c.toNat % 64) :: cs) =
      (decodeFrom 0 0 cs).map (c :: ·) := by
  have byte := c.toNat_lt
  have whole : (c.toNat / 64 * 64 + c.toNat % 64) / 2 ^ 0 = c.toNat := by omega
  have rest : (c.toNat / 64 * 64 + c.toNat % 64) % 2 ^ 0 = 0 := by omega
  rw [decodeFrom_digit _ (by omega), if_neg (by decide), whole, rest, UInt8.ofNat_toNat]

/-- What is written is read back, byte for byte. -/
theorem decode?_encode (bs : List UInt8) : decode? (encode bs) = some bs := by
  rw [decode?]
  induction bs using encode.induct with
  | case1 => rfl
  | case2 a =>
    have first := decodeFrom_first a (show 0 < 16 by decide) ['=', '=']
    rw [Nat.add_zero] at first
    rw [encode, first, decodeFrom_padding, Option.map_some]
  | case3 a b =>
    have byte := b.toNat_lt
    have second := decodeFrom_second b (show 0 < 4 by decide) ['=']
    rw [Nat.add_zero] at second
    rw [encode, decodeFrom_first a (by omega), second, decodeFrom_padding, Option.map_some,
      Option.map_some]
  | case4 a b c rest ih =>
    have byte := b.toNat_lt
    have byte' := c.toNat_lt
    rw [encode, decodeFrom_first a (by omega), decodeFrom_second b (by omega),
      decodeFrom_third c, ih]
    rfl

end TemplateFormula.Text.Base64

namespace TemplateFormula.Filter

variable (ctx : FilterContext) (args : List Value) (cs : List Char)

theorem urlDecode_encode :
    urlDecode ctx (.ofChars (Text.Percent.encode cs)) args = .done (.ofChars cs) := by
  rw [urlDecode, Filter.ofTotal]
  dsimp only
  rw [Value.chars_ofChars, Text.Percent.decode?_encode, Option.getD_some]

theorem base64Decode_encode :
    base64Decode ctx (.ofChars (Text.Base64.encode (Text.Utf8.encode cs))) args =
      .done (.ofChars cs) := by
  rw [base64Decode, Filter.ofFunction, Value.chars_ofChars, Text.Base64.decode?_encode]
  dsimp only
  rw [Text.Utf8.decodeLossy_encode]

/-- Decoding undoes encoding, and a text encoded for a URL is made of unreserved characters and of
escapes with digits in upper case. Base64 gives back bytes of any kind, not only those of a text. -/
theorem encodings_undone :
    (∀ (ctx : FilterContext) (s : String) (args args' : List Value), ∃ encoded : String,
      urlEncode ctx (.text s) args = .done (.text encoded) ∧
      Text.Percent.Written encoded.toList ∧
      urlDecode ctx (.text encoded) args' = .done (.text s)) ∧
    (∀ bs : List UInt8, Text.Base64.decode? (Text.Base64.encode bs) = some bs) ∧
    (∀ (ctx : FilterContext) (s : String) (args args' : List Value), ∃ encoded : String,
      base64Encode ctx (.text s) args = .done (.text encoded) ∧
      base64Decode ctx (.text encoded) args' = .done (.text s)) := by
  have same (s : String) : Value.ofChars s.toList = .text s :=
    congrArg Value.text String.ofList_toList
  refine ⟨fun ctx s args args' => ⟨String.ofList (Text.Percent.encode s.toList), rfl, ?_, ?_⟩,
    Text.Base64.decode?_encode,
    fun ctx s args args' =>
      ⟨String.ofList (Text.Base64.encode (Text.Utf8.encode s.toList)), rfl, ?_⟩⟩
  · rw [String.toList_ofList]
    exact Text.Percent.written_encode s.toList
  · exact (urlDecode_encode ctx args' s.toList).trans (congrArg _ (same s))
  · exact (base64Decode_encode ctx args' s.toList).trans (congrArg _ (same s))

example (ctx : FilterContext) :
    urlEncode ctx (.text "a é") [] = .done (.text "a%20%C3%A9") := by
  rfl

section Malformed

open Text.Percent

/-- Every text is decoded to the one text that its escapes lead to, as they are read, and stays as
it is where they are malformed. With two digits in every escape the outcome is the same, but for the
texts that can be decoded only by taking a plus sign for a digit. -/
theorem urlDecode_decodes (ctx : FilterContext) (t : String) (args : List Value) :
    ∃ s : String, urlDecode ctx (.text t) args = .done (.text s) ∧
      (∀ u, DecodesTo ReadPair t.toList u ↔ u = s.toList) ∧
      ((∀ u, DecodesTo HexPair t.toList u ↔ u = s.toList) ↔ ¬ NeedsSign t.toList) := by
  have given (u : List Char) : DecodesTo ReadPair t.toList u ↔
      u = (String.ofList ((decode? t.toList).getD t.toList)).toList := by
    rw [String.toList_ofList]
    exact decodesTo_iff
  exact ⟨_, rfl, given, decodesTo_digits_iff given⟩

/-- A plus sign and a digit are no two digits, and yet they are decoded. -/
theorem urlDecode_takes_sign :
    (∀ ctx args, urlDecode ctx (.text "%+5") args = .done (.text "\x05")) ∧
    DecodesTo HexPair "%+5".toList "%+5".toList ∧
    ¬ DecodesTo HexPair "%+5".toList "\x05".toList := by
  have none (bs : List UInt8) : ¬ Unescaped HexPair "%+5".toList bs := by
    intro h
    cases h with
    | plain other _ => exact other rfl
    | escape pair _ => exact Number.not_areHexDigits_plus pair.1
  refine ⟨fun ctx args => rfl, .inr ⟨rfl, fun u => none _⟩, ?_⟩
  rintro (read | ⟨same, _⟩)
  · exact none _ read
  · exact absurd same (by decide)

end Malformed

end TemplateFormula.Filter
