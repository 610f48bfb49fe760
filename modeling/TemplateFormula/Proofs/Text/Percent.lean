import TemplateFormula.Proofs.Number.Hexadecimal
import TemplateFormula.Proofs.Text.Utf8
import TemplateFormula.Text.Percent

/-!
# Percent encoding and its undoing

Every byte is written in ASCII, as an unreserved character or as an escape, and each of these is
read as that byte. The bytes of a text are then read back, and with them the text.

Any other text is decoded if every percent sign in it, scanned from the left, stands before two
characters that spell a byte and the bytes are those of a text. Two digits spell a byte, and so do a
plus sign and one digit.
-/

namespace TemplateFormula.Text

namespace Utf8

theorem encode_append (cs ds : List Char) : encode (cs ++ ds) = encode cs ++ encode ds :=
  List.flatMap_append

theorem encodeChar_ascii {c : Char} (lt : c.toNat < 128) :
    encodeChar c = [UInt8.ofNat c.toNat] := by
  rw [encodeChar_eq, if_pos (by omega)]

variable {c : Char} {b : UInt8} {cs : List Char} {bs : List UInt8}

theorem percent_not_mem_encodeChar (other : c ≠ '%') : Percent.percentByte ∉ encodeChar c := by
  have code : c.toNat ≠ 37 := fun same => other (Char.toNat_inj.1 same)
  have apart {n : Nat} (lt : n < 256) (far : n ≠ 37) : Percent.percentByte ≠ UInt8.ofNat n := by
    intro same
    have value := congrArg UInt8.toNat same
    rw [toNat_ofNat_of_lt lt] at value
    exact far value.symm
  rw [encodeChar_eq]
  split_ifs
  all_goals
    simp only [List.mem_cons, List.not_mem_nil, or_false, not_or]
  · exact apart (by omega) code
  · exact ⟨apart (by omega) (by omega), apart (by omega) (by omega)⟩
  · exact ⟨apart (by omega) (by omega), apart (by omega) (by omega), apart (by omega) (by omega)⟩
  · exact ⟨apart (by omega) (by omega), apart (by omega) (by omega), apart (by omega) (by omega),
      apart (by omega) (by omega)⟩

/-- A byte of the ASCII range in front is a character by itself. -/
theorem encode_eq_cons (ascii : b.toNat < 128) (h : encode cs = b :: bs) :
    ∃ ds, cs = Char.ofNat b.toNat :: ds ∧ encode ds = bs := by
  cases cs with
  | nil => cases h
  | cons c cs =>
    rw [encode_cons, encodeChar_eq] at h
    split_ifs at h
    · obtain ⟨first, others⟩ := List.cons.inj h
      refine ⟨cs, ?_, others⟩
      rw [← first, toNat_ofNat_of_lt (by omega), Char.ofNat_toNat]
    all_goals
      have value := congrArg UInt8.toNat (List.cons.inj h).1
      rw [toNat_ofNat_of_lt (by omega)] at value
      omega

end Utf8

namespace Percent

variable {b : UInt8} {cs : List Char}

/-- Unreserved characters, and percent signs with two hexadecimal digits in upper case. -/
inductive Written : List Char → Prop
  | nil : Written []
  | plain {c : Char} {cs : List Char} : isUnreserved c = true → Written cs → Written (c :: cs)
  | escape {x y : Char} {cs : List Char} : x ∈ "0123456789ABCDEF".toList →
    y ∈ "0123456789ABCDEF".toList → Written cs → Written ('%' :: x :: y :: cs)

/-- Among the characters of one byte, those that are unreserved are ASCII and no percent sign. -/
theorem unreserved_ascii : ∀ n < 256, isUnreserved (Char.ofNat n) = true →
    (Char.ofNat n).toNat = n ∧ n < 128 ∧ n ≠ 37 := by
  decide +kernel

theorem hexChar_digit : ∀ n < 16, hexChar n ∈ "0123456789ABCDEF".toList ∧ hexChar n ≠ '+' ∧
    Number.hexDigit? (hexChar n) = some n ∧ (hexChar n).toNat < 128 ∧
    Char.ofNat (UInt8.ofNat (hexChar n).toNat).toNat = hexChar n := by
  decide

theorem Written.encodeByte (b : UInt8) (h : Written cs) : Written (encodeByte b ++ cs) := by
  have lt := b.toNat_lt
  rw [Percent.encodeByte]
  split
  · next plain => exact .plain plain h
  · exact .escape (hexChar_digit _ (by omega)).1 (hexChar_digit _ (by omega)).1 h

theorem written_encode (cs : List Char) : Written (encode cs) := by
  rw [encode]
  induction Utf8.encode cs with
  | nil => exact .nil
  | cons b bs ih => exact ih.encodeByte b

theorem unescapeBytes?_plain (other : b ≠ percentByte) (bs : List UInt8) :
    unescapeBytes? (b :: bs) = (unescapeBytes? bs).map (b :: ·) := by
  conv_lhs => unfold unescapeBytes?
  exact if_neg other

theorem unescapeBytes?_escape (x y : UInt8) (bs : List UInt8) :
    unescapeBytes? (percentByte :: x :: y :: bs) =
      (byte? x y).bind fun v => (unescapeBytes? bs).map (v :: ·) := by
  rw [unescapeBytes?, if_pos rfl]

/-- Two digits are read as the byte that they were written for. -/
theorem byte?_hexChar (b : UInt8) :
    byte? (UInt8.ofNat (hexChar (b.toNat / 16)).toNat)
      (UInt8.ofNat (hexChar (b.toNat % 16)).toNat) = some b := by
  have lt := b.toNat_lt
  obtain ⟨-, unsigned, high, -, same⟩ := hexChar_digit (b.toNat / 16) (by omega)
  obtain ⟨-, -, low, -, same'⟩ := hexChar_digit (b.toNat % 16) (by omega)
  have value : 16 * (b.toNat / 16) + b.toNat % 16 = b.toNat := Nat.div_add_mod _ _
  simp only [byte?, same, same', if_neg unsigned, Number.hexNat?, List.isEmpty_cons,
    List.foldlM_cons, List.foldlM_nil, high, low, Option.map_some, Option.bind_eq_bind,
    Option.bind_some, Option.pure_def, Nat.mul_zero, Nat.zero_add, value]
  exact congrArg some (UInt8.ofNat_toNat)

/-- A written byte is read as that byte, whatever follows it. -/
theorem unescapeBytes?_encodeByte (b : UInt8) (bs : List UInt8) :
    unescapeBytes? (Utf8.encode (encodeByte b) ++ bs) = (unescapeBytes? bs).map (b :: ·) := by
  have lt := b.toNat_lt
  rw [encodeByte]
  split
  · next plain =>
    obtain ⟨same, ascii, other⟩ := unreserved_ascii b.toNat lt plain
    have byte : Utf8.encode [Char.ofNat b.toNat] = [b] := by
      rw [Utf8.encode_cons, Utf8.encodeChar_ascii (by omega), same, UInt8.ofNat_toNat]
      rfl
    have unmarked : b ≠ percentByte := by
      rintro rfl
      exact other rfl
    rw [byte, List.singleton_append, unescapeBytes?_plain unmarked]
  · have high := (hexChar_digit (b.toNat / 16) (by omega)).2.2.2.1
    have low := (hexChar_digit (b.toNat % 16) (by omega)).2.2.2.1
    rw [Utf8.encode_cons, Utf8.encode_cons, Utf8.encode_cons, Utf8.encode_nil,
      Utf8.encodeChar_ascii high, Utf8.encodeChar_ascii low]
    refine (unescapeBytes?_escape _ _ _).trans ?_
    rw [byte?_hexChar, Option.bind_some]
    rfl

theorem unescapeBytes?_written (bs : List UInt8) :
    unescapeBytes? (Utf8.encode (bs.flatMap encodeByte)) = some bs := by
  induction bs with
  | nil => rfl
  | cons b bs ih =>
    rw [List.flatMap_cons, Utf8.encode_append, unescapeBytes?_encodeByte, ih, Option.map_some]

/-- A text is read back from its escaped form. -/
theorem decode?_encode (cs : List Char) : decode? (encode cs) = some cs := by
  rw [decode?, encode, unescapeBytes?_written, Option.bind_some, Utf8.decode?_encode]

section Escapes

open Number (AreHexDigits IsHexDigit hexValue)

variable {t s : List Char} {bs : List UInt8} {x y : Char} {v : UInt8}

/-- Two hexadecimal digits spell a byte. -/
def HexPair (x y : Char) (v : UInt8) : Prop :=
  AreHexDigits [x, y] ∧ v.toNat = hexValue [x, y]

/-- The pairs that are read: two digits, and a plus sign with one digit. -/
def ReadPair (x y : Char) (v : UInt8) : Prop :=
  HexPair x y v ∨ x = '+' ∧ AreHexDigits [y] ∧ v.toNat = hexValue [y]

/-- A text that is read from the left, and its bytes: a percent sign stands before two characters
that spell a byte, and any other character for its own bytes. -/
inductive Unescaped (spells : Char → Char → UInt8 → Prop) : List Char → List UInt8 → Prop
  | nil : Unescaped spells [] []
  | plain {c : Char} {cs : List Char} {bs : List UInt8} : c ≠ '%' → Unescaped spells cs bs →
    Unescaped spells (c :: cs) (Utf8.encodeChar c ++ bs)
  | escape {x y : Char} {v : UInt8} {cs : List Char} {bs : List UInt8} : spells x y v →
    Unescaped spells cs bs → Unescaped spells ('%' :: x :: y :: cs) (v :: bs)

/-- What decoding makes of a text: the text whose bytes are there once all escapes are undone, or
the text as it stands where there is none. -/
def DecodesTo (spells : Char → Char → UInt8 → Prop) (t s : List Char) : Prop :=
  Unescaped spells t (Utf8.encode s) ∨ s = t ∧ ∀ u, ¬ Unescaped spells t (Utf8.encode u)

/-- The text can be decoded, but not without the sign in some escape. -/
def NeedsSign (t : List Char) : Prop :=
  (∃ u, Unescaped ReadPair t (Utf8.encode u)) ∧ ∀ bs, ¬ Unescaped HexPair t bs

theorem ReadPair.ascii (h : ReadPair x y v) : x.toNat < 128 ∧ y.toNat < 128 := by
  obtain ⟨⟨_, digits⟩, _⟩ | ⟨rfl, ⟨_, digits⟩, _⟩ := h
  · exact ⟨(digits x (by simp)).ascii, (digits y (by simp)).ascii⟩
  · exact ⟨by decide, (digits y (by simp)).ascii⟩

theorem hexNat?_byte {ds : List Char} (small : hexValue ds < 256) :
    (Number.hexNat? ds).map Nat.toUInt8 = some v ↔ AreHexDigits ds ∧ v.toNat = hexValue ds := by
  rw [Option.map_eq_some_iff]
  constructor
  · rintro ⟨n, read, rfl⟩
    obtain ⟨digits, rfl⟩ := Number.hexNat?_eq_some_iff.1 read
    exact ⟨digits, Utf8.toNat_ofNat_of_lt small⟩
  · rintro ⟨digits, value⟩
    refine ⟨_, Number.hexNat?_eq_some_iff.2 ⟨digits, rfl⟩, ?_⟩
    exact Utf8.byte_eq value.symm

theorem byte?_eq_some_iff {a b : UInt8} :
    byte? a b = some v ↔ ReadPair (Char.ofNat a.toNat) (Char.ofNat b.toNat) v := by
  rw [byte?]
  generalize Char.ofNat a.toNat = x
  generalize Char.ofNat b.toNat = y
  have low := Number.digitValue_lt x
  have low' := Number.digitValue_lt y
  have one : hexValue [y] < 256 := by
    rw [Number.hexValue_cons, List.foldl_nil]
    omega
  have two : hexValue [x, y] < 256 := by
    rw [Number.hexValue_cons, List.foldl_cons, List.foldl_nil]
    omega
  split
  · next plus =>
    rw [hexNat?_byte one, ReadPair, or_iff_right, and_iff_right plus]
    rintro ⟨digits, _⟩
    exact Number.not_areHexDigits_plus (plus ▸ digits)
  · next other =>
    rw [hexNat?_byte two, ReadPair, HexPair, or_iff_left fun h => other h.1]

theorem unescapeBytes?_append {plain : List UInt8} (unmarked : percentByte ∉ plain)
    (bs : List UInt8) : unescapeBytes? (plain ++ bs) = (unescapeBytes? bs).map (plain ++ ·) := by
  induction plain with
  | nil => exact Option.map_id'.symm
  | cons b plain ih =>
    rw [List.mem_cons, not_or] at unmarked
    rw [List.cons_append, unescapeBytes?_plain (Ne.symm unmarked.1), ih unmarked.2,
      Option.map_map]
    rfl

/-- An escape is read if two characters behind the percent sign spell a byte. -/
theorem unescapeBytes?_percent (h : unescapeBytes? (Utf8.encode ('%' :: cs)) = some bs) :
    ∃ x y v ds bs', cs = x :: y :: ds ∧ ReadPair x y v ∧
      unescapeBytes? (Utf8.encode ds) = some bs' ∧ bs = v :: bs' := by
  have bytes : Utf8.encode ('%' :: cs) = percentByte :: Utf8.encode cs := rfl
  rw [bytes] at h
  match behind : Utf8.encode cs with
  | [] | [_] =>
    rw [behind] at h
    cases h
  | x :: y :: r =>
    rw [behind, unescapeBytes?_escape] at h
    obtain ⟨v, read, h⟩ := Option.bind_eq_some_iff.1 h
    obtain ⟨bs', others, rfl⟩ := Option.map_eq_some_iff.1 h
    have pair := byte?_eq_some_iff.1 read
    have code (b : UInt8) : (Char.ofNat b.toNat).toNat = b.toNat := by
      have lt := b.toNat_lt
      exact (Char.toNat_ofNat _).trans (if_pos (.inl (by omega)))
    have ascii := pair.ascii
    rw [code, code] at ascii
    obtain ⟨ds, rfl, second⟩ := Utf8.encode_eq_cons ascii.1 behind
    obtain ⟨es, rfl, rfl⟩ := Utf8.encode_eq_cons ascii.2 second
    exact ⟨_, _, v, es, bs', rfl, pair, others, rfl⟩

theorem unescapeBytes?_eq_some_iff :
    unescapeBytes? (Utf8.encode t) = some bs ↔ Unescaped ReadPair t bs := by
  constructor
  · intro h
    induction length : t.length using Nat.strong_induction_on generalizing t bs with
    | _ n ih =>
      cases t with
      | nil =>
        cases h
        exact .nil
      | cons c cs =>
        rw [List.length_cons] at length
        by_cases percent : c = '%'
        · subst percent
          obtain ⟨x, y, v, ds, bs', rfl, pair, others, rfl⟩ := unescapeBytes?_percent h
          rw [List.length_cons, List.length_cons] at length
          exact .escape pair (ih ds.length (by omega) others rfl)
        · rw [Utf8.encode_cons,
            unescapeBytes?_append (Utf8.percent_not_mem_encodeChar percent)] at h
          obtain ⟨bs', others, rfl⟩ := Option.map_eq_some_iff.1 h
          exact .plain percent (ih cs.length (by omega) others rfl)
  · intro h
    induction h with
    | nil => rfl
    | plain other _ ih =>
      rw [Utf8.encode_cons, unescapeBytes?_append (Utf8.percent_not_mem_encodeChar other), ih]
      rfl
    | @escape x y v cs bs pair _ ih =>
      have code {c : Char} (ascii : c.toNat < 128) :
          Char.ofNat (UInt8.ofNat c.toNat).toNat = c := by
        rw [Utf8.toNat_ofNat_of_lt (by omega), Char.ofNat_toNat]
      have read : byte? (UInt8.ofNat x.toNat) (UInt8.ofNat y.toNat) = some v := by
        rw [byte?_eq_some_iff, code pair.ascii.1, code pair.ascii.2]
        exact pair
      rw [Utf8.encode_cons, Utf8.encode_cons, Utf8.encode_cons,
        Utf8.encodeChar_ascii pair.ascii.1, Utf8.encodeChar_ascii pair.ascii.2]
      refine (unescapeBytes?_escape _ _ _).trans ?_
      rw [read, Option.bind_some]
      exact congrArg (Option.map (v :: ·)) ih

theorem decode?_eq_some_iff : decode? t = some s ↔ Unescaped ReadPair t (Utf8.encode s) := by
  rw [decode?, Option.bind_eq_some_iff, ← unescapeBytes?_eq_some_iff]
  constructor
  · rintro ⟨bs, read, text⟩
    rw [read, Utf8.decode?_eq_some_iff.1 text]
  · exact fun read => ⟨_, read, Utf8.decode?_encode s⟩

/-- The text that is decoded, or else the text itself, is the one that escapes as they are read
lead to. -/
theorem decodesTo_iff : DecodesTo ReadPair t s ↔ s = (decode? t).getD t := by
  rw [DecodesTo, ← decode?_eq_some_iff]
  simp only [← decode?_eq_some_iff]
  cases decode? t with
  | none => simp
  | some u => simp [eq_comm]

theorem Unescaped.signed (h : Unescaped HexPair t bs) : Unescaped ReadPair t bs := by
  induction h with
  | nil => exact .nil
  | plain other _ ih => exact .plain other ih
  | escape pair _ ih => exact .escape (.inl pair) ih

theorem Unescaped.length_le {spells : Char → Char → UInt8 → Prop} (h : Unescaped spells t bs) :
    bs.length ≤ (Utf8.encode t).length := by
  induction h with
  | nil => exact le_rfl
  | plain other _ ih =>
    rw [Utf8.encode_cons, List.length_append, List.length_append]
    exact Nat.add_le_add_left ih _
  | escape _ _ ih =>
    simp only [Utf8.encode_cons, List.length_append, List.length_cons]
    have percent : (Utf8.encodeChar '%').length = 1 := rfl
    omega

/-- An escape takes more bytes than the one that it stands for, so a text with as many bytes as are
read from it has none. -/
theorem Unescaped.shorter_or (h : Unescaped ReadPair t bs) :
    bs.length < (Utf8.encode t).length ∨ Unescaped HexPair t bs := by
  induction h with
  | nil => exact .inr .nil
  | plain other _ ih =>
    rw [Utf8.encode_cons, List.length_append, List.length_append]
    exact ih.imp (Nat.add_lt_add_left · _) (.plain other)
  | escape pair h _ =>
    left
    have le := h.length_le
    have percent : (Utf8.encodeChar '%').length = 1 := rfl
    simp only [Utf8.encode_cons, List.length_append, List.length_cons,
      Utf8.encodeChar_ascii pair.ascii.1]
    omega

/-- Escapes with digits alone lead to the same text but where a sign is needed. -/
theorem decodesTo_digits_iff (given : ∀ u, DecodesTo ReadPair t u ↔ u = s) :
    (∀ u, DecodesTo HexPair t u ↔ u = s) ↔ ¬ NeedsSign t := by
  constructor
  · rintro digits ⟨⟨u, signed⟩, none⟩
    have kept : t = s := (digits t).1 (.inr ⟨rfl, fun u => none _⟩)
    obtain rfl : u = s := (given u).1 (.inl signed)
    subst kept
    exact (signed.shorter_or).elim (lt_irrefl _) (none _)
  · intro unsigned u
    have same (u : List Char) :
        Unescaped HexPair t (Utf8.encode u) ↔ Unescaped ReadPair t (Utf8.encode u) := by
      refine ⟨Unescaped.signed, fun read => ?_⟩
      obtain ⟨bs, digits⟩ : ∃ bs, Unescaped HexPair t bs := by
        by_contra none
        exact unsigned ⟨⟨u, read⟩, fun bs h => none ⟨bs, h⟩⟩
      have both := (unescapeBytes?_eq_some_iff.2 read).symm.trans
        (unescapeBytes?_eq_some_iff.2 digits.signed)
      rwa [Option.some.inj both]
    rw [← given, DecodesTo, DecodesTo, same]
    simp only [same]

end Escapes

end Percent

end TemplateFormula.Text
