import TemplateFormula.Proofs.Number.Decimals
import TemplateFormula.Proofs.Number.Hexadecimal
import TemplateFormula.Value.Comparison

/-!
# Texts that stand for numbers

A text without the blanks around it is a number if it is empty, the name of infinity or a decimal
with a sign or none, or `0x` and a hexadecimal number. Of these, the ones with a sign are read, and
the ones that need more than 63 bits are not. Any other text is NaN, which is equal to no number.
-/

namespace TemplateFormula

namespace Number

variable {t cs ds : List Char}

/-- The numbers that are read behind `0x`: hexadecimal digits with a sign or none, in the range of
64 bits. -/
def ReadHex (ds : List Char) : Prop :=
  ∃ sign body, IsSign sign ∧ ds = sign ++ body ∧ AreHexDigits body ∧
    (hexValue body < 2 ^ 63 ∨ sign = ['-'] ∧ hexValue body = 2 ^ 63)

/-- The texts that stand for numbers, given what may stand behind `0x`. -/
def Numeric (hexadecimal : List Char → Prop) (t : List Char) : Prop :=
  t = [] ∨ (∃ sign, IsSign sign ∧ t = sign ++ infinityName) ∨
    (∃ x ds, (x = 'x' ∨ x = 'X') ∧ t = '0' :: x :: ds ∧ hexadecimal ds) ∨
    ∃ sign body, IsSign sign ∧ t = sign ++ body ∧ IsDecimal body

/-- A hexadecimal number that is too long, or behind whose `0x` a sign is read. -/
def Misread (t : List Char) : Prop :=
  ∃ x ds, (x = 'x' ∨ x = 'X') ∧ t = '0' :: x :: ds ∧
    (AreHexDigits ds ∧ 2 ^ 63 ≤ hexValue ds ∨
      ReadHex ds ∧ (ds.head? = some '+' ∨ ds.head? = some '-'))

theorem AreHexDigits.unsigned (h : AreHexDigits cs) : ∀ c ∈ cs.head?, c ≠ '+' ∧ c ≠ '-' := by
  intro c first
  have digit := h.2 c (List.mem_of_mem_head? first)
  constructor
  · rintro rfl
    exact absurd digit (by decide)
  · rintro rfl
    exact absurd digit (by decide)

/-- What is read behind `0x`. -/
theorem isSome_hexInt64? : (hexInt64? ds).isSome = true ↔ ReadHex ds := by
  have low : minInt64 = -2 ^ 63 := rfl
  have high : maxInt64 = 2 ^ 63 - 1 := rfl
  have fits (negative : Bool) (n : Nat) :
      (int64? (if negative then -(n : Int) else n)).isSome = true ↔
        n < 2 ^ 63 ∨ negative = true ∧ n = 2 ^ 63 := by
    rw [int64?, low, high]
    cases negative <;> split_ifs <;> simp at * <;> omega
  have read : (hexInt64? ds).isSome = true ↔
      ∃ n, hexNat? (takeSign ds).2 = some n ∧
        (n < 2 ^ 63 ∨ (takeSign ds).1 = true ∧ n = 2 ^ 63) := by
    simp only [hexInt64?, ← fits]
    cases hexNat? (takeSign ds).2 <;> simp
  rw [read]
  constructor
  · rintro ⟨n, digits, range⟩
    obtain ⟨sign, isSign, split, negative⟩ := takeSign_parts ds
    obtain ⟨areDigits, rfl⟩ := hexNat?_eq_some_iff.1 digits
    rw [negative, decide_eq_true_iff] at range
    exact ⟨sign, _, isSign, split, areDigits, range⟩
  · rintro ⟨sign, body, isSign, rfl, digits, range⟩
    rw [takeSign_append isSign digits.unsigned, decide_eq_true_iff]
    exact ⟨_, hexNat?_eq_some_iff.2 ⟨digits, rfl⟩, range⟩

theorem IsDecimal.head (h : IsDecimal cs) :
    ∃ c r, cs = c :: r ∧ (c.isDigit = true ∨ c = '.') := by
  obtain ⟨whole, point, fraction, power, rfl, hw, _, dotted, some_, _⟩ := h
  cases whole with
  | cons c whole => exact ⟨c, _, rfl, .inl (hw c List.mem_cons_self)⟩
  | nil =>
    rcases dotted with rfl | ⟨rfl, rfl⟩
    · exact ⟨'.', _, rfl, .inr rfl⟩
    · exact absurd rfl (some_.resolve_left fun h => h rfl)

theorem IsDecimal.unsigned (h : IsDecimal cs) : ∀ c ∈ cs.head?, c ≠ '+' ∧ c ≠ '-' := by
  obtain ⟨c, r, rfl, start⟩ := h.head
  rintro _ ⟨⟩
  constructor
  · rintro rfl
    exact absurd start (by decide)
  · rintro rfl
    exact absurd start (by decide)

theorem isNumeralChar_of_isDigit {c : Char} (digit : c.isDigit = true) :
    isNumeralChar c = true := by
  rw [isNumeralChar, digit]
  rfl

theorem IsSign.numeralChars (h : IsSign cs) : ∀ c ∈ cs, isNumeralChar c = true := by
  rcases h with rfl | rfl | rfl
  · nofun
  · exact List.forall_mem_singleton.2 rfl
  · exact List.forall_mem_singleton.2 rfl

theorem IsDecimal.numeralChars (h : IsDecimal cs) : ∀ c ∈ cs, isNumeralChar c = true := by
  obtain ⟨whole, point, fraction, power, rfl, hw, hf, dotted, _, hp⟩ := h
  have dot : ∀ c ∈ point, isNumeralChar c = true := by
    rcases dotted with rfl | ⟨rfl, _⟩
    · exact List.forall_mem_singleton.2 rfl
    · nofun
  have exponent : ∀ c ∈ power, isNumeralChar c = true := by
    rcases hp with rfl | ⟨mark, sign, ds, rfl, hm, hs, hd⟩
    · nofun
    · have marks : isNumeralChar mark = true := by rcases hm with rfl | rfl <;> rfl
      simp only [List.cons_append, List.forall_mem_cons, List.forall_mem_append]
      exact ⟨marks, IsSign.numeralChars hs,
        fun c member => isNumeralChar_of_isDigit (hd.2 c member)⟩
  simp only [List.forall_mem_append]
  exact ⟨⟨⟨fun c member => isNumeralChar_of_isDigit (hw c member), dot⟩,
    fun c member => isNumeralChar_of_isDigit (hf c member)⟩, exponent⟩

/-- The words that are read beside decimals have letters that stand in no numeral. -/
theorem asciiLower_ne {w : List Char} (chars : ∀ c ∈ cs, isNumeralChar c = true)
    (word : 'n' ∈ w) : asciiLower cs ≠ w := by
  rintro rfl
  obtain ⟨c, member, lower⟩ := List.mem_map.1 word
  have ascii : c.toNat < 128 := by
    have numeral := chars c member
    simp only [isNumeralChar, Bool.or_eq_true, beq_iff_eq] at numeral
    rcases numeral with ((((digit | rfl) | rfl) | rfl) | rfl) | rfl
    · exact Nat.lt_of_le_of_lt (Char.isDigit_iff_toNat.1 digit).2 (by decide)
    all_goals decide
  have none : ∀ n < 128, isNumeralChar (Char.ofNat n) = true → (Char.ofNat n).toLower ≠ 'n' := by
    decide +kernel
  have apart := none c.toNat ascii
  rw [Char.ofNat_toNat] at apart
  exact apart (chars c member) lower

/-- A text of numeral characters is none of the words that are read beside decimals. -/
theorem parse?_of_chars (chars : ∀ c ∈ t, isNumeralChar c = true)
    (unused : ∀ d, takeDecimal? (takeSign t).2 ≠ some (d, [])) : parse? t = none := by
  obtain ⟨sign, _, split, _⟩ := takeSign_parts t
  have behind : ∀ c ∈ (takeSign t).2, isNumeralChar c = true := fun c member =>
    chars c (split ▸ List.mem_append_right sign member)
  have inf := asciiLower_ne behind (show 'n' ∈ ['i', 'n', 'f'] by decide)
  have infinity := asciiLower_ne behind
    (show 'n' ∈ ['i', 'n', 'f', 'i', 'n', 'i', 't', 'y'] by decide)
  have nan := asciiLower_ne behind (show 'n' ∈ ['n', 'a', 'n'] by decide)
  rcases taken : takeDecimal? (takeSign t).2 with _ | ⟨d, _ | ⟨c, rest⟩⟩
  · simp only [parse?, taken, inf, infinity, nan, or_self, if_false]
  · exact absurd taken (unused d)
  · simp only [parse?, taken, inf, infinity, nan, or_self, if_false]

theorem parse?_of_decimal {d : Decimal} (used : takeDecimal? (takeSign t).2 = some (d, [])) :
    parse? t = some (signed (takeSign t).1 d.toFloat) := by
  simp only [parse?, used]

/-- Among texts of numeral characters the decimals with a sign or none are numbers. -/
theorem isNaN_parse? (chars : ∀ c ∈ t, isNumeralChar c = true) :
    ((parse? t).getD nan).isNaN = false ↔
      ∃ sign body, IsSign sign ∧ t = sign ++ body ∧ IsDecimal body := by
  obtain ⟨sign, isSign, split, _⟩ := takeSign_parts t
  have only : (∃ sign body, IsSign sign ∧ t = sign ++ body ∧ IsDecimal body) ↔
      IsDecimal (takeSign t).2 := by
    refine ⟨?_, fun decimal => ⟨sign, _, isSign, split, decimal⟩⟩
    rintro ⟨sign, body, isSign, rfl, decimal⟩
    rwa [takeSign_append isSign decimal.unsigned]
  rw [only, ← takeDecimal?_iff]
  by_cases decimal : ∃ d, takeDecimal? (takeSign t).2 = some (d, [])
  · obtain ⟨d, used⟩ := decimal
    rw [parse?_of_decimal used, Option.getD_some]
    exact iff_of_true (isNaN_signed _ (isNaN_toFloat d)) ⟨d, used⟩
  · rw [parse?_of_chars chars (not_exists.1 decimal), Option.getD_none, isNaN_nan]
    exact iff_of_false Bool.noConfusion decimal

/-- Where `0x` is not in front, what may stand behind it plays no part. -/
theorem numeric_iff (hexadecimal : List Char → Prop)
    (other : ∀ x ds, x = 'x' ∨ x = 'X' → t ≠ '0' :: x :: ds) :
    Numeric hexadecimal t ↔ t = [] ∨ (∃ sign, IsSign sign ∧ t = sign ++ infinityName) ∨
      ∃ sign body, IsSign sign ∧ t = sign ++ body ∧ IsDecimal body := by
  have none : ¬ ∃ x ds, (x = 'x' ∨ x = 'X') ∧ t = '0' :: x :: ds ∧ hexadecimal ds :=
    fun ⟨x, ds, mark, split, _⟩ => other x ds mark split
  rw [Numeric, or_iff_right none]

/-- Where `0x` is in front, a hexadecimal number stands behind it or none at all. -/
theorem numeric_hex (hexadecimal : List Char → Prop) {x : Char} (mark : x = 'x' ∨ x = 'X') :
    Numeric hexadecimal ('0' :: x :: ds) ↔ hexadecimal ds := by
  constructor
  · rintro (empty | ⟨sign, isSign, split⟩ | ⟨_, _, _, split, number⟩ |
      ⟨sign, body, isSign, split, h⟩)
    · cases empty
    · rcases isSign with rfl | rfl | rfl <;> cases split
    · obtain ⟨_, rest⟩ := List.cons.inj split
      rwa [(List.cons.inj rest).2]
    · have chars : ∀ c ∈ '0' :: x :: ds, isNumeralChar c = true := by
        rw [split]
        exact List.forall_mem_append.2 ⟨isSign.numeralChars, h.numeralChars⟩
      have numeral := chars x (by simp)
      rcases mark with rfl | rfl <;> cases numeral
  · exact fun number => .inr (.inr (.inl ⟨x, ds, mark, rfl, number⟩))

/-- The texts that stand for numbers, as they are read. -/
theorem isNaN_ofText (cs : List Char) :
    (ofText cs).isNaN = false ↔ Numeric ReadHex (Text.trim cs) := by
  have hex (r : List Char) :
      (((hexInt64? r).map Float.ofInt).getD nan).isNaN = false ↔ ReadHex r := by
    rw [← isSome_hexInt64?]
    cases hexInt64? r with
    | none => exact iff_of_false (by decide) Bool.noConfusion
    | some n => exact iff_of_true (isNaN_ofInt n) rfl
  rw [ofText]
  generalize Text.trim cs = t
  split
  · exact iff_of_true rfl (.inl rfl)
  · next r => exact (hex r).trans (numeric_hex ReadHex (.inl rfl)).symm
  · next r => exact (hex r).trans (numeric_hex ReadHex (.inr rfl)).symm
  · next some_ small large =>
    rw [numeric_iff, or_iff_right some_]
    · split_ifs with plain minus chars
      · refine iff_of_true isNaN_infinity (.inl ?_)
        exact plain.elim (⟨[], .inl rfl, ·⟩) (⟨['+'], .inr (.inl rfl), ·⟩)
      · exact iff_of_true (isNaN_neg isNaN_infinity) (.inl ⟨['-'], .inr (.inr rfl), minus⟩)
      all_goals
        rw [not_or] at plain
        have named : ¬ ∃ sign, IsSign sign ∧ t = sign ++ infinityName := by
          rintro ⟨sign, rfl | rfl | rfl, split⟩
          · exact plain.1 split
          · exact plain.2 split
          · exact minus split
        rw [or_iff_right named]
      · exact isNaN_parse? (List.all_eq_true.1 chars)
      · refine iff_of_false (by decide) ?_
        rintro ⟨sign, body, isSign, rfl, decimal⟩
        exact chars (List.all_eq_true.2
          (List.forall_mem_append.2 ⟨isSign.numeralChars, decimal.numeralChars⟩))
    · rintro x ds (rfl | rfl) split
      · exact small ds split
      · exact large ds split

theorem AreHexDigits.readHex_iff (digits : AreHexDigits ds) :
    ReadHex ds ↔ hexValue ds < 2 ^ 63 := by
  constructor
  · rintro ⟨sign, body, rfl | rfl | rfl, rfl, _, range⟩
    · exact range.resolve_right fun h => absurd h.1 (by decide)
    · exact absurd rfl (digits.unsigned '+' rfl).1
    · exact absurd rfl (digits.unsigned '-' rfl).2
  · exact fun short => ⟨[], ds, .inl rfl, rfl, digits, .inl short⟩

theorem ReadHex.digits_or (h : ReadHex ds) :
    AreHexDigits ds ∨ ds.head? = some '+' ∨ ds.head? = some '-' := by
  obtain ⟨sign, body, rfl | rfl | rfl, rfl, digits, _⟩ := h
  · exact .inl digits
  · exact .inr (.inl rfl)
  · exact .inr (.inr rfl)

/-- Digits behind `0x` are a number unless they are too many, and a sign before them is read. -/
theorem numeric_digits_iff :
    (Numeric ReadHex t ↔ Numeric AreHexDigits t) ↔ ¬ Misread t := by
  by_cases hex : ∃ x ds, (x = 'x' ∨ x = 'X') ∧ t = '0' :: x :: ds
  · obtain ⟨x, ds, mark, rfl⟩ := hex
    rw [numeric_hex ReadHex mark, numeric_hex AreHexDigits mark]
    have misread : Misread ('0' :: x :: ds) ↔ AreHexDigits ds ∧ 2 ^ 63 ≤ hexValue ds ∨
        ReadHex ds ∧ (ds.head? = some '+' ∨ ds.head? = some '-') := by
      constructor
      · rintro ⟨_, _, _, split, h⟩
        obtain ⟨_, rest⟩ := List.cons.inj split
        rwa [(List.cons.inj rest).2]
      · exact fun h => ⟨x, ds, mark, rfl, h⟩
    have unsigned (digits : AreHexDigits ds) : ¬ (ds.head? = some '+' ∨ ds.head? = some '-') :=
      fun signed => signed.elim (fun h => (digits.unsigned '+' h).1 rfl)
        fun h => (digits.unsigned '-' h).2 rfl
    rw [misread]
    constructor
    · rintro same (⟨digits, long⟩ | ⟨read, signed⟩)
      · exact absurd (digits.readHex_iff.1 (same.2 digits)) (Nat.not_lt.2 long)
      · exact unsigned (same.1 read) signed
    · intro proper
      rw [not_or] at proper
      refine ⟨fun read => read.digits_or.resolve_right fun signed => proper.2 ⟨read, signed⟩,
        fun digits => digits.readHex_iff.2 ?_⟩
      exact Nat.not_le.1 fun long => proper.1 ⟨digits, long⟩
  · have other (x : Char) (ds : List Char) (mark : x = 'x' ∨ x = 'X') : t ≠ '0' :: x :: ds :=
      fun split => hex ⟨x, ds, mark, split⟩
    rw [numeric_iff ReadHex other, numeric_iff AreHexDigits other]
    exact iff_of_true Iff.rfl fun ⟨x, ds, mark, split, _⟩ => other x ds mark split

end Number

namespace Value

open Number (Numeric ReadHex AreHexDigits Misread ofText)

/-- Some number is equal to a number, and none to a NaN. -/
theorem exists_beq_iff {y : Float} : (∃ x : Float, (x == y) = true) ↔ y.isNaN = false := by
  constructor
  · rintro ⟨x, same⟩
    by_contra nan
    have incomparable := Number.incomparable_of_isNaN (x := x) (.inr (eq_true_of_ne_false nan))
    change x.toModel.unpack.beq y.toModel.unpack = true at same
    rw [Float.Model.UnpackedFloat.beq, incomparable] at same
    cases same
  · intro number
    refine ⟨y, Float.beq_self_iff.2 ?_⟩
    rintro rfl
    cases number

/-- A text is a number, and loosely equal to some number from either side, if and only if it is
empty, the name of infinity or a decimal with a sign or none, or `0x` with a hexadecimal number as
it is read, all without the blanks around it. It is the same to ask for hexadecimal digits behind
`0x`, but where these are too many or a sign is read before them. -/
theorem text_isNumber_iff (s : String) :
    ((ofText s.toList).isNaN = false ↔ Numeric ReadHex (Text.trim s.toList)) ∧
    (∀ zone, (∃ x, (number x).looseEq zone (text s) = true) ↔
      Numeric ReadHex (Text.trim s.toList)) ∧
    (∀ zone, (∃ x, (text s).looseEq zone (number x) = true) ↔
      Numeric ReadHex (Text.trim s.toList)) ∧
    (((ofText s.toList).isNaN = false ↔ Numeric AreHexDigits (Text.trim s.toList)) ↔
      ¬ Misread (Text.trim s.toList)) := by
  have number_iff := Number.isNaN_ofText s.toList
  have equal := exists_beq_iff.trans number_iff
  refine ⟨number_iff, fun zone => equal, fun zone => equal, ?_⟩
  rw [number_iff]
  exact Number.numeric_digits_iff

/-- A sign behind `0x` is read, and digits for all of 64 bits are not. -/
theorem hex_text_misread :
    (∀ zone, (text "0x-5").looseEq zone (number (-5)) = true) ∧
    ¬ Numeric AreHexDigits (Text.trim "0x-5".toList) ∧
    (ofText "0xFFFFFFFFFFFFFFFF".toList).isNaN = true ∧
    Numeric AreHexDigits (Text.trim "0xFFFFFFFFFFFFFFFF".toList) := by
  have minus_five : ((-5 : Float) == ofText "0x-5".toList) = true := by decide +kernel
  refine ⟨fun zone => minus_five, ?_, by decide +kernel, ?_⟩
  · have trimmed : Text.trim "0x-5".toList = '0' :: 'x' :: ['-', '5'] := by decide
    rw [trimmed, Number.numeric_hex AreHexDigits (.inl rfl)]
    exact fun digits => (digits.unsigned '-' rfl).2 rfl
  · have trimmed : Text.trim "0xFFFFFFFFFFFFFFFF".toList = '0' :: 'x' :: List.replicate 16 'F' := by
      decide
    rw [trimmed, Number.numeric_hex AreHexDigits (.inl rfl)]
    refine ⟨by simp, fun c member => ?_⟩
    rw [List.eq_of_mem_replicate member]
    decide

end Value

end TemplateFormula
