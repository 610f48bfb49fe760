import TemplateFormula.Proofs.Builtin.Reading
import TemplateFormula.Proofs.Number.Digits

/-!
# The words of whole amounts

The words for a whole amount are made of its decimal digits, as far as there are groups for them:
amounts of at most twelve digits have different words, longer ones lose the digits in front. Words
for fewer than twelve digits begin with a digit that is no zero, unlike words that were cut.
-/

namespace TemplateFormula.Builtin

namespace Money

open Number

variable {m n : Nat} {ds : List Nat} {text : List Char}

theorem lastDigit_ofNat (lt : n < 2 ^ 53) : lastDigit (Float.ofNat n) = n % 10 := by
  rcases Nat.eq_zero_or_pos n with rfl | pos
  · decide +kernel
  · rw [lastDigit, remainder_ten pos lt]
    exact clampInt_digit _ (Nat.mod_lt n (by decide)) _ (by omega)

theorem takeGroup_ofNat (lt : n < 2 ^ 52) (k : Nat) : takeGroup k (Float.ofNat n) =
    ((Nat.digits 10 n).take k, Float.ofNat (n / 10 ^ k)) := by
  induction k generalizing n with
  | zero => rw [takeGroup, List.take_zero, Nat.pow_zero, Nat.div_one]
  | succ k ih =>
    rw [takeGroup]
    split
    · next none =>
      rw [ofNat_le_zero_iff (by omega)] at none
      rw [none, Nat.digits_zero, List.take_nil, Nat.zero_div]
    · next more =>
      rw [ofNat_le_zero_iff (by omega)] at more
      have digits : Nat.digits 10 n = n % 10 :: Nat.digits 10 (n / 10) :=
        Nat.digits_def' (by decide) (Nat.pos_of_ne_zero more)
      rw [floor_div_ten lt, ih (by omega), lastDigit_ofNat (by omega), digits, List.take_succ_cons,
        Nat.div_div_eq_div_mul, Nat.pow_succ']

theorem prependGroups_ofNat (lt : n < 2 ^ 52) (text marks : List Char) :
    prependGroups (Float.ofNat n) text marks = spoken n text marks := by
  induction marks generalizing n text with
  | nil => rfl
  | cons mark marks ih =>
    rw [prependGroups, spoken, takeGroup_ofNat lt]
    simp only [ofNat_le_zero_iff (show n < 2 ^ 53 by omega)]
    rw [ih (by omega)]

/-- An amount with exact hundredths has none of them. -/
theorem words_ofNat (small : 100 * n < 2 ^ 53) : words (Float.ofNat n) =
    orZero (squeezeZeros false (dropZerosAtUnit (spoken n even groups))) := by
  have tenths : lastDigit (floor (Float.ofNat n * 10)) = 0 := by
    rw [ofNat_mul_ten (by omega), floor_ofNat (by omega), lastDigit_ofNat (by omega),
      Nat.mul_mod_right]
  have hundredths : lastDigit (floor (Float.ofNat n * 10 * 10)) = 0 := by
    rw [ofNat_mul_ten (by omega), ofNat_mul_ten (by omega), floor_ofNat (by omega),
      lastDigit_ofNat (by omega), Nat.mul_mod_right]
  rw [words, tenths, hundredths, floor_ofNat (by omega), prependGroups_ofNat (by omega)]
  rfl

/-- Words say the last twelve digits of an amount. -/
theorem amount_words (small : 100 * n < 2 ^ 53) :
    amount (words (Float.ofNat n)) = n % 10 ^ 12 := by
  rw [words_ofNat small, amount_spoken]

theorem mod_mul_congr {a b : Nat} (same : m % (a * b) = n % (a * b)) :
    m % a = n % a ∧ m / a % b = n / a % b := by
  constructor
  · rw [← Nat.mod_mul_right_mod m a b, same, Nat.mod_mul_right_mod]
  · rw [← Nat.mod_mul_right_div_self, same, Nat.mod_mul_right_div_self]

theorem take_digits_congr {k : Nat} (same : m % 10 ^ k = n % 10 ^ k) (hm : ∀ i < k, 10 ^ i ≤ m)
    (hn : ∀ i < k, 10 ^ i ≤ n) : (Nat.digits 10 m).take k = (Nat.digits 10 n).take k := by
  induction k generalizing m n with
  | zero => rw [List.take_zero, List.take_zero]
  | succ k ih =>
    have shifted {x : Nat} (hx : ∀ i < k + 1, 10 ^ i ≤ x) : ∀ i < k, 10 ^ i ≤ x / 10 := fun i lt =>
      (Nat.le_div_iff_mul_le (by decide)).2 (hx (i + 1) (Nat.succ_lt_succ lt))
    rw [Nat.pow_succ'] at same
    obtain ⟨last, before⟩ := mod_mul_congr same
    have split {x : Nat} (pos : 1 ≤ x) : (Nat.digits 10 x).take (k + 1) =
        x % 10 :: (Nat.digits 10 (x / 10)).take k := by
      rw [Nat.digits_def' (by decide) pos, List.take_succ_cons]
    rw [split (hm 0 k.succ_pos), split (hn 0 k.succ_pos), last,
      ih before (shifted hm) (shifted hn)]

/-- Digits before the last group are not spoken. -/
theorem spoken_congr (marks : List Char)
    (same : m % 10 ^ (4 * marks.length) = n % 10 ^ (4 * marks.length))
    (hm : ∀ i < 4 * marks.length, 10 ^ i ≤ m) (hn : ∀ i < 4 * marks.length, 10 ^ i ≤ n) :
    spoken m text marks = spoken n text marks := by
  induction marks generalizing m n text with
  | nil => rfl
  | cons mark marks ih =>
    rw [List.length_cons] at same hm hn
    have shifted {x : Nat} (hx : ∀ i < 4 * (marks.length + 1), 10 ^ i ≤ x) :
        ∀ i < 4 * marks.length, 10 ^ i ≤ x / 10 ^ 4 := fun i lt => by
      rw [Nat.le_div_iff_mul_le (by decide), ← Nat.pow_add]
      exact hx (i + 4) (by omega)
    rw [Nat.mul_succ, Nat.add_comm, Nat.pow_add] at same
    obtain ⟨last, before⟩ := mod_mul_congr same
    have group : (Nat.digits 10 m).take 4 = (Nat.digits 10 n).take 4 :=
      take_digits_congr last (fun i lt => hm i (by omega)) (fun i lt => hn i (by omega))
    have m_pos : 10 ^ 0 ≤ m := hm 0 (by omega)
    have n_pos : 10 ^ 0 ≤ n := hn 0 (by omega)
    rw [spoken, spoken, if_neg (Nat.ne_of_gt m_pos), if_neg (Nat.ne_of_gt n_pos), group]
    exact ih before (shifted hm) (shifted hn)

theorem words_congr (hm : 100 * m < 2 ^ 53) (hn : 100 * n < 2 ^ 53) (m_long : 10 ^ 11 ≤ m)
    (n_long : 10 ^ 11 ≤ n) (same : m % 10 ^ 12 = n % 10 ^ 12) :
    words (Float.ofNat m) = words (Float.ofNat n) := by
  have long {x : Nat} (hx : 10 ^ 11 ≤ x) (i : Nat) (lt : i < 12) : 10 ^ i ≤ x :=
    (Nat.pow_le_pow_right (by decide) (Nat.le_of_lt_succ lt)).trans hx
  rw [words_ofNat hm, words_ofNat hn, spoken_congr groups same (long m_long) (long n_long)]

theorem spokenDigits_head {ps : List (Nat × List Char)} (ne : ps ≠ []) :
    (spokenDigits ps).head? = some (digitChar (ps.getLast ne).1) := by
  conv_lhs => rw [← List.dropLast_append_getLast ne]
  rw [spokenDigits, List.reverse_append]
  rfl

/-- A group begins with its first digit. -/
theorem groupChars_head (ne : ds ≠ []) (short : ds.length ≤ 4) :
    (groupChars ds).head? = some (digitChar (ds.getLast ne)) := by
  have fst : (ds.zip places).map Prod.fst = ds := List.map_fst_zip short
  have ne' : ds.zip places ≠ [] := by
    intro none
    rw [none] at fst
    exact ne fst.symm
  have last : ((ds.zip places).getLast ne').1 = ds.getLast ne :=
    (List.getLast_map (by rwa [fst])).symm.trans (List.getLast_congr _ ne fst)
  rw [groupChars_eq, ← last]
  split
  · next none =>
    have zeros := List.dropWhile_eq_nil_iff.1 none _ (List.getLast_mem ne')
    rw [beq_iff_eq.1 zeros]
    rfl
  · next some =>
    rw [spokenDigits_head some]
    have suffix : kept (ds.zip places) <:+ ds.zip places := List.dropWhile_suffix _
    rw [suffix.getLast]

theorem spoken_zero (text marks : List Char) : spoken 0 text marks = text := by
  cases marks <;> rfl

/-- An amount of no more digits than are spoken begins with one that is not zero. -/
theorem spoken_head (text marks : List Char) (pos : 0 < n) (lt : n < 10 ^ (4 * marks.length)) :
    ∃ d, 0 < d ∧ d < 10 ∧ (spoken n text marks).head? = some (digitChar d) := by
  induction marks generalizing n text with
  | nil => exact absurd (Nat.lt_one_iff.1 lt) (Nat.ne_of_gt pos)
  | cons mark marks ih =>
    rw [spoken, if_neg (Nat.ne_of_gt pos)]
    rcases Nat.eq_zero_or_pos (n / 10 ^ 4) with none | more
    · have few : n < 10 ^ 4 := by omega
      have short : (Nat.digits 10 n).length ≤ 4 :=
        (Nat.digits_length_le_iff (by decide) n).2 few
      have ne : Nat.digits 10 n ≠ [] := Nat.digits_ne_nil_iff_ne_zero.2 (Nat.ne_of_gt pos)
      refine ⟨(Nat.digits 10 n).getLast ne, Nat.pos_of_ne_zero ?_, ?_, ?_⟩
      · exact Nat.getLast_digit_ne_zero 10 (Nat.ne_of_gt pos)
      · exact Nat.digits_lt_base (by decide) (List.getLast_mem ne)
      · rw [none, spoken_zero, List.take_of_length_le short, List.head?_append,
          groupChars_head ne short]
        rfl
    · refine ih _ more ?_
      rw [List.length_cons, Nat.mul_succ, Nat.add_comm, Nat.pow_add] at lt
      exact Nat.div_lt_of_lt_mul lt

/-- A group of four digits begins with the thousands. -/
theorem groupChars_thousands (long : 10 ^ 3 ≤ n) :
    (groupChars ((Nat.digits 10 n).take 4)).head? = some (digitChar (n / 10 ^ 3 % 10)) := by
  have length : 3 < (Nat.digits 10 n).length := (Nat.lt_digits_length_iff (by decide) n).2 long
  have ne : (Nat.digits 10 n).take 4 ≠ [] := by
    rw [Ne, List.take_eq_nil_iff]
    rintro (four | none)
    · cases four
    · rw [none] at length
      cases length
  have last : ((Nat.digits 10 n).take 4).getLast ne = n / 10 ^ 3 % 10 := by
    rw [← Nat.getD_digits n 3 (by decide), List.getLast_take, List.getD_eq_getElem?_getD,
      List.getElem?_eq_getElem length]
    rfl
  rw [groupChars_head ne (List.length_take_le 4 _), last]

/-- An amount with more digits than are spoken, of which the first one spoken is a zero. -/
theorem spoken_head_zero (text : List Char) (long : 10 ^ 12 ≤ n) (small : n % 10 ^ 12 < 10 ^ 11) :
    (spoken n text groups).head? = some zero := by
  have first : n / 10 ^ 4 / 10 ^ 4 / 10 ^ 3 % 10 = 0 := by omega
  rw [groups, spoken, if_neg (by omega), spoken, if_neg (by omega), spoken, if_neg (by omega),
    spoken, List.head?_append, groupChars_thousands (by omega), first]
  rfl

/-- The first word stays, unless it is a zero. -/
theorem head_squeezed {cs : List Char} {c : Char} (head : cs.head? = some c) (ne : c ≠ zero) :
    (squeezeZeros false (dropZerosAtUnit cs)).head? = some c := by
  obtain ⟨rest, rfl⟩ := List.head?_eq_some_iff.1 head
  rw [Reading.dropZerosAtUnit_of_ne ne, Reading.squeezeZeros_of_ne ne]
  rfl

theorem head_squeezed_zero {cs : List Char} (head : cs.head? = some zero) :
    ∃ c ∈ [zero, '元'], (squeezeZeros false (dropZerosAtUnit cs)).head? = some c := by
  obtain ⟨rest, rfl⟩ := List.head?_eq_some_iff.1 head
  rw [dropZerosAtUnit]
  split
  · next rest' _ =>
    rw [Reading.squeezeZeros_of_ne (by decide)]
    exact ⟨'元', by decide, rfl⟩
  · refine ⟨zero, by decide, ?_⟩
    cases dropZerosAtUnit rest <;> rfl

theorem orZero_of_head {cs : List Char} {c : Char} (head : cs.head? = some c) (ne : c ≠ '整') :
    orZero cs = cs := by
  refine if_neg fun none => ?_
  rw [none] at head
  exact ne (Option.some.inj head).symm

/-- Words for a short amount are no words for a longer one. -/
theorem words_ne (hn : 100 * n < 2 ^ 53) (long : 10 ^ 12 ≤ n) (small : n % 10 ^ 12 < 10 ^ 11) :
    words (Float.ofNat (n % 10 ^ 12)) ≠ words (Float.ofNat n) := by
  intro same
  rcases Nat.eq_zero_or_pos (n % 10 ^ 12) with none | pos
  · have round : words (Float.ofNat n) = words (Float.ofNat (10 ^ 12)) :=
      words_congr hn (by decide) (by omega) (by decide) (by rw [none, Nat.mod_self])
    rw [none, round] at same
    exact absurd same (by decide +kernel)
  · obtain ⟨d, d_pos, d_lt, head⟩ := spoken_head even groups pos
      (Nat.mod_lt n (by decide))
    have digit : digitChar d ∉ ['整', zero, '元'] := by
      interval_cases d <;> decide
    rw [List.mem_cons, not_or] at digit
    have head := head_squeezed head (digitChar_ne_zero d_pos d_lt)
    obtain ⟨c, cut, head'⟩ := head_squeezed_zero (spoken_head_zero even long small)
    have mark : c ≠ '整' := by
      rintro rfl
      exact absurd cut (by decide)
    rw [words_ofNat (by omega), words_ofNat hn, orZero_of_head head digit.1,
      orZero_of_head head' mark] at same
    rw [same, head', Option.some_inj] at head
    exact digit.2 (head ▸ cut)

theorem words_eq_iff (hm : 100 * m < 2 ^ 53) (hn : 100 * n < 2 ^ 53) :
    words (Float.ofNat m) = words (Float.ofNat n) ↔
      m = n ∨ 10 ^ 11 ≤ m ∧ 10 ^ 11 ≤ n ∧ m % 10 ^ 12 = n % 10 ^ 12 := by
  constructor
  · intro same
    have last : m % 10 ^ 12 = n % 10 ^ 12 := by
      rw [← amount_words hm, same, amount_words hn]
    -- a short amount has the words of no other one
    have short {m n : Nat} (hn : 100 * n < 2 ^ 53) (last : m % 10 ^ 12 = n % 10 ^ 12)
        (same : words (Float.ofNat m) = words (Float.ofNat n)) (few : m < 10 ^ 11) : m = n := by
      have whole : m % 10 ^ 12 = m := Nat.mod_eq_of_lt (by omega)
      rcases Nat.lt_or_ge n (10 ^ 12) with less | long
      · omega
      · rw [← whole, last] at same
        exact absurd same (words_ne hn long (by omega))
    rcases Nat.lt_or_ge m (10 ^ 11) with few | m_long
    · exact .inl (short hn last same few)
    rcases Nat.lt_or_ge n (10 ^ 11) with few | n_long
    · exact .inl (short hm last.symm same.symm few).symm
    · exact .inr ⟨m_long, n_long, last⟩
  · rintro (rfl | ⟨m_long, n_long, last⟩)
    · rfl
    · exact words_congr hm hn m_long n_long last

end Money

variable {n m : Nat} (clock : Calendar.Clock)

theorem upperMoney_ofNat (lt : n < 2 ^ 53) : upperMoney clock [.number (Float.ofNat n)] =
    .ok (.ofChars (Money.words (Float.ofNat n))) := by
  have argument : Argument.number clock.zone [.number (Float.ofNat n)] 0 = Float.ofNat n := by
    simp [Argument.number, Value.arithmetic, Value.operand, Value.toNumber]
  rw [upperMoney, argument, Number.isFinite_ofNat lt, if_pos rfl,
    if_neg (Number.not_ofNat_lt_zero lt), Number.abs_ofNat lt]
  rfl

theorem ofChars_inj {a b : List Char} : Value.ofChars a = Value.ofChars b ↔ a = b :=
  ⟨fun same => String.ofList_injective (Value.text.inj same), congrArg _⟩

/-- Two whole amounts with exact hundredths have the same words if and only if they are the same,
or have twelve digits or more each, the last twelve the same. The words of an amount below
`10 ^ 12` say it. -/
theorem upperMoney_eq_iff (hm : 100 * m < 2 ^ 53) (hn : 100 * n < 2 ^ 53) :
    (∃ text, upperMoney clock [.number (Float.ofNat m)] = .ok (.ofChars text) ∧
      Money.amount text = m % 10 ^ 12) ∧
    (upperMoney clock [.number (Float.ofNat m)] = upperMoney clock [.number (Float.ofNat n)] ↔
      m = n ∨ 10 ^ 11 ≤ m ∧ 10 ^ 11 ≤ n ∧ m % 10 ^ 12 = n % 10 ^ 12) := by
  have said := upperMoney_ofNat clock (n := m) (by omega)
  refine ⟨⟨_, said, Money.amount_words hm⟩, ?_⟩
  rw [said, upperMoney_ofNat clock (by omega), Except.ok.injEq, ofChars_inj,
    Money.words_eq_iff hm hn]

/-- Amounts whose zeros stand in different places. -/
theorem upperMoney_eq_iff_zeros :
    (100 * 100200300 < 2 ^ 53 ∧ 100 * 100020030 < 2 ^ 53) ∧ ∀ clock,
      upperMoney clock [.number (Float.ofNat 100200300)] ≠
        upperMoney clock [.number (Float.ofNat 100020030)] := by
  refine ⟨⟨by decide, by decide⟩, fun clock same => ?_⟩
  have ⟨_, apart⟩ :=
    upperMoney_eq_iff clock (m := 100200300) (n := 100020030) (by decide) (by decide)
  rcases apart.1 same with equal | ⟨long, _⟩
  · exact absurd equal (by decide)
  · exact absurd long (by decide)

/-- Two amounts of thirteen digits that have lost all of them. -/
theorem upperMoney_trillions : 10 ^ 12 ≠ 2 * 10 ^ 12 ∧ ∀ clock,
    upperMoney clock [.number (Float.ofNat (10 ^ 12))] = .ok (.ofChars ['元', '整']) ∧
    upperMoney clock [.number (Float.ofNat (2 * 10 ^ 12))] = .ok (.ofChars ['元', '整']) := by
  have one : Money.words (Float.ofNat (10 ^ 12)) = ['元', '整'] := by decide +kernel
  have two : Money.words (Float.ofNat (2 * 10 ^ 12)) = ['元', '整'] := by decide +kernel
  refine ⟨by decide, fun clock => ⟨?_, ?_⟩⟩
  · rw [upperMoney_ofNat clock (by decide), one]
  · rw [upperMoney_ofNat clock (by decide), two]

end TemplateFormula.Builtin
