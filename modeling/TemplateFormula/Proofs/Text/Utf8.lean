import Mathlib
import TemplateFormula.Text.Utf8

/-!
# The bytes of a text

A leading byte tells how many bytes follow it and where the first of them has to lie, so that every
character has one sequence of bytes. From these the character is put together again, whatever
follows it, so a text is read back from its bytes, and bytes that are read strictly are those of the
text that they are read as.
-/

namespace TemplateFormula.Text.Utf8

variable {n v k low high : Nat} {bs : List UInt8} {c : Char}

theorem toNat_ofNat_of_lt (lt : n < 256) : (UInt8.ofNat n).toNat = n := by
  rw [UInt8.toNat_ofNat', Nat.mod_eq_of_lt lt]

theorem lead?_one (lt : v < 0x80) : lead? v = some ⟨0, 0x80, 0xBF, v⟩ := by
  rw [lead?, if_pos lt]

theorem lead?_two : ∀ v < 32, 2 ≤ v → lead? (v + 192) = some ⟨1, 0x80, 0xBF, v⟩ := by decide

/-- Bytes that would spell a character of two bytes or a surrogate are kept out. -/
theorem lead?_three : ∀ v < 16, lead? (v + 224) =
    some ⟨2, if v = 0 then 0xA0 else 0x80, if v = 13 then 0x9F else 0xBF, v⟩ := by decide

/-- Bytes that would spell a character of three bytes or none at all are kept out. -/
theorem lead?_four : ∀ v < 5, lead? (v + 240) =
    some ⟨3, if v = 0 then 0x90 else 0x80, if v = 4 then 0x8F else 0xBF, v⟩ := by decide

/-- A byte that follows brings six bits. -/
theorem takeTail_cons (n : Nat) (bs : List UInt8) (ge : low ≤ v % 64 + 128)
    (le : v % 64 + 128 ≤ high) :
    takeTail (k + 1) low high n (UInt8.ofNat (v % 64 + 128) :: bs) =
      takeTail k 0x80 0xBF (n * 64 + v % 64) bs := by
  have byte : (UInt8.ofNat (v % 64 + 128)).toNat = v % 64 + 128 := toNat_ofNat_of_lt (by omega)
  have bits : (v % 64 + 128) % 64 = v % 64 := by omega
  rw [takeTail, byte, bits, if_pos ⟨ge, le⟩]

/-- What is put together behind a leading byte. -/
theorem takeChar_of_lead {l : Lead} {rest : List UInt8} (small : v < 256)
    (lead : lead? v = some l)
    (tail : takeTail l.following l.low l.high l.bits bs = (some c.toNat, rest)) :
    takeChar (UInt8.ofNat v) bs = (some c, rest) := by
  rw [takeChar, toNat_ofNat_of_lt small, lead]
  dsimp only
  rw [tail]
  exact congrArg (fun c => (some c, rest)) (Char.ofNat_toNat c)

theorem encodeChar_eq (c : Char) : encodeChar c =
    if c.toNat ≤ 127 then [UInt8.ofNat c.toNat]
    else if c.toNat ≤ 2047 then
      [UInt8.ofNat (c.toNat / 64 % 32 + 192), UInt8.ofNat (c.toNat % 64 + 128)]
    else if c.toNat ≤ 65535 then
      [UInt8.ofNat (c.toNat / 4096 % 16 + 224), UInt8.ofNat (c.toNat / 64 % 64 + 128),
        UInt8.ofNat (c.toNat % 64 + 128)]
    else
      [UInt8.ofNat (c.toNat / 262144 % 8 + 240), UInt8.ofNat (c.toNat / 4096 % 64 + 128),
        UInt8.ofNat (c.toNat / 64 % 64 + 128), UInt8.ofNat (c.toNat % 64 + 128)] := rfl

/-- The bytes of a character are read as that character, whatever follows them. -/
theorem takeChar_encodeChar (c : Char) (rest : List UInt8) :
    ∃ b bs, encodeChar c = b :: bs ∧ takeChar b (bs ++ rest) = (some c, rest) := by
  have valid : c.toNat < 55296 ∨ 57343 < c.toNat ∧ c.toNat < 1114112 := c.valid
  rw [encodeChar_eq]
  split
  · exact ⟨_, _, rfl, takeChar_of_lead (by omega) (lead?_one (by omega)) rfl⟩
  split
  · refine ⟨_, _, rfl, takeChar_of_lead (by omega) (lead?_two _ (by omega) (by omega)) ?_⟩
    dsimp only [List.cons_append]
    rw [takeTail_cons _ _ (by omega) (by omega), takeTail, List.nil_append]
    exact congrArg (fun n => (some n, rest)) (by omega)
  split
  · refine ⟨_, _, rfl, takeChar_of_lead (by omega) (lead?_three _ (by omega)) ?_⟩
    dsimp only [List.cons_append]
    rw [takeTail_cons _ _ (by split <;> omega) (by split <;> omega),
      takeTail_cons _ _ (by omega) (by omega), takeTail, List.nil_append]
    exact congrArg (fun n => (some n, rest)) (by omega)
  · refine ⟨_, _, rfl, takeChar_of_lead (by omega) (lead?_four _ (by omega)) ?_⟩
    dsimp only [List.cons_append]
    rw [takeTail_cons _ _ (by split <;> omega) (by split <;> omega),
      takeTail_cons _ _ (by omega) (by omega), takeTail_cons _ _ (by omega) (by omega), takeTail,
      List.nil_append]
    exact congrArg (fun n => (some n, rest)) (by omega)

theorem encode_nil : encode [] = [] := rfl

theorem encode_cons (c : Char) (cs : List Char) :
    encode (c :: cs) = encodeChar c ++ encode cs := rfl

theorem scan_encode {steps : Nat} (cs : List Char) (enough : (encode cs).length ≤ steps) :
    scan steps (encode cs) = cs.map some := by
  induction cs generalizing steps with
  | nil => cases steps <;> rfl
  | cons c cs ih =>
    obtain ⟨b, bs, bytes, taken⟩ := takeChar_encodeChar c (encode cs)
    rw [encode_cons, bytes, List.cons_append] at enough ⊢
    rw [List.length_cons, List.length_append] at enough
    cases steps with
    | zero => exact absurd enough (Nat.not_succ_le_zero _)
    | succ steps => rw [scan, taken, List.map_cons, ih (by omega)]

theorem chars_encode (cs : List Char) : chars (encode cs) = cs.map some :=
  scan_encode cs le_rfl

/-- A text is read back from its bytes, strictly or not. -/
theorem decode?_encode (cs : List Char) : decode? (encode cs) = some cs := by
  rw [decode?, chars_encode, List.mapM_map]
  exact (List.mapM_pure).trans (congrArg some (List.map_id cs))

theorem decodeLossy_encode (cs : List Char) : decodeLossy (encode cs) = cs := by
  rw [decodeLossy, chars_encode, List.map_map]
  exact List.map_id cs

/-- The leading bytes, and what each of them asks for. -/
theorem lead?_cases {l : Lead} (h : lead? n = some l) :
    n < 0x80 ∧ l = ⟨0, 0x80, 0xBF, n⟩ ∨
    (∃ v < 32, 2 ≤ v ∧ n = v + 192 ∧ l = ⟨1, 0x80, 0xBF, v⟩) ∨
    (∃ v < 16, n = v + 224 ∧
      l = ⟨2, if v = 0 then 0xA0 else 0x80, if v = 13 then 0x9F else 0xBF, v⟩) ∨
    ∃ v < 5, n = v + 240 ∧
      l = ⟨3, if v = 0 then 0x90 else 0x80, if v = 4 then 0x8F else 0xBF, v⟩ := by
  rcases lt_or_ge n 0x80 with one | two
  · rw [lead?_one one] at h
    exact .inl ⟨one, (Option.some.inj h).symm⟩
  rcases lt_or_ge n 0xC2 with none | two
  · simp [lead?, Nat.not_lt.2 two, none] at h
  rcases lt_or_ge n 224 with small | three
  · obtain ⟨v, rfl⟩ := Nat.exists_eq_add_of_le' (by omega : 192 ≤ n)
    rw [lead?_two v (by omega) (by omega)] at h
    exact .inr (.inl ⟨v, by omega, by omega, rfl, (Option.some.inj h).symm⟩)
  rcases lt_or_ge n 240 with small | four
  · obtain ⟨v, rfl⟩ := Nat.exists_eq_add_of_le' three
    rw [lead?_three v (by omega)] at h
    exact .inr (.inr (.inl ⟨v, by omega, rfl, (Option.some.inj h).symm⟩))
  rcases lt_or_ge n 245 with small | none
  · obtain ⟨v, rfl⟩ := Nat.exists_eq_add_of_le' four
    rw [lead?_four v (by omega)] at h
    exact .inr (.inr (.inr ⟨v, by omega, rfl, (Option.some.inj h).symm⟩))
  · exfalso
    rw [lead?] at h
    split_ifs at h <;> omega

/-- The byte that is used up by a tail. -/
theorem takeTail_succ_eq_some {rest : List UInt8}
    (h : takeTail (k + 1) low high n bs = (some v, rest)) :
    ∃ (b : UInt8) (bs' : List UInt8), bs = b :: bs' ∧ low ≤ b.toNat ∧ b.toNat ≤ high ∧
      takeTail k 0x80 0xBF (n * 64 + b.toNat % 64) bs' = (some v, rest) := by
  cases bs with
  | nil => cases h
  | cons b bs =>
    rw [takeTail] at h
    split at h
    · next within => exact ⟨b, bs, rfl, within.1, within.2, h⟩
    · cases h

theorem takeTail_zero_eq_some {rest : List UInt8}
    (h : takeTail 0 low high n bs = (some v, rest)) : n = v ∧ bs = rest := by
  cases h
  exact ⟨rfl, rfl⟩

theorem byte_eq {b : UInt8} (h : n = b.toNat) : UInt8.ofNat n = b := by
  rw [h, UInt8.ofNat_toNat]

/-- A character that is taken from the front of some bytes has the bytes that it was taken from. -/
theorem encodeChar_of_takeChar {b : UInt8} {rest : List UInt8}
    (h : takeChar b bs = (some c, rest)) : b :: bs = encodeChar c ++ rest := by
  rw [takeChar] at h
  cases lead : lead? b.toNat with
  | none => rw [lead] at h; cases h
  | some l =>
    rw [lead] at h
    dsimp only at h
    split at h
    · next n rest' tail =>
      cases h
      have value (lt : n < 55296 ∨ 57343 < n ∧ n < 1114112) : (Char.ofNat n).toNat = n :=
        (Char.toNat_ofNat n).trans (if_pos lt)
      rw [encodeChar_eq]
      rcases lead?_cases lead with
        ⟨lt, rfl⟩ | ⟨v, lt, ge, first, rfl⟩ | ⟨v, lt, first, rfl⟩ | ⟨v, lt, first, rfl⟩
      · obtain ⟨code, rfl⟩ := takeTail_zero_eq_some tail
        dsimp only at code
        rw [value (by omega), if_pos (by omega), byte_eq code.symm]
        rfl
      · obtain ⟨x, _, rfl, x_ge, x_le, tail⟩ := takeTail_succ_eq_some tail
        obtain ⟨code, rfl⟩ := takeTail_zero_eq_some tail
        dsimp only at x_ge x_le code
        rw [value (by omega), if_neg (by omega), if_pos (by omega),
          byte_eq (b := b) (by omega), byte_eq (b := x) (by omega)]
        rfl
      · obtain ⟨x, _, rfl, x_ge, x_le, tail⟩ := takeTail_succ_eq_some tail
        obtain ⟨y, _, rfl, y_ge, y_le, tail⟩ := takeTail_succ_eq_some tail
        obtain ⟨code, rfl⟩ := takeTail_zero_eq_some tail
        dsimp only at x_ge x_le code
        -- the bounds of the first byte behind keep the code from being small or a surrogate
        have range : 2047 < n ∧ (n < 55296 ∨ 57343 < n) ∧ 128 ≤ x.toNat ∧ x.toNat ≤ 191 := by
          split at x_le <;> split at x_ge <;> omega
        rw [value (by omega), if_neg (by omega), if_neg (by omega), if_pos (by omega),
          byte_eq (b := b) (by omega), byte_eq (b := x) (by omega), byte_eq (b := y) (by omega)]
        rfl
      · obtain ⟨x, _, rfl, x_ge, x_le, tail⟩ := takeTail_succ_eq_some tail
        obtain ⟨y, _, rfl, y_ge, y_le, tail⟩ := takeTail_succ_eq_some tail
        obtain ⟨z, _, rfl, z_ge, z_le, tail⟩ := takeTail_succ_eq_some tail
        obtain ⟨code, rfl⟩ := takeTail_zero_eq_some tail
        dsimp only at x_ge x_le code
        have range : 65535 < n ∧ n < 1114112 ∧ 128 ≤ x.toNat ∧ x.toNat ≤ 191 := by
          split at x_le <;> split at x_ge <;> omega
        rw [value (by omega), if_neg (by omega), if_neg (by omega), if_neg (by omega),
          byte_eq (b := b) (by omega), byte_eq (b := x) (by omega), byte_eq (b := y) (by omega),
          byte_eq (b := z) (by omega)]
        rfl
    · cases h

theorem encode_of_scan {steps : Nat} {cs : List Char} (enough : bs.length ≤ steps)
    (h : scan steps bs = cs.map some) : encode cs = bs := by
  induction steps generalizing bs cs with
  | zero =>
    obtain rfl := List.length_eq_zero_iff.1 (Nat.le_zero.1 enough)
    obtain rfl := List.map_eq_nil_iff.1 h.symm
    rfl
  | succ steps ih =>
    cases bs with
    | nil =>
      obtain rfl := List.map_eq_nil_iff.1 h.symm
      rfl
    | cons b bs =>
      cases cs with
      | nil => cases h
      | cons c cs =>
        obtain ⟨first, others⟩ := List.cons.inj h
        rw [List.length_cons] at enough
        have shorter := takeChar_length_le b bs
        rw [encode_cons, ih (by omega) others]
        exact (encodeChar_of_takeChar (Prod.ext first rfl)).symm

theorem mapM_id_eq_some {α : Type} {xs : List (Option α)} {ys : List α} (h : xs.mapM id = some ys) :
    xs = ys.map some := by
  induction xs generalizing ys with
  | nil => cases h; rfl
  | cons x xs ih =>
    rw [List.mapM_cons, Option.bind_eq_bind, Option.bind_eq_some_iff] at h
    obtain ⟨y, same, h⟩ := h
    rw [Option.bind_eq_bind, Option.bind_eq_some_iff] at h
    obtain ⟨ys, others, h⟩ := h
    cases h
    rw [ih others, List.map_cons, ← same]
    rfl

/-- The bytes that are read as a text are the bytes of that text. -/
theorem decode?_eq_some_iff {cs : List Char} : decode? bs = some cs ↔ encode cs = bs := by
  constructor
  · intro h
    exact encode_of_scan le_rfl (mapM_id_eq_some h)
  · rintro rfl
    exact decode?_encode cs

end TemplateFormula.Text.Utf8
