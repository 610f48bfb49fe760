import TemplateFormula.Text.Alphabetic

/-!
# UTF-8

The bytes of a text and the text of bytes, read strictly or with a replacement character for each
longest broken sequence.
-/

namespace TemplateFormula.Text.Utf8

def encodeChar (c : Char) : List UInt8 := String.utf8EncodeChar c

def encode (cs : List Char) : List UInt8 := cs.flatMap encodeChar

/-- What a leading byte asks for: the number of bytes that follow, the bounds of the first of them
and the bits that the leading byte contributes. -/
structure Lead where
  following : Nat
  low : Nat
  high : Nat
  bits : Nat
deriving Repr, DecidableEq

def lead? (b : Nat) : Option Lead :=
  if b < 0x80 then some ⟨0, 0x80, 0xBF, b⟩
  else if b < 0xC2 then none
  else if b < 0xE0 then some ⟨1, 0x80, 0xBF, b - 0xC0⟩
  else if b = 0xE0 then some ⟨2, 0xA0, 0xBF, 0⟩
  else if b = 0xED then some ⟨2, 0x80, 0x9F, 0xD⟩
  else if b < 0xF0 then some ⟨2, 0x80, 0xBF, b - 0xE0⟩
  else if b = 0xF0 then some ⟨3, 0x90, 0xBF, 0⟩
  else if b < 0xF4 then some ⟨3, 0x80, 0xBF, b - 0xF0⟩
  else if b = 0xF4 then some ⟨3, 0x80, 0x8F, 4⟩
  else none

/-- Reads following bytes of which the first lies between two bounds; `none` where one is
missing. -/
def takeTail : Nat → Nat → Nat → Nat → List UInt8 → Option Nat × List UInt8
  | 0, _, _, n, bs => (some n, bs)
  | _ + 1, _, _, _, [] => (none, [])
  | k + 1, low, high, n, b :: bs =>
    if low ≤ b.toNat ∧ b.toNat ≤ high then takeTail k 0x80 0xBF (n * 64 + b.toNat % 64) bs
    else (none, b :: bs)

/-- The character at the front, `none` for a broken sequence, and the bytes behind it. -/
def takeChar (b : UInt8) (bs : List UInt8) : Option Char × List UInt8 :=
  match lead? b.toNat with
  | none => (none, bs)
  | some l =>
    match takeTail l.following l.low l.high l.bits bs with
    | (some n, rest) => (some (Char.ofNat n), rest)
    | (none, rest) => (none, rest)

theorem takeTail_length_le (k low high n : Nat) (bs : List UInt8) :
    (takeTail k low high n bs).2.length ≤ bs.length := by
  induction k generalizing low high n bs with
  | zero => simp [takeTail]
  | succ k ih =>
    cases bs with
    | nil => simp [takeTail]
    | cons b bs =>
      simp only [takeTail]
      split
      · exact Nat.le_trans (ih _ _ _ _) (Nat.le_succ _)
      · exact Nat.le_refl _

theorem takeChar_length_le (b : UInt8) (bs : List UInt8) :
    (takeChar b bs).2.length ≤ bs.length := by
  unfold takeChar
  split
  · exact Nat.le_refl _
  · rename_i l _
    have h := takeTail_length_le l.following l.low l.high l.bits bs
    split <;> rename_i h' <;> rw [h'] at h <;> exact h

def scan : Nat → List UInt8 → List (Option Char)
  | 0, _ | _ + 1, [] => []
  | n + 1, b :: bs => (takeChar b bs).1 :: scan n (takeChar b bs).2

/-- The characters of a byte sequence, with `none` for each broken piece. Every step uses up a
byte, so the length bounds their number. -/
def chars (bs : List UInt8) : List (Option Char) := scan bs.length bs

def decode? (bs : List UInt8) : Option (List Char) := (chars bs).mapM id

def replacement : Char := '\uFFFD'

def decodeLossy (bs : List UInt8) : List Char := (chars bs).map (·.getD replacement)

end TemplateFormula.Text.Utf8
