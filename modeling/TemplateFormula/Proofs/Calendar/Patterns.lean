import TemplateFormula.Calendar.Layout
import TemplateFormula.Calendar.Reader
import TemplateFormula.Proofs.Calendar.Periods
import TemplateFormula.Proofs.Resolving.Segments

/-!
# Reading what a pattern writes

A date is put together again from its calendar date and its time of day. A number of a fixed width is
read back as far as the width goes, whatever follows; and what is trimmed off a text are blanks.

The reader and the writer walk the same pieces. A field of a fixed width is read where it was
written, in front of anything; a literal is skipped where it stands. What trimming takes from the
ends of the text belongs to literals, which are then not found and leave the text as it is. So the
reader notes what the fields show of the date, and a pattern that shows all parts gives the date
back.
-/

namespace TemplateFormula

namespace Number

open Scan

variable {n width : Nat}

theorem padded_areDigits (width n : Nat) : AreDigits (padded width n) := by
  have digits := natChars_areDigits n
  refine ⟨fun empty => digits.1 (List.append_eq_nil_iff.1 empty).2, fun c member => ?_⟩
  rcases List.mem_append.1 member with zero | digit
  · exact replicate_zero_digits _ c zero
  · exact digits.2 c digit

theorem length_padded (pos : 0 < width) (lt : n < 10 ^ width) :
    (padded width n).length = width := by
  have short : (natChars n).length ≤ width :=
    (Nat.length_toDigits_le_iff (by decide) pos).2 lt
  rw [padded, List.length_append, List.length_replicate]
  omega

theorem ofDigitChars_padded (width n : Nat) : Nat.ofDigitChars 10 (padded width n) 0 = n := by
  rw [padded, Nat.ofDigitChars_append, Nat.ofDigitChars_replicate_zero, Nat.mul_zero]
  exact Nat.ofDigitChars_ten_toDigits

end Number

namespace Text

/-- Blanks are trimmed off both ends, and what is left begins with none. -/
theorem trim_split (cs : List Char) :
    ∃ lead trail, cs = lead ++ trim cs ++ trail ∧ (∀ c ∈ lead, isBlank c = true) ∧
      (∀ c ∈ trail, isBlank c = true) ∧ ∀ c ∈ (trim cs).head?, isBlank c = false := by
  have front : cs = cs.takeWhile isBlank ++ trimStart cs := List.takeWhile_append_dropWhile.symm
  have back : trimStart cs =
      trim cs ++ ((trimStart cs).reverse.takeWhile isBlank).reverse := by
    rw [trim, trimEnd, ← List.reverse_append, List.takeWhile_append_dropWhile, List.reverse_reverse]
  refine ⟨cs.takeWhile isBlank, ((trimStart cs).reverse.takeWhile isBlank).reverse, ?_,
    fun c => List.mem_takeWhile_imp, fun c member => ?_, fun c first => ?_⟩
  · rw [List.append_assoc, ← back]
    exact front
  · exact List.mem_takeWhile_imp (List.mem_reverse.1 member)
  · have start : (trimStart cs).head? = some c := by
      rw [back, List.head?_append, Option.mem_def.1 first]
      rfl
    have stops := List.head?_dropWhile_not isBlank cs
    rw [← trimStart, start] at stops
    simpa using stops

theorem trim_inked {cs : List Char} (inked : ∀ c ∈ cs, isBlank c = false) : trim cs = cs := by
  cases cs with
  | nil => rfl
  | cons c cs =>
    have ends := Path.endsInked_of_forall (List.cons_ne_nil c cs) inked
    exact ends.trim_eq (inked c List.mem_cons_self)

end Text

namespace Calendar

open Number (padded)

/-- A number of a fixed width is read in front of anything. -/
theorem takeNumber?_padded {low width n : Nat} (le : low ≤ width) (pos : 0 < width)
    (lt : n < 10 ^ width) (rest : List Char) :
    takeNumber? low width (padded width n ++ rest) = some (n, rest) := by
  have digits := Number.padded_areDigits width n
  have length := Number.length_padded pos lt
  have front : (padded width n ++ rest).take width = padded width n :=
    List.take_left' length
  have all : (padded width n).takeWhile Char.isDigit = padded width n :=
    List.takeWhile_eq_self_iff.2 digits.2
  have enough : ¬ ((padded width n).length < low ∨ (padded width n).isEmpty = true) := by
    rw [length, List.isEmpty_iff]
    exact not_or.2 ⟨not_lt.2 le, digits.1⟩
  rw [takeNumber?, front, all, if_neg enough, Number.ofDigitChars_padded, List.drop_left]

namespace Stamp

/-- The date with its nanoseconds cut to a multiple of `size`. -/
def cut (s : Stamp) (size : Nat) : Stamp :=
  { s with
    nano := s.nano / size * size
    nano_lt := (Nat.div_mul_le_self _ _).trans_lt s.nano_lt
    leap := fun ge => s.leap (ge.trans (Nat.div_mul_le_self _ _)) }

theorem ofParts?_parts (s : Stamp) (nano : Nat) :
    ofParts? s.date.year s.date.month s.date.day s.hour s.minute s.secondOfMinute nano =
      make? s.day s.second nano := by
  have ⟨month_ge, month_le, day_ge, day_le⟩ := civil_valid s.day
  have second := s.second_lt
  have clock : s.hour * 3600 + s.minute * 60 + s.secondOfMinute = s.second := by
    unfold hour minute secondOfMinute
    omega
  have within : s.hour < 24 ∧ s.minute < 60 ∧ s.secondOfMinute < 60 := by
    unfold hour minute secondOfMinute
    omega
  rw [ofParts?, if_pos ⟨month_ge, month_le, day_ge, day_le, within⟩, clock]
  exact congrArg (make? · s.second nano) (dayNumber_civil s.day)

theorem ofParts?_cut (s : Stamp) (size : Nat) :
    ofParts? s.date.year s.date.month s.date.day s.hour s.minute s.secondOfMinute
      (s.nano / size * size) = some (s.cut size) :=
  (s.ofParts?_parts _).trans (s.cut size).make?_self

/-- The year takes four digits, and the date is in no leap second. -/
structure IsCommon (s : Stamp) : Prop where
  year_ge : 0 ≤ s.date.year
  year_le : s.date.year ≤ 9999
  usual : s.isLeapSecond = false

end Stamp

end Calendar

end TemplateFormula

namespace TemplateFormula.Calendar

open Number (padded)

variable {zone : Zone} {s : Stamp} {f : Field} {fs : List Field} {g : Gathered}

/-- The number that a field of a fixed width shows. -/
def Field.shown (s : Stamp) : Field → Nat
  | year => s.date.year.toNat
  | monthTwoDigits => s.date.month.toNat
  | dayTwoDigits => s.date.day.toNat
  | hourTwoDigits => s.hour
  | hour12TwoDigits => s.hour12
  | minuteTwoDigits => s.minute
  | secondTwoDigits => s.secondOfMinute
  | milli => s.milli
  | _ => 0

def numberFields : List Field :=
  [.year, .monthTwoDigits, .dayTwoDigits, .hourTwoDigits, .hour12TwoDigits, .minuteTwoDigits,
   .secondTwoDigits, .milli]

def meridiemFields : List Field := [.meridiemCapitals, .meridiem]

/-- What the reader notes of a field that shows the date. -/
def Field.note (s : Stamp) (g : Gathered) (f : Field) : Gathered :=
  if f ∈ meridiemFields then { g with afternoon := some (12 ≤ s.hour) }
  else f.gather g (f.shown s)

theorem isLetterOrNumeral_of_isDigit {c : Char} (digit : c.isDigit = true) :
    Text.isLetterOrNumeral c = true := by
  have low : c.toNat < 128 := by
    simp only [Char.isDigit, Bool.and_eq_true, decide_eq_true_eq, ge_iff_le, UInt32.le_iff_toNat_le]
      at digit
    exact digit.2.trans_lt (by decide)
  rw [Text.isLetterOrNumeral, Text.isNumeral, if_pos low, digit, Bool.or_true]

/-- Nothing is passed over before digits. -/
theorem dropWhile_digits {ds : List Char} (digits : Scan.AreDigits ds) (rest : List Char) :
    (ds ++ rest).dropWhile (!Text.isLetterOrNumeral ·) = ds ++ rest := by
  obtain ⟨nonempty, all⟩ := digits
  cases ds with
  | nil => exact absurd rfl nonempty
  | cons d ds =>
    have first := isLetterOrNumeral_of_isDigit (all d List.mem_cons_self)
    exact List.dropWhile_cons_of_neg (by simp [first])

theorem mem_meridiemFields : f ∈ meridiemFields ↔ f = .meridiemCapitals ∨ f = .meridiem := by
  simp [meridiemFields]

theorem number_apart : ∀ f ∈ numberFields,
    0 < f.maxDigits ∧ f ∉ meridiemFields ∧ f ≠ .epochSeconds ∧ f ≠ .epochMillis := by
  decide

theorem write_number (zone : Zone) (common : s.IsCommon) (number : f ∈ numberFields) :
    f.write zone s = padded f.maxDigits (f.shown s) ∧ f.shown s < 10 ^ f.maxDigits := by
  have ⟨year_ge, year_le, usual⟩ := common
  have ⟨month_ge, month_le, day_ge, day_le⟩ := civil_valid s.day
  have length := monthLength_le s.date.year s.date.month
  have small := Stamp.nano_lt_of_usual usual
  have second := s.second_lt
  simp only [numberFields, List.mem_cons, List.not_mem_nil, or_false] at number
  rcases number with rfl | rfl | rfl | rfl | rfl | rfl | rfl | rfl
  · refine ⟨if_neg (not_lt.2 year_ge), ?_⟩
    change s.date.year.toNat < 10000
    omega
  · refine ⟨rfl, ?_⟩
    change s.date.month.toNat < 100
    unfold Stamp.date
    omega
  · refine ⟨rfl, ?_⟩
    change s.date.day.toNat < 100
    unfold Stamp.date at *
    omega
  · refine ⟨rfl, ?_⟩
    change s.second / 3600 < 100
    omega
  · refine ⟨rfl, ?_⟩
    change s.hour12 < 100
    unfold Stamp.hour12
    split <;> omega
  · refine ⟨rfl, ?_⟩
    change s.second / 60 % 60 < 100
    omega
  · refine ⟨rfl, ?_⟩
    change s.second % 60 < 100
    omega
  · have whole : s.milli % 1000 = s.milli := by
      unfold Stamp.milli
      omega
    refine ⟨congrArg (padded 3) whole, ?_⟩
    change s.milli < 1000
    unfold Stamp.milli
    omega

theorem write_meridiem (zone : Zone) (s : Stamp) (mark : f ∈ meridiemFields) (rest : List Char) :
    ∃ c d, f.write zone s = [c, d] ∧
      meridiem? (c :: d :: rest) = some (decide (12 ≤ s.hour)) ∧
      Text.isLetterOrNumeral c = true ∧ Text.isBlank c = false ∧ Text.isBlank d = false := by
  simp only [meridiemFields, List.mem_cons, List.not_mem_nil, or_false] at mark
  by_cases morning : s.hour < 12
  · rw [decide_eq_false (not_le.2 morning)]
    rcases mark with rfl | rfl
    · exact ⟨'A', 'M', if_pos morning, rfl, by decide⟩
    · exact ⟨'a', 'm', if_pos morning, rfl, by decide⟩
  · rw [decide_eq_true (not_lt.1 morning)]
    rcases mark with rfl | rfl
    · exact ⟨'P', 'M', if_neg morning, rfl, by decide⟩
    · exact ⟨'p', 'm', if_neg morning, rfl, by decide⟩

/-- The date is put together again from the numbers that its fields show. -/
theorem ofParts?_shown (common : s.IsCommon) (size : Nat) :
    Stamp.ofParts? (Field.year.shown s) (Field.monthTwoDigits.shown s) (Field.dayTwoDigits.shown s)
      s.hour s.minute s.secondOfMinute (s.nano / size * size) = some (s.cut size) := by
  obtain ⟨month_ge, -, day_ge, -⟩ := civil_valid s.day
  have year : (Field.year.shown s : Int) = s.date.year := Int.toNat_of_nonneg common.year_ge
  have month : (Field.monthTwoDigits.shown s : Int) = s.date.month :=
    Int.toNat_of_nonneg (Int.le_of_lt month_ge)
  have day : (Field.dayTwoDigits.shown s : Int) = s.date.day :=
    Int.toNat_of_nonneg (Int.le_of_lt day_ge)
  rw [year, month, day, Stamp.ofParts?_cut]

/-- The fields that show the date in a fixed width. -/
def exactFields : List Field := numberFields ++ meridiemFields

theorem write_inked (zone : Zone) (common : s.IsCommon) (member : f ∈ exactFields) :
    f.write zone s ≠ [] ∧ ∀ c ∈ f.write zone s, Text.isBlank c = false := by
  rcases List.mem_append.1 member with number | mark
  · have digits := Number.padded_areDigits f.maxDigits (f.shown s)
    rw [(write_number zone common number).1]
    exact ⟨digits.1, Path.digits_inked digits⟩
  · obtain ⟨c, d, written, -, -, blank, blank'⟩ := write_meridiem zone s mark []
    rw [written]
    simp [blank, blank']

/-- A field is read where it was written, whatever follows. -/
theorem readPieces_field (common : s.IsCommon) (member : f ∈ exactFields) (g : Gathered)
    (rest : List Char) (ps : List Piece) :
    readPieces zone g (f.write zone s ++ rest) (.field f :: ps) =
      readPieces zone (f.note s g) rest ps := by
  rcases List.mem_append.1 member with number | mark
  · obtain ⟨written, lt⟩ := write_number zone common number
    have ⟨wide, mark, seconds, millis⟩ := number_apart f number
    have noted : f.note s g = f.gather g (f.shown s) := if_neg mark
    rw [readPieces, written, dropWhile_digits (Number.padded_areDigits _ _),
      if_neg (mem_meridiemFields.not.1 mark), takeNumber?_padded wide wide lt, noted]
    simp only [if_neg seconds, if_neg millis]
  · obtain ⟨c, d, written, found, first, -⟩ := write_meridiem zone s mark rest
    have noted : f.note s g = { g with afternoon := some (decide (12 ≤ s.hour)) } := if_pos mark
    rw [readPieces, written, List.cons_append, List.cons_append, List.nil_append,
      List.dropWhile_cons_of_neg (by simp [first]), if_pos (mem_meridiemFields.1 mark), found, noted]
    rfl

/-- What is left of a written text to read, with blanks trimmed off both of its ends. Once blanks
are missing at the front, the rest begins with none. -/
def Remains (written cs : List Char) : Prop :=
  ∃ lead trail, written = lead ++ cs ++ trail ∧ (∀ c ∈ lead, Text.isBlank c = true) ∧
    (∀ c ∈ trail, Text.isBlank c = true) ∧ (lead ≠ [] → ∀ c ∈ cs.head?, Text.isBlank c = false)

namespace Remains

variable {written cs w : List Char} {c : Char}

theorem trim (written : List Char) : Remains written (Text.trim written) := by
  obtain ⟨lead, trail, split, blank, blank', start⟩ := Text.trim_split written
  exact ⟨lead, trail, split, blank, blank', fun _ => start⟩

/-- A literal is skipped where it stands, and is left alone where it was trimmed off. -/
theorem literal (remains : Remains (c :: written) cs) :
    Remains written (if cs.head? = some c then cs.tail else cs) := by
  obtain ⟨lead, trail, split, blank, blank', start⟩ := remains
  cases lead with
  | cons l lead =>
    obtain ⟨rfl, tail⟩ := List.cons.inj split
    have away : cs.head? ≠ some c := fun first => by
      have inked := start (List.cons_ne_nil _ _) c first
      exact absurd (blank c List.mem_cons_self) (by simp [inked])
    rw [if_neg away]
    exact ⟨lead, trail, tail, fun d member => blank d (List.mem_cons_of_mem _ member), blank',
      fun _ => start (List.cons_ne_nil _ _)⟩
  | nil =>
    cases cs with
    | cons d cs =>
      obtain ⟨rfl, tail⟩ := List.cons.inj split
      rw [if_pos (by rfl)]
      exact ⟨[], trail, tail, blank, blank', fun h => absurd rfl h⟩
    | nil =>
      cases trail with
      | nil => exact absurd split (List.cons_ne_nil _ _)
      | cons d trail =>
        obtain ⟨rfl, tail⟩ := List.cons.inj split
        exact ⟨[], trail, tail, blank,
          fun d member => blank' d (List.mem_cons_of_mem _ member), fun h => absurd rfl h⟩

/-- A word without blanks stands at the front of what is left. -/
theorem word (remains : Remains (w ++ written) cs) (nonempty : w ≠ [])
    (inked : ∀ c ∈ w, Text.isBlank c = false) :
    ∃ rest, cs = w ++ rest ∧ Remains written rest := by
  obtain ⟨lead, trail, split, blank, blank', -⟩ := remains
  have front : lead = [] := by
    cases lead with
    | nil => rfl
    | cons l lead =>
      obtain ⟨d, w, rfl⟩ := List.exists_cons_of_ne_nil nonempty
      obtain ⟨rfl, -⟩ := List.cons.inj split
      exact absurd (blank d List.mem_cons_self) (by simp [inked d List.mem_cons_self])
  subst front
  rcases List.append_eq_append_iff.1 split with ⟨rest, rfl, tail⟩ | ⟨beyond, rfl, tail⟩
  · exact ⟨rest, rfl, [], trail, tail, blank, blank', fun h => absurd rfl h⟩
  · -- what the word would share with the trimmed blanks is empty
    have none : beyond = [] := by
      refine List.eq_nil_iff_forall_not_mem.2 fun c member => ?_
      have marked := inked c (List.mem_append_right _ member)
      have trimmed := blank' c (tail ▸ List.mem_append_left _ member)
      exact absurd trimmed (by simp [marked])
    subst none
    exact ⟨[], by simp, [], trail, by simpa using tail.symm, blank, blank', fun h => absurd rfl h⟩

end Remains

/-- The fields among the pieces, in order. -/
def fieldsOf (ps : List Piece) : List Field :=
  ps.filterMap fun
    | .field f => some f
    | .literal _ => none

theorem expansion_exact : ∀ f ∈ exactFields, f.expansion? = none := by decide

/-- Reading notes all the fields that were written. -/
theorem readPieces_written (common : s.IsCommon) {ps : List Piece} {cs : List Char}
    (exact : ∀ f ∈ fieldsOf ps, f ∈ exactFields)
    (remains : Remains (ps.flatMap (Piece.write zone s)) cs) :
    readPieces zone g cs ps = ((fieldsOf ps).foldl (Field.note s) g).stamp? := by
  induction ps generalizing g cs with
  | nil => rfl
  | cons p ps ih =>
    cases p with
    | literal c => exact ih exact remains.literal
    | field f =>
      have member : f ∈ exactFields := exact f List.mem_cons_self
      have written : (Piece.field f).write zone s = f.write zone s := by
        rw [Piece.write, expansion_exact f member]
      have ⟨nonempty, inked⟩ := write_inked zone common member
      rw [List.flatMap_cons, written] at remains
      obtain ⟨rest, rfl, left⟩ := remains.word nonempty inked
      rw [readPieces_field common member]
      exact ih (fun f member => exact f (List.mem_cons_of_mem _ member)) left

/-- Every field has one part of its own to note, and leaves the others. -/
theorem note_parts (member : f ∈ exactFields) (g : Gathered) :
    f.note s g =
      { year := if f = .year then f.shown s else g.year
        month := if f = .monthTwoDigits then f.shown s else g.month
        day := if f = .dayTwoDigits then f.shown s else g.day
        hour := if f = .hourTwoDigits ∨ f = .hour12TwoDigits then f.shown s else g.hour
        minute := if f = .minuteTwoDigits then f.shown s else g.minute
        second := if f = .secondTwoDigits then f.shown s else g.second
        milli := if f = .milli then f.shown s else g.milli
        afternoon := if f ∈ meridiemFields then some (decide (12 ≤ s.hour)) else g.afternoon
        anyField := if f ∈ meridiemFields then g.anyField else true } := by
  simp only [exactFields, numberFields, meridiemFields, List.mem_append, List.mem_cons,
    List.not_mem_nil, or_false] at member
  rcases member with (rfl | rfl | rfl | rfl | rfl | rfl | rfl | rfl) | rfl | rfl <;> rfl

/-- What the reader has noted after these fields. -/
structure Noted (s : Stamp) (fs : List Field) (g : Gathered) : Prop where
  year : .year ∈ fs → g.year = Field.year.shown s
  month : .monthTwoDigits ∈ fs → g.month = Field.monthTwoDigits.shown s
  day : .dayTwoDigits ∈ fs → g.day = Field.dayTwoDigits.shown s
  hour : .hourTwoDigits ∈ fs ∨ .hour12TwoDigits ∈ fs →
    g.hour = s.hour ∨ .hour12TwoDigits ∈ fs ∧ g.hour = s.hour12
  minute : .minuteTwoDigits ∈ fs → g.minute = s.minute
  second : .secondTwoDigits ∈ fs → g.second = s.secondOfMinute
  milli : g.milli = if .milli ∈ fs then s.milli else 0
  afternoon : g.afternoon = some (decide (12 ≤ s.hour)) ∨
    (∀ f ∈ meridiemFields, f ∉ fs) ∧ g.afternoon = none
  anyField : .year ∈ fs → g.anyField = true

theorem Noted.start : Noted s [] .start := by
  constructor <;> simp [Gathered.start]

/-- A part keeps what its field noted, and the field notes the same again. -/
theorem kept {α : Type} {x : Field} {part value again : α} (noted : x ∈ fs → part = value)
    (same : f = x → again = value) (member : x ∈ fs ++ [f]) :
    (if f = x then again else part) = value := by
  split
  · exact same ‹_›
  · rcases List.mem_append.1 member with before | last
    · exact noted before
    · exact absurd (List.mem_singleton.1 last).symm ‹_›

theorem Noted.note (noted : Noted s fs g) (member : f ∈ exactFields) :
    Noted s (fs ++ [f]) (f.note s g) := by
  rw [note_parts member]
  constructor
  case year => exact kept noted.year (congrArg fun f => (Field.shown s f : Int))
  case month => exact kept noted.month (congrArg fun f => (Field.shown s f : Int))
  case day => exact kept noted.day (congrArg fun f => (Field.shown s f : Int))
  case minute => exact kept noted.minute (congrArg (Field.shown s))
  case second => exact kept noted.second (congrArg (Field.shown s))
  case hour =>
    intro seen
    by_cases whole : f = .hourTwoDigits
    · subst whole
      exact .inl rfl
    by_cases half : f = .hour12TwoDigits
    · subst half
      exact .inr ⟨by simp, rfl⟩
    simp only [List.mem_append, List.mem_singleton, Ne.symm whole, Ne.symm half, or_false] at seen
    simp only [whole, half, or_false, if_false]
    exact (noted.hour seen).imp_right fun h => ⟨List.mem_append_left _ h.1, h.2⟩
  case milli =>
    by_cases own : f = .milli
    · subst own
      simp [Field.shown]
    · simp [own, Ne.symm own, noted.milli]
  case afternoon =>
    by_cases mark : f ∈ meridiemFields
    · exact .inl (if_pos mark)
    · have other : ∀ x ∈ meridiemFields, x ≠ f := fun x member same => mark (same ▸ member)
      simp only [if_neg mark]
      refine noted.afternoon.imp_right fun h => ⟨fun x member => ?_, h.2⟩
      simp [h.1 x member, other x member]
  case anyField =>
    intro seen
    by_cases mark : f ∈ meridiemFields
    · have other : .year ≠ f := fun same => absurd (same ▸ mark) (by decide)
      simp only [if_pos mark]
      refine noted.anyField (by simpa [other] using seen)
    · exact if_neg mark

theorem noted_foldl (exact : ∀ f ∈ fs, f ∈ exactFields) :
    Noted s fs (fs.foldl (Field.note s) .start) := by
  induction fs using List.reverseRecOn with
  | nil => exact Noted.start
  | append_singleton fs f ih =>
    rw [List.foldl_append]
    exact (ih fun x member => exact x (List.mem_append_left _ member)).note
      (exact f (List.mem_append_right _ List.mem_cons_self))

/-- The fields of a pattern from which the date can be read back. -/
structure Complete (fs : List Field) : Prop where
  exact : ∀ f ∈ fs, f ∈ exactFields
  year : .year ∈ fs
  month : .monthTwoDigits ∈ fs
  day : .dayTwoDigits ∈ fs
  hour : .hourTwoDigits ∈ fs ∨ .hour12TwoDigits ∈ fs
  marked : .hour12TwoDigits ∈ fs → ∃ f ∈ meridiemFields, f ∈ fs
  minute : .minuteTwoDigits ∈ fs
  second : .secondTwoDigits ∈ fs

/-- The nanoseconds in the smallest part that these fields show. -/
def precision (fs : List Field) : Nat := if .milli ∈ fs then 1000000 else 1000000000

/-- Twelve on the clock face is read as noon or as midnight, whichever it was. -/
theorem Noted.dayHour (noted : Noted s fs g) (complete : Complete fs) : g.dayHour = s.hour := by
  have day : s.hour < 24 := by
    have second := s.second_lt
    unfold Stamp.hour
    omega
  rcases noted.afternoon with marked | ⟨unmarked, none⟩
  · have face : g.hour = s.hour ∨ g.hour = s.hour12 :=
      (noted.hour complete.hour).imp_right And.right
    rw [Gathered.dayHour, marked]
    by_cases late : 12 ≤ s.hour
    · simp only [decide_eq_true late]
      unfold Stamp.hour12 at face
      split at face <;> split <;> omega
    · simp only [decide_eq_false late]
      unfold Stamp.hour12 at face
      split at face <;> split <;> omega
  · rw [Gathered.dayHour, none]
    rcases noted.hour complete.hour with whole | ⟨half, -⟩
    · exact whole
    · obtain ⟨f, mark, member⟩ := complete.marked half
      exact absurd member (unmarked f mark)

theorem Noted.stamp? (common : s.IsCommon) (complete : Complete fs) (noted : Noted s fs g) :
    g.stamp? = some (s.cut (precision fs)) := by
  have nano : g.milli * 1000000 = s.nano / precision fs * precision fs := by
    rw [noted.milli, precision]
    split
    · rfl
    · rw [Nat.div_eq_of_lt (Stamp.nano_lt_of_usual common.usual)]
  rw [Gathered.stamp?, if_pos (noted.anyField complete.year), noted.year complete.year,
    noted.month complete.month, noted.day complete.day, noted.dayHour complete,
    noted.minute complete.minute, noted.second complete.second, nano, ofParts?_shown common]

/-- A pattern with a field for the year is read piece by piece. -/
theorem read?_pieces {pattern : List Char} (year : .year ∈ fieldsOf (pieces pattern))
    (text : List Char) :
    read? zone text pattern = readPieces zone .start (Text.trim text) (pieces pattern) := by
  unfold read?
  split
  · exact absurd year (by decide)
  · exact absurd year (by decide)
  · exact absurd year (by decide)
  · rfl

/-- A date written by a pattern that shows all its parts is read back by the same pattern, cut to
what the pattern shows. -/
theorem pattern_reads_back (zone : Zone) (s : Stamp) (common : s.IsCommon) (pattern : String)
    (complete : Complete (fieldsOf (pieces pattern.toList))) :
    read? zone (write zone s pattern).toList pattern.toList =
      some (s.cut (precision (fieldsOf (pieces pattern.toList)))) := by
  rw [read?_pieces complete.year, write, String.toList_ofList,
    readPieces_written common complete.exact (Remains.trim _)]
  exact (noted_foldl complete.exact).stamp? common complete

/-- Some minutes after midnight, in February of the year 7. -/
def afterMidnight : Stamp := (Stamp.ofParts? 7 2 3 0 5 9 12345678).get (by decide)

/-- A pattern with blanks at its ends, digits and names of fields among its literals, and fields
side by side. -/
def crowdedPattern : String := " 1[hh] hhA7mmssSSS+YYYYMMDD[Y] "

theorem pattern_reads_back_midnight :
    afterMidnight.IsCommon ∧ Complete (fieldsOf (pieces crowdedPattern.toList)) ∧
      write ⟨60⟩ afterMidnight crowdedPattern = " 1hh 12AM70509012+00070203Y " ∧
      read? ⟨60⟩ (write ⟨60⟩ afterMidnight crowdedPattern).toList crowdedPattern.toList =
        Stamp.ofParts? 7 2 3 0 5 9 12000000 := by
  have common : afterMidnight.IsCommon := ⟨by decide, by decide, by decide⟩
  have complete : Complete (fieldsOf (pieces crowdedPattern.toList)) :=
    ⟨by decide, by decide, by decide, by decide, by decide, by decide, by decide, by decide⟩
  refine ⟨common, complete, by decide, ?_⟩
  rw [pattern_reads_back ⟨60⟩ afterMidnight common crowdedPattern complete]
  decide

end TemplateFormula.Calendar
