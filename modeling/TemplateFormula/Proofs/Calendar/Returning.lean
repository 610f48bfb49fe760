import TemplateFormula.Proofs.Calendar.Patterns
import TemplateFormula.Proofs.Number.Integers
import TemplateFormula.Proofs.Rendering.Escaping

/-!
# Dates that leave and come back

A date leaves as text in the internet form, which shows its seconds and the offset of the local
clock, or as a number of milliseconds since the epoch, which is small enough to be exact. Read back
by the same clock, either gives the date up to the parts that it leaves out.
-/

namespace TemplateFormula.Calendar

open Number (padded)

variable {zone : Zone} {s : Stamp}

namespace Stamp

theorem IsCommon.clockSeconds_ge (common : s.IsCommon) : -62167219200 ≤ s.clockSeconds := by
  have month_ge := (civil_valid s.day).month_ge
  have year := common.year_ge
  have begun : monthStart 0 ≤ s.day := by
    rw [monthStart_le_iff, monthOf]
    unfold Stamp.date at year
    omega
  have first : monthStart 0 = -719528 := by decide
  unfold clockSeconds
  omega

theorem IsCommon.clockSeconds_lt (common : s.IsCommon) : s.clockSeconds < 253402300800 := by
  have month_le := (civil_valid s.day).month_le
  have year := common.year_le
  have ahead : ¬ monthStart 120000 ≤ s.day := by
    rw [monthStart_le_iff, monthOf]
    unfold Stamp.date at year
    omega
  have last : monthStart 120000 = 2932897 := by decide
  have second := s.second_lt
  unfold clockSeconds
  omega

/-- The date lies far from the ends of the supported years, so it has a universal time. -/
theorem IsCommon.exists_shiftClock? (common : s.IsCommon) {seconds : Int}
    (near : seconds.natAbs < 86400) :
    ∃ t : Stamp, s.shiftClock? seconds = some t ∧ t.clockSeconds = s.clockSeconds + seconds ∧
      t.nano = s.nano := by
  have ge := common.clockSeconds_ge
  have lt := common.clockSeconds_lt
  exact ofClock?_eq_some _ _ (by unfold firstDay; omega) (by unfold lastDay; omega)
    (nano_lt_of_usual common.usual)

theorem shiftClock?_zero (s : Stamp) : s.shiftClock? 0 = some s := by
  rw [shiftClock?, Int.add_zero, ofClock?_clockSeconds]
  exact s.make?_self

end Stamp

/-- The offset is below a day either way. -/
def Zone.IsLocal (zone : Zone) : Prop := zone.minutesEast.natAbs < 1440

namespace Zone.IsLocal

theorem secondsEast_lt (islocal : zone.IsLocal) : zone.secondsEast.natAbs < 86400 := by
  unfold IsLocal at islocal
  unfold secondsEast
  omega

theorem offsetAt (islocal : zone.IsLocal) (common : s.IsCommon) :
    zone.offsetAt s = zone.secondsEast := by
  have near := islocal.secondsEast_lt
  rw [← Int.natAbs_neg] at near
  obtain ⟨t, found, -⟩ := common.exists_shiftClock? near
  rw [Zone.offsetAt, found, Option.isSome_some, if_pos rfl]

end Zone.IsLocal

section Text

theorem take_two {n : Nat} (lt : n < 100) (rest : List Char) :
    takeNumber? 2 2 (padded 2 n ++ rest) = some (n, rest) :=
  takeNumber?_padded (Nat.le_refl 2) (by decide) lt rest

theorem take_shown (zone : Zone) (common : s.IsCommon) (f : Field) (number : f ∈ numberFields)
    (rest : List Char) :
    takeNumber? f.maxDigits f.maxDigits (padded f.maxDigits (f.shown s) ++ rest) =
      some (f.shown s, rest) :=
  takeNumber?_padded (Nat.le_refl _) (number_apart f number).1 (write_number zone common number).2
    rest

theorem takeOffset?_signed {mark : Char} {sign : Int} {hour minute : Nat}
    (notZulu : mark ≠ 'Z' ∧ mark ≠ 'z') (signed : ∀ cs, takeSign? (mark :: cs) = some (sign, cs))
    (hours : hour < 24) (minutes : minute < 60) :
    takeOffset? (mark :: (padded 2 hour ++ ':' :: padded 2 minute)) =
      some (sign * (hour * 3600 + minute * 60), []) := by
  have last := take_two (minutes.trans (by decide)) []
  rw [List.append_nil] at last
  have first := take_two (hours.trans (by decide)) (':' :: padded 2 minute)
  have colon : takeChar? ':' (':' :: padded 2 minute) = some (padded 2 minute) := rfl
  rw [takeOffset?]
  · simp only [signed, Option.bind_eq_bind, Option.bind_some, first, colon, last]
    exact if_pos ⟨hours, minutes⟩
  · exact fun _ same => notZulu.1 (List.cons.inj same).1
  · exact fun _ same => notZulu.2 (List.cons.inj same).1

/-- An offset of whole minutes is read back from its sign, hours and minutes. -/
theorem takeOffset?_offsetChars (islocal : zone.IsLocal) :
    takeOffset? (offsetChars [':'] zone.secondsEast) = some (zone.secondsEast, []) := by
  have near := islocal.secondsEast_lt
  have hours : zone.secondsEast.natAbs / 3600 < 24 := by omega
  have minutes : zone.secondsEast.natAbs % 3600 / 60 < 60 := by omega
  have whole : zone.secondsEast.natAbs / 3600 * 3600 + zone.secondsEast.natAbs % 3600 / 60 * 60 =
      zone.secondsEast.natAbs := by
    unfold Zone.secondsEast
    omega
  rw [offsetChars, List.append_assoc, List.singleton_append]
  by_cases west : zone.secondsEast < 0
  · rw [if_pos west, takeOffset?_signed (by decide) (fun _ => rfl) hours minutes]
    congr 2
    omega
  · rw [if_neg west, takeOffset?_signed (by decide) (fun _ => rfl) hours minutes]
    congr 2
    omega

theorem isoText_toList (zone : Zone) (common : s.IsCommon) :
    (isoText zone s).toList =
      padded 4 (Field.year.shown s) ++ '-' :: (padded 2 (Field.monthTwoDigits.shown s) ++
        '-' :: (padded 2 (Field.dayTwoDigits.shown s) ++ 'T' :: (padded 2 s.hour ++
          ':' :: (padded 2 s.minute ++ ':' :: (padded 2 s.secondOfMinute ++
            offsetChars [':'] (zone.offsetAt s)))))) := by
  have year := (write_number zone common (f := .year) (by decide)).1
  have month := (write_number zone common (f := .monthTwoDigits) (by decide)).1
  have day := (write_number zone common (f := .dayTwoDigits) (by decide)).1
  simp only [isoText, write, pieces_iso, isoPieces, String.toList_ofList, List.flatMap_cons,
    List.flatMap_nil, Piece.write, Field.expansion?, year, month, day, List.append_nil]
  rfl

theorem takeNano?_offsetChars (separator : List Char) (seconds : Int) :
    takeNano? (offsetChars separator seconds) = some (0, offsetChars separator seconds) := by
  rw [offsetChars]
  split <;> rfl

theorem readInternet?_isoText (islocal : zone.IsLocal) (common : s.IsCommon) :
    readInternet? zone (isoText zone s).toList = some (s.cut 1000000000) := by
  have shown := take_shown zone common
  have sixty : s.secondOfMinute ≠ 60 := Nat.ne_of_lt (Nat.mod_lt _ (by decide))
  have nano : s.nano / 1000000000 * 1000000000 = 0 := by
    rw [Nat.div_eq_of_lt (Stamp.nano_lt_of_usual common.usual), Nat.zero_mul]
  have made := ofParts?_shown common 1000000000
  rw [nano] at made
  have stamp : Reading.stamp? ⟨Field.year.shown s, Field.monthTwoDigits.shown s,
      Field.dayTwoDigits.shown s, s.hour, s.minute, s.secondOfMinute, 0⟩ =
      some (s.cut 1000000000) := (if_neg sixty).trans made
  have mark (c : Char) (cs : List Char) : takeChar? c (c :: cs) = some cs := if_pos rfl
  have timeMark (cs : List Char) : takeDateTimeMark? ('T' :: cs) = some cs := rfl
  rw [isoText_toList zone common, islocal.offsetAt common]
  -- every part is read in front of what follows it
  refine Option.bind_eq_some_iff.2 ⟨_, shown .year (by decide) _, ?_⟩
  refine Option.bind_eq_some_iff.2 ⟨_, mark _ _, ?_⟩
  refine Option.bind_eq_some_iff.2 ⟨_, shown .monthTwoDigits (by decide) _, ?_⟩
  refine Option.bind_eq_some_iff.2 ⟨_, mark _ _, ?_⟩
  refine Option.bind_eq_some_iff.2 ⟨_, shown .dayTwoDigits (by decide) _, ?_⟩
  refine Option.bind_eq_some_iff.2 ⟨_, timeMark _, ?_⟩
  refine Option.bind_eq_some_iff.2 ⟨_, shown .hourTwoDigits (by decide) _, ?_⟩
  refine Option.bind_eq_some_iff.2 ⟨_, mark _ _, ?_⟩
  refine Option.bind_eq_some_iff.2 ⟨_, shown .minuteTwoDigits (by decide) _, ?_⟩
  refine Option.bind_eq_some_iff.2 ⟨_, mark _ _, ?_⟩
  refine Option.bind_eq_some_iff.2 ⟨_, shown .secondTwoDigits (by decide) _, ?_⟩
  refine Option.bind_eq_some_iff.2 ⟨_, takeNano?_offsetChars _ _, ?_⟩
  refine Option.bind_eq_some_iff.2 ⟨_, takeOffset?_offsetChars islocal, ?_⟩
  refine Option.bind_eq_some_iff.2 ⟨_, stamp, ?_⟩
  rw [Int.sub_self]
  exact Stamp.shiftClock?_zero _

theorem isoText_inked (zone : Zone) (common : s.IsCommon) :
    ∀ c ∈ (isoText zone s).toList, Text.isBlank c = false := by
  have digits (width n : Nat) : ∀ c ∈ padded width n, Text.isBlank c = false :=
    Path.digits_inked (Number.padded_areDigits width n)
  have sign (seconds : Int) : Text.isBlank (if seconds < 0 then '-' else '+') = false := by
    split <;> decide
  rw [isoText_toList zone common, offsetChars]
  simp only [List.forall_mem_append, List.forall_mem_cons]
  exact ⟨digits _ _, rfl, digits _ _, rfl, digits _ _, rfl, digits _ _, rfl, digits _ _, rfl,
    digits _ _, sign _, ⟨digits _ _, rfl, List.forall_mem_nil _⟩, digits _ _⟩

/-- A date shown as text is read back without its fraction of a second. -/
theorem readText?_isoText (islocal : zone.IsLocal) (common : s.IsCommon) :
    readText? zone (isoText zone s).toList = some (s.cut 1000000000) := by
  rw [readText?, readUsual?, Text.trim_inked (isoText_inked zone common),
    readInternet?_isoText islocal common]
  rfl

end Text

section Number

theorem epochMillis_eq (islocal : zone.IsLocal) (common : s.IsCommon) :
    zone.epochMillis s = (s.clockSeconds - zone.secondsEast) * 1000 + s.milli := by
  rw [Zone.epochMillis, islocal.offsetAt common]

theorem natAbs_epochMillis_lt (islocal : zone.IsLocal) (common : s.IsCommon) :
    (zone.epochMillis s).natAbs < 2 ^ 53 := by
  have ge := common.clockSeconds_ge
  have lt := common.clockSeconds_lt
  have small := Stamp.nano_lt_of_usual common.usual
  have near := islocal.secondsEast_lt
  rw [epochMillis_eq islocal common]
  unfold Stamp.milli
  omega

/-- Milliseconds since the epoch, before it or after it, are read back to the millisecond. -/
theorem ofEpochMillis?_epochMillis (islocal : zone.IsLocal) (common : s.IsCommon) :
    zone.ofEpochMillis? (zone.epochMillis s) = some (s.cut 1000000) := by
  have ge := common.clockSeconds_ge
  have lt := common.clockSeconds_lt
  have small : s.milli < 1000 := by
    have := Stamp.nano_lt_of_usual common.usual
    unfold Stamp.milli
    omega
  have near := islocal.secondsEast_lt
  have seconds : ((s.clockSeconds - zone.secondsEast) * 1000 + s.milli) / 1000 =
      s.clockSeconds - zone.secondsEast := by omega
  have rest : (((s.clockSeconds - zone.secondsEast) * 1000 + s.milli) % 1000).toNat = s.milli := by
    omega
  obtain ⟨utc, found, clock, nano⟩ := Stamp.ofClock?_eq_some (s.clockSeconds - zone.secondsEast)
    (s.milli * 1000000) (by unfold firstDay; omega) (by unfold lastDay; omega) (by omega)
  rw [epochMillis_eq islocal common, Zone.ofEpochMillis?, seconds, rest, found]
  change utc.shiftClock? zone.secondsEast = _
  rw [Stamp.shiftClock?, clock, nano, Int.sub_add_cancel, Stamp.ofClock?_clockSeconds]
  exact (s.cut 1000000).make?_self

end Number

theorem display_date (zone : Zone) (s : Stamp) : (Value.date s).display zone = isoText zone s :=
  String.ofList_toList

/-- A date comes back from its text without the fraction of its second, and from its number without
the fraction of its millisecond. -/
theorem date_comes_back (zone : Zone) (s : Stamp) (islocal : zone.IsLocal) (common : s.IsCommon) :
    (Value.text ((Value.date s).display zone)).toDate? zone = some (s.cut 1000000000) ∧
      (Value.number ((Value.date s).toNumber zone)).toDate? zone = some (s.cut 1000000) := by
  have small := natAbs_epochMillis_lt islocal common
  have finite := (Number.stands_ofInt (zone.epochMillis s)).finite small
  constructor
  · rw [Value.toDate?, display_date, readText?_isoText islocal common]
  · rw [Value.toNumber, Value.toDate?, if_pos finite, Number.toInt64_ofInt small,
      ofEpochMillis?_epochMillis islocal common]

/-- A nanosecond before the start of 1970 in universal time, by a clock five and a half hours west
of it. -/
def eveBefore : Stamp := (Stamp.ofParts? 1969 12 31 18 29 59 999999999).get (by decide)

theorem date_comes_back_eve : Zone.IsLocal ⟨-330⟩ ∧ eveBefore.IsCommon ∧
    (Value.date eveBefore).display ⟨-330⟩ = "1969-12-31T18:29:59-05:30" ∧
    (Value.text "1969-12-31T18:29:59-05:30").toDate? ⟨-330⟩ = some (eveBefore.cut 1000000000) ∧
    Zone.epochMillis ⟨-330⟩ eveBefore = -1 ∧
    (Value.number (Float.ofInt (-1))).toDate? ⟨-330⟩ = some (eveBefore.cut 1000000) := by
  have islocal : Zone.IsLocal ⟨-330⟩ := by
    unfold Zone.IsLocal
    decide
  have common : eveBefore.IsCommon := ⟨by decide, by decide, by decide⟩
  have shown : (Value.date eveBefore).display ⟨-330⟩ = "1969-12-31T18:29:59-05:30" := by
    rw [display_date]
    decide
  have millis : Zone.epochMillis ⟨-330⟩ eveBefore = -1 := by decide
  obtain ⟨text, number⟩ := date_comes_back ⟨-330⟩ eveBefore islocal common
  rw [shown] at text
  rw [Value.toNumber, millis] at number
  exact ⟨islocal, common, shown, text, millis, number⟩

end TemplateFormula.Calendar
