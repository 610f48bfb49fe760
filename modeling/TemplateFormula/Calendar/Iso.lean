import TemplateFormula.Calendar.Zone
import TemplateFormula.Number.Numeral

/-!
# Reading usual date forms

Dates are read from the internet form with an offset and from a few fixed forms with or without a
time. In the fixed forms blanks may stand before every number. Second 60 is a leap second.
-/

namespace TemplateFormula.Calendar

/-- The parts that a form gives; what it leaves out is zero. -/
structure Reading where
  year : Int
  month : Nat
  day : Nat
  hour : Nat
  minute : Nat
  second : Nat
  nano : Nat
deriving Repr

def Reading.stamp? (r : Reading) : Option Stamp :=
  if r.second = 60 then
    Stamp.ofParts? r.year r.month r.day r.hour r.minute 59 (1000000000 + r.nano)
  else Stamp.ofParts? r.year r.month r.day r.hour r.minute r.second r.nano

/-- Between `low` and `high` digits, as many as there are. -/
def takeNumber? (low high : Nat) (cs : List Char) : Option (Nat × List Char) :=
  let digits := (cs.take high).takeWhile Char.isDigit
  if digits.length < low ∨ digits.isEmpty then none
  else some (Nat.ofDigitChars 10 digits 0, cs.drop digits.length)

def takeChar? (c : Char) : List Char → Option (List Char)
  | d :: cs => if d = c then some cs else none
  | [] => none

/-- An optional point with digits, of which nine count. -/
def takeNano? : List Char → Option (Nat × List Char)
  | '.' :: cs =>
    let digits := cs.takeWhile Char.isDigit
    let kept := digits.take 9
    if digits.isEmpty then none
    else
      some (Nat.ofDigitChars 10 kept 0 * Number.tenPow (9 - kept.length),
        cs.dropWhile Char.isDigit)
  | cs => some (0, cs)

def takeSign? : List Char → Option (Int × List Char)
  | '+' :: cs => some (1, cs)
  | '-' :: cs => some (-1, cs)
  | '−' :: cs => some (-1, cs)
  | _ => none

/-- `Z`, or a sign, hours, a colon and minutes, below a day; in seconds. -/
def takeOffset? : List Char → Option (Int × List Char)
  | 'Z' :: cs | 'z' :: cs => some (0, cs)
  | cs => do
    let (sign, cs) ← takeSign? cs
    let (h, cs) ← takeNumber? 2 2 cs
    let cs ← takeChar? ':' cs
    let (m, cs) ← takeNumber? 2 2 cs
    if h < 24 ∧ m < 60 then some (sign * (h * 3600 + m * 60), cs) else none

def takeDateTimeMark? : List Char → Option (List Char)
  | 'T' :: cs | 't' :: cs | ' ' :: cs => some cs
  | _ => none

/-- The internet form: every number has its full width, and the offset is part of it. -/
def readInternet? (zone : Zone) (cs : List Char) : Option Stamp := do
  let (year, cs) ← takeNumber? 4 4 cs
  let cs ← takeChar? '-' cs
  let (month, cs) ← takeNumber? 2 2 cs
  let cs ← takeChar? '-' cs
  let (day, cs) ← takeNumber? 2 2 cs
  let cs ← takeDateTimeMark? cs
  let (hour, cs) ← takeNumber? 2 2 cs
  let cs ← takeChar? ':' cs
  let (minute, cs) ← takeNumber? 2 2 cs
  let cs ← takeChar? ':' cs
  let (second, cs) ← takeNumber? 2 2 cs
  let (nano, cs) ← takeNano? cs
  let (offset, cs) ← takeOffset? cs
  if cs.isEmpty then
    let s ← Reading.stamp? ⟨year, month, day, hour, minute, second, nano⟩
    s.shiftClock? (zone.secondsEast - offset)
  else none

/-- A piece of a fixed form. -/
inductive Slot where
  | year
  | month
  | day
  | hour
  | minute
  | second
  | fraction
  | blank
  | mark (c : Char)
deriving Repr, DecidableEq

/-- A year has four digits at most, or any number of them behind a sign. -/
def takeYear? (cs : List Char) : Option (Int × List Char) :=
  match cs with
  | '-' :: r => (takeNumber? 1 r.length r).map fun p => (-(p.1 : Int), p.2)
  | '+' :: r => (takeNumber? 1 r.length r).map fun p => ((p.1 : Int), p.2)
  | r => (takeNumber? 1 4 r).map fun p => ((p.1 : Int), p.2)

def Slot.take? (r : Reading) (cs : List Char) : Slot → Option (Reading × List Char)
  | year => (takeYear? (Text.trimStart cs)).map fun p => ({ r with year := p.1 }, p.2)
  | month => (takeNumber? 1 2 (Text.trimStart cs)).map fun p => ({ r with month := p.1 }, p.2)
  | day => (takeNumber? 1 2 (Text.trimStart cs)).map fun p => ({ r with day := p.1 }, p.2)
  | hour => (takeNumber? 1 2 (Text.trimStart cs)).map fun p => ({ r with hour := p.1 }, p.2)
  | minute => (takeNumber? 1 2 (Text.trimStart cs)).map fun p => ({ r with minute := p.1 }, p.2)
  | second => (takeNumber? 1 2 (Text.trimStart cs)).map fun p => ({ r with second := p.1 }, p.2)
  | fraction => (takeNano? cs).map fun p => ({ r with nano := p.1 }, p.2)
  | blank => some (r, Text.trimStart cs)
  | mark c => (takeChar? c cs).map fun rest => (r, rest)

def readSlots? (r : Reading) (cs : List Char) : List Slot → Option Stamp
  | [] => if cs.isEmpty then r.stamp? else none
  | slot :: slots => (slot.take? r cs).bind fun p => readSlots? p.1 p.2 slots

def dateSlots (separator : Char) : List Slot :=
  [.year, .mark separator, .month, .mark separator, .day]

def shortTimeSlots : List Slot := [.hour, .mark ':', .minute]

def timeSlots : List Slot := shortTimeSlots ++ [.mark ':', .second]

def fixedForms : List (List Slot) :=
  [dateSlots '-' ++ .mark 'T' :: timeSlots ++ [.fraction],
   dateSlots '-' ++ .blank :: timeSlots ++ [.fraction],
   dateSlots '-' ++ .mark 'T' :: shortTimeSlots,
   dateSlots '-' ++ .blank :: shortTimeSlots,
   dateSlots '/' ++ .blank :: timeSlots,
   dateSlots '/' ++ .blank :: shortTimeSlots,
   dateSlots '-',
   dateSlots '/',
   [.year, .month, .day]]

/-- Any of the usual forms, between blanks. -/
def readUsual? (zone : Zone) (cs : List Char) : Option Stamp :=
  let cs := Text.trim cs
  readInternet? zone cs <|> fixedForms.findSome? (readSlots? ⟨0, 0, 0, 0, 0, 0, 0⟩ cs)

end TemplateFormula.Calendar
