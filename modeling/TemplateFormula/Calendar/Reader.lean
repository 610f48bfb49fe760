import TemplateFormula.Calendar.Field
import TemplateFormula.Calendar.Iso

/-!
# Reading dates by a pattern

Separators are matched loosely: what is neither letter nor numeral is passed over before a field,
a literal character is skipped where it stands, and text after the last field is ignored. A field
without digits ends the reading.
-/

namespace TemplateFormula.Calendar

structure Gathered where
  year : Int
  month : Int
  day : Int
  hour : Nat
  minute : Nat
  second : Nat
  milli : Nat
  afternoon : Option Bool
  anyField : Bool
deriving Repr

def Gathered.start : Gathered := ⟨1970, 1, 1, 0, 0, 0, 0, none, false⟩

/-- The hour on the day's clock; noon and midnight are twelve on the clock face. -/
def Gathered.dayHour (g : Gathered) : Nat :=
  match g.afternoon with
  | some true => if g.hour < 12 then g.hour + 12 else g.hour
  | some false => if g.hour = 12 then 0 else g.hour
  | none => g.hour

def Gathered.stamp? (g : Gathered) : Option Stamp :=
  if g.anyField then
    Stamp.ofParts? g.year g.month g.day g.dayHour g.minute g.second (g.milli * 1000000)
  else none

def Field.maxDigits : Field → Nat
  | year => 4
  | milli => 3
  | epochSeconds | epochMillis => 16
  | _ => 2

def Field.gather (g : Gathered) (n : Nat) (f : Field) : Gathered :=
  let g := { g with anyField := true }
  match f with
  | year => { g with year := n }
  | yearOfCentury => { g with year := if 68 < n then 1900 + n else 2000 + n }
  | monthTwoDigits | month => { g with month := n }
  | dayTwoDigits | day | dayOrdinal => { g with day := n }
  | hourTwoDigits | hour | hour12TwoDigits | hour12 => { g with hour := n }
  | minuteTwoDigits | minute => { g with minute := n }
  | secondTwoDigits | second => { g with second := n }
  | milli => { g with milli := n }
  | _ => g

def meridiem? (cs : List Char) : Option Bool :=
  let word := Text.upper (cs.take 2)
  if word = ['A', 'M'] then some false
  else if word = ['P', 'M'] then some true
  else none

def readPieces (zone : Zone) (g : Gathered) (cs : List Char) : List Piece → Option Stamp
  | [] => g.stamp?
  | .literal c :: ps => readPieces zone g (if cs.head? = some c then cs.tail else cs) ps
  | .field f :: ps =>
    let cs := cs.dropWhile (!Text.isLetterOrNumeral ·)
    if f = .meridiemCapitals ∨ f = .meridiem then
      match meridiem? cs with
      | some pm => readPieces zone { g with afternoon := some pm } (cs.drop 2) ps
      | none => readPieces zone g cs ps
    else
      match takeNumber? 1 f.maxDigits cs with
      | none => g.stamp?
      | some (n, rest) =>
        if f = .epochSeconds then zone.ofEpochMillis? (n * 1000)
        else if f = .epochMillis then zone.ofEpochMillis? n
        else readPieces zone (f.gather g n) rest ps

/-- A date read by a pattern. The empty pattern takes the usual forms; seconds or milliseconds
since the epoch, alone, take any numeral. -/
def read? (zone : Zone) (text pattern : List Char) : Option Stamp :=
  let cs := Text.trim text
  match pattern with
  | [] => readUsual? zone cs
  | ['X'] => (Number.parse? cs).bind fun x => zone.ofEpochMillis? (Number.toInt64 (x * 1000))
  | ['x'] => (Number.parse? cs).bind fun x => zone.ofEpochMillis? (Number.toInt64 x)
  | pattern => readPieces zone .start cs (pieces pattern)

def plainPattern : List Char := "YYYY-MM-DD HH:mm:ss".toList

/-- A date in text that comes without a pattern. -/
def readText? (zone : Zone) (cs : List Char) : Option Stamp :=
  readUsual? zone cs <|> read? zone cs plainPattern

end TemplateFormula.Calendar
