import TemplateFormula.Value.Basic
import TemplateFormula.Calendar.Layout
import TemplateFormula.Calendar.Reader

/-!
# Conversions of values

The text that a value is shown as, its number, the number that arithmetic takes it for, and its
date. Dates are shown and counted in the local time zone.
-/

namespace TemplateFormula.Value

open Calendar (Zone Stamp)

variable (zone : Zone)

mutual

/-- The text of a value. Inside an array, missing values are empty. -/
def chars : Value → List Char
  | undefined => "undefined".toList
  | null => "null".toList
  | boolean b => if b then "true".toList else "false".toList
  | number x => Number.chars x
  | text s => s.toList
  | array items => Text.join [','] (partChars items)
  | object _ => "[object Object]".toList
  | date s => (Calendar.isoText zone s).toList
  | function _ => "[function]".toList

def partChars : List Value → List (List Char)
  | [] => []
  | v :: vs => (if v.isNullish then [] else chars v) :: partChars vs

end

def display (v : Value) : String := String.ofList (v.chars zone)

/-- The text of a value as a part of a larger text, where missing values are empty. -/
def shownChars (v : Value) : List Char := if v.isNullish then [] else v.chars zone

theorem chars_ofChars (cs : List Char) : (ofChars cs).chars zone = cs := String.toList_ofList

theorem partChars_cons (v : Value) (vs : List Value) :
    partChars zone (v :: vs) = v.shownChars zone :: partChars zone vs := rfl

/-- The number of a value, NaN for what has none. -/
def toNumber : Value → Float
  | undefined => Number.nan
  | null => 0
  | boolean b => if b then 1 else 0
  | number x => x
  | text s => Number.ofText s.toList
  | array [] => 0
  | array [v] => toNumber v
  | array _ => Number.nan
  | date s => Float.ofInt (zone.epochMillis s)
  | object _ | function _ => Number.nan

/-- Text is read by its numeric beginning, and one that has none counts as zero. -/
def textNumber (x : Float) : Float := if x.isNaN || x == 0 then 0 else x

/-- The value that arithmetic takes: numbers for text and missing values, the rest unchanged. -/
def operand : Value → Value
  | text s => number (textNumber (Number.leadingFloat s.toList))
  | undefined | null => number 0
  | v => v

/-- The same with whole numbers: text is read by its leading digits and numbers are rounded. -/
def wholeOperand : Value → Value
  | text s => number (textNumber (Number.leadingInt s.toList))
  | number x => number (Number.round x)
  | undefined | null => number 0
  | v => v

/-- The number that arithmetic works on. -/
def arithmetic (v : Value) : Float := v.operand.toNumber zone

/-- The date of a value: numbers are milliseconds since the epoch, text is read leniently. -/
def toDate? : Value → Option Stamp
  | date s => some s
  | number x => if x.isFinite then zone.ofEpochMillis? (Number.toInt64 x) else none
  | text s => Calendar.readText? zone s.toList
  | _ => none

end TemplateFormula.Value
