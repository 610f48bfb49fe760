import TemplateFormula.Filter.Basic
import TemplateFormula.Json.Printer
import TemplateFormula.Json.Reader
import TemplateFormula.Text.Base64
import TemplateFormula.Text.Html
import TemplateFormula.Text.Percent

/-!
# Filters on text and conversions
-/

namespace TemplateFormula.Filter

open Argument

def mapText (f : List Char → List Char) : Value → Value
  | .text s => .ofChars (f s.toList)
  | v => v

def html : Filter := .ofTotal fun _ input _ => mapText Text.Html.escape input

def raw : Filter := .ofTotal fun _ input _ => input

def trim : Filter := .ofTotal fun _ input _ => mapText Text.trim input

def lowerCase : Filter := .ofTotal fun _ input _ => mapText Text.lower input

def upperCase : Filter := .ofTotal fun _ input _ => mapText Text.upper input

def defaultTruncation : Nat := 200

/-- The length to cut a text to; zero and no number mean the usual one. -/
def truncationLength (x : Float) : Nat :=
  if x.isNaN || x == 0 then defaultTruncation
  else (Number.clampInt 0 18446744073709551615 x).toNat

def truncate : Filter := .ofTotal fun ctx input args =>
  match input, (args.head?).filter (!·.isNullish) with
  | .text s, some length =>
    let n := truncationLength (Number.leadingInt (length.chars ctx.zone))
    let cs := s.toList
    .ofChars (cs.take n ++ if n < cs.length then filledChars ctx.zone args 1 "..." else [])
  | input, _ => input

def urlEncode : Filter := .ofTotal fun ctx input _ =>
  .ofChars (Text.Percent.encode (input.chars ctx.zone))

/-- A malformed escape leaves the text as it is. -/
def urlDecode : Filter := .ofTotal fun ctx input _ =>
  let cs := input.chars ctx.zone
  .ofChars ((Text.Percent.decode? cs).getD cs)

def base64Encode : Filter := .ofTotal fun ctx input _ =>
  .ofChars (Text.Base64.encode (Text.Utf8.encode (input.chars ctx.zone)))

def base64Decode : Filter := .ofFunction fun ctx input _ =>
  match Text.Base64.decode? (input.chars ctx.zone) with
  | some bytes => .ok (.ofChars (Text.Utf8.decodeLossy bytes))
  | none => .error (.typeError "invalid base64 input")

/-- The indentation that an argument asks for, two without one. -/
def indentation (zone : Calendar.Zone) : Option Value → Nat
  | none => 2
  | some v =>
    if v.isTruthy then (Number.clampInt 0 10 (Number.leadingInt (v.chars zone))).toNat else 0

def json : Filter := .ofTotal fun ctx input args =>
  match Json.print? ctx.zone (indentation ctx.zone (given? args 0)) input with
  | some s => .text s
  | none => .undefined

def toJson : Filter := .ofTotal fun ctx input _ =>
  (Json.parse? (input.chars ctx.zone)).getD .null

def toInt : Filter := .ofTotal fun _ input _ =>
  match input with
  | .text s => .number (Number.leadingInt s.toList)
  | v => v

def toFloat : Filter := .ofTotal fun _ input _ =>
  match input with
  | .text s => .number (Number.leadingFloat s.toList)
  | v => v

/-- The value that stands in for a missing one: text is read as JSON where it is JSON. -/
def fallback : Option Value → Value
  | some (.text s) =>
    if s = "undefined" then .undefined else (Json.parse? s.toList).getD (.text s)
  | some v => v
  | none => .undefined

/-- Replaces falsy values, or under the second argument only missing ones. -/
def default : Filter := .ofTotal fun _ input args =>
  let strict := (orUndefined args 1).isTruthy
  if (strict || input.isTruthy) && !input.isNullish then input else fallback args.head?

def asArray : Filter := .ofTotal fun _ input _ =>
  match input with
  | .array items => .array items
  | v => if v.isTruthy then .array [v] else v

end TemplateFormula.Filter
