import TemplateFormula.Command
import Std.Time.Zoned

/-!
# The command line

`render TEMPLATE`, `eval EXPRESSION` and `check SOURCE`. Data comes from `--input` or else from a
piped standard input.
-/

namespace TemplateFormula.CommandLine

/-- A command with its source text and flags. -/
structure Request where
  command : String
  source : String
  input : Option String
  defaultFilter : String
  flags : List String

/-- Reads arguments behind the command name. -/
def Request.ofArguments? (r : Request) (positional : Bool) : List String → Option Request
  | [] => if positional then some r else none
  | "--input" :: s :: rest | "-i" :: s :: rest =>
    Request.ofArguments? { r with input := some s } positional rest
  | "--default-filter" :: s :: rest =>
    Request.ofArguments? { r with defaultFilter := s } positional rest
  | s :: rest =>
    if s = "--strict" ∨ s = "--pretty" ∨ s = "-p" ∨ s = "--eval-mode" then
      Request.ofArguments? { r with flags := s :: r.flags } positional rest
    else if positional then none
    else Request.ofArguments? { r with source := s } true rest

def Request.has (r : Request) (flag : String) : Bool := r.flags.contains flag

def usage : String :=
  "usage: (render | eval | check) SOURCE [--input JSON] [--default-filter NAME]" ++
    " [--strict] [--pretty] [--eval-mode]"

/-- The output of a request. -/
def Request.run (r : Request) (input : Option String) (clock : Calendar.Clock) :
    Except String String :=
  let filter := if r.defaultFilter = "none" then none else some r.defaultFilter
  let result :=
    match r.command with
    | "render" => some (Command.render r.source input ⟨filter, r.has "--strict"⟩ clock)
    | "eval" => some (Command.evaluate r.source input (r.has "--pretty" || r.has "-p") clock)
    | "check" =>
      some ((Command.check r.source (if r.has "--eval-mode" then .expression else .template)).map
        fun _ => "Syntax is valid")
    | _ => none
  match result with
  | some result => result.mapError Command.Error.message
  | none => .error usage

/-- The present moment in the local time zone. -/
def localClock : IO (Option Calendar.Clock) := do
  let t ← Std.Time.Timestamp.now
  let rules ← Std.Time.Database.defaultGetLocalZoneRules
  let zone : Calendar.Zone := ⟨(rules.timezoneAt t).offset.second.val / 60⟩
  return (zone.ofEpochMillis? t.toMillisecondsSinceUnixEpoch.val).map fun now => ⟨zone, now⟩

def readInput (r : Request) : IO (Option String) := do
  if r.input.isSome || r.command = "check" then return r.input
  let stdin ← IO.getStdin
  if ← stdin.isTty then return none
  else return some (← stdin.readToEnd)

end TemplateFormula.CommandLine

open TemplateFormula.CommandLine in
def main (args : List String) : IO UInt32 := do
  let stderr ← IO.getStderr
  let request := Request.ofArguments? ⟨args.headD "", "", none, "html", []⟩ false args.tail
  match request, ← localClock with
  | some r, some clock =>
    match r.run (← readInput r) clock with
    | .ok s =>
      IO.println s
      return 0
    | .error s =>
      stderr.putStrLn s
      return 1
  | _, _ =>
    stderr.putStrLn usage
    return 2
