import TemplateFormula.Value.Conversion

/-!
# Arguments

How functions and filters read a list of arguments, of which any may be missing.
-/

namespace TemplateFormula.Argument

def orUndefined (args : List Value) (i : Nat) : Value := args.getD i .undefined

/-- The argument at a place, unless it is missing or undefined. -/
def given? (args : List Value) (i : Nat) : Option Value :=
  (args[i]?).filter (!·.isUndefined)

variable (zone : Calendar.Zone) (args : List Value) (i : Nat)

def givenChars (default : String) : List Char :=
  ((given? args i).map (Value.chars zone)).getD default.toList

/-- The text of an argument, where the empty text is as good as none. -/
def filledChars (default : String) : List Char :=
  let cs := givenChars zone args i default
  if cs.isEmpty then default.toList else cs

/-- The text of an argument as it is shown. -/
def chars : List Char := (orUndefined args i).chars zone

/-- The number that arithmetic takes an argument for, zero for a missing one. -/
def number : Float := ((args[i]?).map (Value.arithmetic zone)).getD 0

/-- The number of an argument, NaN for a missing one. -/
def strictNumber : Float := (orUndefined args i).toNumber zone

def date? : Option Calendar.Stamp := (args[i]?).bind (Value.toDate? zone)

end TemplateFormula.Argument
