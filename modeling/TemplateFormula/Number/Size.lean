import TemplateFormula.Number.FixedPoint

/-!
# Byte sizes

A number of bytes with a decimal unit and three significant digits, such as `1.34 GB`.
-/

namespace TemplateFormula.Number

def byteUnits : List String := ["B", "kB", "MB", "GB", "TB", "PB", "EB", "ZB", "YB"]

/-- The thousands power of a magnitude, by its decimal logarithm. -/
def thousands (x : Float) : Nat :=
  min ((integer? .floor (Float.log10 x / 3)).getD 0).toNat (byteUnits.length - 1)

def byteSize (x : Float) : String :=
  let sign := if x < 0 then "-" else ""
  let n := x.abs
  if !x.isFinite then text x ++ " B"
  else if n < 1 then sign ++ text n ++ " B"
  else
    let k := thousands n
    sign ++ text (toSignificant 3 (n / Float.ofNat (tenPow (3 * k)))) ++ " " ++ byteUnits.getD k "B"

end TemplateFormula.Number
