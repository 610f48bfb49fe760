import TemplateFormula.Text.Case

/-!
# Camel case

A letter or numeral after an underscore or hyphen replaces both by its upper case.
-/

namespace TemplateFormula.Text

def isJoint (c : Char) : Bool := c == '_' || c == '-'

def camelCase : List Char → List Char
  | [] => []
  | [c] => [c]
  | c :: d :: r =>
    if isJoint c && isLetterOrNumeral d then upperChar d ++ camelCase r
    else c :: camelCase (d :: r)

@[simp] theorem camelCase_nil : camelCase [] = [] := rfl

@[simp] theorem camelCase_singleton (c : Char) : camelCase [c] = [c] := rfl

end TemplateFormula.Text
