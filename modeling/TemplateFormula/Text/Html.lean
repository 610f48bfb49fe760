import TemplateFormula.Text.Alphabetic

/-!
# HTML escaping

Characters that have a meaning in markup are written as entities.
-/

namespace TemplateFormula.Text.Html

def entity (c : Char) : List Char :=
  match c with
  | '&' => "&amp;".toList
  | '<' => "&lt;".toList
  | '>' => "&gt;".toList
  | '"' => "&quot;".toList
  | '\'' => "&#39;".toList
  | '/' => "&#x2F;".toList
  | c => [c]

def escape (cs : List Char) : List Char := cs.flatMap entity

@[simp] theorem escape_nil : escape [] = [] := rfl

theorem escape_cons (c : Char) (cs : List Char) : escape (c :: cs) = entity c ++ escape cs := rfl

end TemplateFormula.Text.Html
