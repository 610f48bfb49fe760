/-!
# Places in a source text

The index counts characters from zero, line and column count from one. A line ends at a line feed,
at a carriage return, or at both in this order.
-/

namespace TemplateFormula

structure Position where
  index : Nat
  line : Nat
  column : Nat
deriving Repr, DecidableEq

namespace Position

def start : Position := ⟨0, 1, 1⟩

/-- The place behind a piece of text. -/
def advance (p : Position) : List Char → Position
  | [] => p
  | '\r' :: '\n' :: cs => advance ⟨p.index + 2, p.line + 1, 1⟩ cs
  | '\r' :: cs => advance ⟨p.index + 1, p.line + 1, 1⟩ cs
  | '\n' :: cs => advance ⟨p.index + 1, p.line + 1, 1⟩ cs
  | _ :: cs => advance ⟨p.index + 1, p.line, p.column + 1⟩ cs

@[simp] theorem advance_nil (p : Position) : p.advance [] = p := by simp [advance]

theorem advance_index (p : Position) (cs : List Char) :
    (p.advance cs).index = p.index + cs.length := by
  fun_induction advance p cs <;> simp_all <;> omega

end Position

end TemplateFormula
