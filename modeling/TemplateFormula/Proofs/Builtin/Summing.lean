import Mathlib
import TemplateFormula.Builtin.Math
import TemplateFormula.Proofs.Number.Order

/-!
# Sums with terms that have no number

A total that is no number starts again from zero, so a term without a number takes with it all the
terms that stand before it. It is ignored, whatever follows, just when those add up to zero.
-/

namespace TemplateFormula.Number

open Float.Model UnpackedFloat

theorem isNaN_iff {x : Float} : x.isNaN = true ↔ x.toModel.unpack = .notANumber :=
  UnpackedFloat.isNaN_iff

/-- A sum with a NaN is a NaN. -/
theorem isNaN_add {x y : Float} (h : y.isNaN = true) : (x + y).isNaN = true := by
  have sum : x + y =
      .ofModel (.pack (UnpackedFloat.add Format.binary64 x.toModel.unpack y.toModel.unpack)) := rfl
  have propagates (u : UnpackedFloat) :
      UnpackedFloat.add Format.binary64 u .notANumber = .notANumber := by
    cases u <;> rfl
  rw [sum, isNaN_iff.1 h, propagates]
  rfl

end TemplateFormula.Number

namespace TemplateFormula.Builtin

variable {zone : Calendar.Zone}

/-- The total of a row of terms. -/
def subtotal (zone : Calendar.Zone) (ts : List Value) : Float :=
  (numbers zone ts).foldl addTerm 0

theorem sum_apply (clock : Calendar.Clock) (args : List Value) :
    sum clock args = .ok (.number (subtotal clock.zone (terms args))) := rfl

theorem addTerm_of_isNaN {x : Float} (nan : x.isNaN = true) (t : Float) : addTerm t x = 0 :=
  if_pos (Number.isNaN_add nan)

theorem subtotal_append (before behind : List Value) : subtotal zone (before ++ behind) =
    (numbers zone behind).foldl addTerm (subtotal zone before) := by
  rw [subtotal, subtotal, numbers, List.map_append, List.foldl_append]
  rfl

/-- What stands before a term without a number is lost. -/
theorem subtotal_restarts {v : Value} (nan : (v.arithmetic zone).isNaN = true)
    (before behind : List Value) :
    subtotal zone (before ++ v :: behind) = subtotal zone behind := by
  rw [subtotal_append, numbers, List.map_cons, List.foldl_cons, addTerm_of_isNaN nan]
  rfl

/-- A sum with a term that has no number, an argument or a member of one, is the sum of the terms
behind it. The term is ignored, whatever follows it, if and only if the terms before it add up to
zero. -/
theorem sum_ignores_iff (clock : Calendar.Clock) (v : Value)
    (unreadable : (v.arithmetic clock.zone).isNaN = true) (before : List Value) :
    (∀ args behind, terms args = before ++ v :: behind →
      sum clock args = .ok (.number (subtotal clock.zone behind))) ∧
    ((∀ behind more fewer, terms more = before ++ v :: behind → terms fewer = before ++ behind →
        sum clock more = sum clock fewer) ↔
      subtotal clock.zone before = 0) := by
  have restarts (args behind : List Value) (split : terms args = before ++ v :: behind) :
      sum clock args = .ok (.number (subtotal clock.zone behind)) := by
    rw [sum_apply, split, subtotal_restarts unreadable]
  refine ⟨restarts, fun ignored => ?_, fun zero behind more fewer with_term without => ?_⟩
  · have alone (ts : List Value) : terms [.array ts] = ts := List.append_nil ts
    have same := ignored [] [.array (before ++ [v])] [.array before] (alone _)
      ((alone _).trans (List.append_nil before).symm)
    rw [restarts _ [] (alone _), sum_apply, alone] at same
    exact (Value.number.inj (Except.ok.inj same)).symm
  · rw [restarts more behind with_term, sum_apply, without, subtotal_append, zero]
    rfl

theorem arithmetic_number (x : Float) : (Value.number x).arithmetic zone = x := by
  simp [Value.arithmetic, Value.operand, Value.toNumber]

theorem isNaN_arithmetic_object (ms : Members) :
    ((Value.object ms).arithmetic zone).isNaN = true := by
  have none : (Value.object ms).arithmetic zone = Number.nan := by
    simp [Value.arithmetic, Value.operand, Value.toNumber]
  rw [none]
  rfl

theorem subtotal_numbers (xs : List Float) :
    subtotal zone (xs.map .number) = xs.foldl addTerm 0 := by
  rw [subtotal, numbers, List.map_map]
  simp [Function.comp_def, arithmetic_number]

theorem subtotal_two : subtotal zone [.number 2] = 2 :=
  (subtotal_numbers [2]).trans (by decide)

/-- An hour, minus one, a list with a note before two hours. -/
def notedHours : List Value := [.number 1, .number (-1), .array [.object [], .number 2]]

theorem sum_ignores_iff_noted :
    (∀ zone, ((Value.object []).arithmetic zone).isNaN = true) ∧ ∀ clock,
      sum clock notedHours = .ok (.number 2) ∧
      sum clock notedHours = sum clock [.number 1, .number (-1), .array [.number 2]] := by
  refine ⟨fun _ => isNaN_arithmetic_object [], fun clock => ?_⟩
  have ⟨restarts, ignored⟩ := sum_ignores_iff clock (.object []) (isNaN_arithmetic_object [])
    [.number 1, .number (-1)]
  have zero : subtotal clock.zone [.number 1, .number (-1)] = 0 :=
    (subtotal_numbers [1, -1]).trans (by decide)
  refine ⟨subtotal_two ▸ restarts notedHours [.number 2] rfl, ?_⟩
  exact ignored.2 zero [.number 2] _ _ rfl rfl

/-- The hour before a note is lost. -/
theorem sum_forgets_hour :
    (∀ zone, ((Value.object []).arithmetic zone).isNaN = true) ∧ ∀ clock,
      sum clock [.number 1, .object [], .number 2] = .ok (.number 2) ∧
      sum clock [.number 1, .number 2] = .ok (.number 3) := by
  refine ⟨fun _ => isNaN_arithmetic_object [], fun clock => ?_⟩
  have two : subtotal clock.zone [.number 1, .object [], .number 2] = 2 :=
    (subtotal_restarts (isNaN_arithmetic_object []) [.number 1] [.number 2]).trans subtotal_two
  have three : subtotal clock.zone [.number 1, .number 2] = 3 :=
    (subtotal_numbers [1, 2]).trans (by decide)
  have total {x : Float} {ts : List Value} (flat : terms ts = ts)
      (same : subtotal clock.zone ts = x) : sum clock ts = .ok (.number x) := by
    rw [sum_apply, flat, same]
  exact ⟨total rfl two, total rfl three⟩

end TemplateFormula.Builtin
