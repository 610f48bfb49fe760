import TemplateFormula.Proofs.Parsing.Pairing

/-!
# Operands on related cursors
-/

namespace TemplateFormula.Parser

open Pairing

variable {P : Pairing} {live : Prop} {n s m m' : Nat}

theorem literal_takes : P.Takes live n literal literal := by
  refine Holds.bind_kind rfl fun k => ?_
  cases k with
  | boolean b => exact .take rfl (.result _ _ rfl)
  | null => exact .take rfl (.result _ _ rfl)
  | undefined => exact .take rfl (.result _ _ rfl)
  | _ => exact .result _ _ rfl

theorem number_takes : P.Takes live n number number := by
  refine Holds.bind_kind rfl fun k => ?_
  cases k with
  | number x => exact .take rfl (.result _ _ rfl)
  | _ => exact .result _ _ rfl

theorem text_takes : P.Takes live n text text := by
  refine Holds.bind_kind rfl fun k => ?_
  cases k with
  | text s => exact .take rfl (.result _ _ rfl)
  | _ => exact .result _ _ rfl

theorem identifier_takes : P.Takes live n identifier identifier := by
  apply Holds.bind_current
  · intro t t' kind_eq text_eq
    rw [kind_eq, text_eq]
    cases h : t.kind with
    | identifier name => exact .take rfl (.result _ _ rfl)
    | boolean b => exact .take rfl (.result _ _ rfl)
    | null => exact .take rfl (.result _ _ rfl)
    | undefined => exact .take rfl (.result _ _ rfl)
    | _ => exact .result _ _ rfl
  · intro t t' _ stops closes
    rw [stops, closes]
    exact .result _ _ rfl

theorem expect_keeps (symbol : String) : P.Keeps live n (expect symbol) (expect symbol) :=
  Holds.branch ((Holds.advances trivial).relax fun _ => Nat.zero_le _) (.fails _ _ _)

section Lists

variable {nested : Nested} (deeper : ∀ g live n, P.Keeps live n (nested g) (nested g))
include deeper

theorem expression_keeps : P.Keeps live n (expression nested) (expression nested) :=
  (deeper .expression live n).required

theorem members_keeps (closing : String) (hm : s ≤ m) (hm' : s ≤ m') :
    P.Keeps live s (members nested closing m) (members nested closing m') := by
  refine Holds.loop (fun s m m' _ ih => ?_) hm hm'
  rw [members, members]
  apply (expression_keeps deeper).bind
  intro e
  apply Holds.branch
  · apply Holds.take trivial
    exact ih.map fun _ => Nat.le_refl _
  · apply Holds.branch
    · exact .take trivial (.result _ _ rfl)
    · exact .fails _ _ _

theorem list_takes (opening closing : String) :
    P.Takes live n (list nested opening closing) (list nested opening closing) := by
  apply Holds.branch
  · apply Holds.take trivial
    apply Holds.branch
    · exact .take trivial (.result _ _ rfl)
    · apply Holds.bind_remaining
      intro s m m' _ hm hm'
      exact (members_keeps deeper closing hm hm').map fun _ => Nat.le_refl _
  · exact .result _ _ rfl

theorem array_takes : P.Takes live n (array nested) (array nested) :=
  (list_takes deeper "[" "]").map fun es => by cases es <;> exact Nat.le_refl _

theorem parenthesized_takes : P.Takes live n (parenthesized nested) (parenthesized nested) := by
  apply Holds.bind (list_takes deeper "(" ")")
  intro es
  match es with
  | none => exact .result _ _ rfl
  | some [] => exact .result _ _ rfl
  | some [e] => exact .result _ _ rfl
  | some (e :: e' :: es) => exact .result _ _ rfl

theorem bracketed_takes : P.Takes live n (bracketed nested) (bracketed nested) := by
  apply Holds.branch
  · apply Holds.take trivial
    apply (expression_keeps deeper).bind
    intro e
    apply (expect_keeps "]").bind
    intro _
    exact .result _ _ rfl
  · exact .result _ _ rfl

theorem objectKey_keeps : P.Keeps live n (objectKey nested) (objectKey nested) := by
  apply Keeps.required
  apply Takes.keeps
  apply firstOf_holds rfl
  exact .cons identifier_takes (.cons text_takes (.cons number_takes
    (.cons (bracketed_takes deeper) .nil)))

theorem objectMembers_keeps (hm : s ≤ m) (hm' : s ≤ m') :
    P.Keeps live s (objectMembers nested m) (objectMembers nested m') := by
  refine Holds.loop (fun s m m' _ ih => ?_) hm hm'
  rw [objectMembers, objectMembers]
  apply (objectKey_keeps deeper).bind
  intro key
  apply (expect_keeps ":").bind
  intro _
  apply (expression_keeps deeper).bind
  intro value
  apply Holds.branch
  · apply Holds.take trivial
    exact ih.map fun _ => Nat.le_refl _
  · apply Holds.branch
    · exact .take trivial (.result _ _ rfl)
    · exact .fails _ _ _

theorem object_takes : P.Takes live n (object nested) (object nested) := by
  apply Holds.branch
  · apply Holds.take trivial
    apply Holds.branch
    · exact .take trivial (.result _ _ rfl)
    · apply Holds.bind_remaining
      intro s m m' _ hm hm'
      exact (objectMembers_keeps deeper hm hm').map fun _ => Nat.le_refl _
  · exact .result _ _ rfl

theorem templateParts_keeps (hm : s ≤ m) (hm' : s ≤ m') :
    P.Keeps live s (templateParts nested m) (templateParts nested m') := by
  refine Holds.loop (fun s m m' _ ih => ?_) hm hm'
  rw [templateParts, templateParts]
  apply Holds.branch
  · exact .take trivial (.result _ _ rfl)
  · refine Holds.bind_kind rfl fun k => ?_
    cases k with
    | openHole =>
      apply Holds.take rfl
      apply (expression_keeps deeper).bind
      intro e
      refine Holds.bind_kind rfl fun k => ?_
      by_cases closes : (k == .closeHole) = true
      · simp only [if_pos closes]
        have inner : k.isInner := by cases k <;> first | rfl | cases closes
        apply Holds.take inner
        exact (ih.narrow (Nat.sub_le s 1)).map fun _ => Nat.le_refl _
      · simp only [if_neg closes]
        exact .fails _ _ _
    | templateRaw s =>
      apply Holds.take rfl
      exact ih.map fun _ => Nat.le_refl _
    | _ => exact .fails _ _ _

theorem template_takes : P.Takes live n (template nested) (template nested) := by
  apply Holds.branch
  · apply Holds.take trivial
    apply Holds.bind_remaining
    intro s m m' _ hm hm'
    exact (templateParts_keeps deeper hm hm').map fun _ => Nat.le_refl _
  · exact .result _ _ rfl

end Lists

theorem skipBlankChars_keeps (hm : s ≤ m) (hm' : s ≤ m') :
    P.Keeps live s (skipBlankChars m) (skipBlankChars m') := by
  refine Holds.loop (fun s m m' _ ih => ?_) hm hm'
  rw [skipBlankChars, skipBlankChars]
  refine Holds.bind_kind rfl fun k => ?_
  by_cases blank : isBlankChar k = true
  · simp only [if_pos blank]
    have inner : k.isInner := by cases k <;> first | rfl | cases blank
    exact .take inner ih
  · simp only [if_neg blank]
    exact .result _ _ rfl

theorem skipBlanks_keeps : P.Keeps live n skipBlanks skipBlanks := by
  apply Holds.bind_remaining
  intro s m m' _ hm hm'
  exact skipBlankChars_keeps hm hm'

section Filters

variable {nested : Nested} {island island' : Parser (Option Expr)}
  (deeper : ∀ g live n, P.Keeps live n (nested g) (nested g))
  (islands : P.Takes False n island island')
include deeper islands

theorem argumentValue_takes (le : s ≤ n) :
    P.Takes live s (argumentValue nested island) (argumentValue nested island') := by
  apply firstOf_holds rfl
  exact .cons literal_takes (.cons number_takes (.cons text_takes (.cons (template_takes deeper)
    (.cons (array_takes deeper) (.cons (islands.narrow le) (.cons (object_takes deeper) .nil))))))

theorem argumentParts_keeps (exact : P.exact) (le : s ≤ n) (hm : s ≤ m) (hm' : s ≤ m')
    (parts : List FilterArg) :
    P.Keeps live s (argumentParts nested island m parts)
      (argumentParts nested island' m' parts) := by
  refine Holds.loopOn (fun r m m' lt ih parts => ?_) hm hm' parts
  rw [argumentParts, argumentParts]
  refine Holds.bind_kind_of_exact exact fun k => ?_
  by_cases ends : endsArgument k = true
  · simp only [if_pos ends]
    exact .result _ _ rfl
  · simp only [if_neg ends]
    apply Holds.bind ((argumentValue_takes deeper islands (show r + 1 ≤ n by omega)))
    intro e
    cases e with
    | some e => exact ih (.expr e :: parts)
    | none =>
      refine Holds.bind_current ?_ fun _ _ rough _ _ => absurd exact rough
      intro t t' kind_eq text_eq
      rw [kind_eq, text_eq]
      by_cases free : isFreeText t.kind = true
      · simp only [if_pos free]
        have inner : t.kind.isInner := by
          cases h : t.kind <;> rw [h] at free <;> first | rfl | cases free
        exact .take inner (ih _)
      · simp only [if_neg free]
        exact .fails _ _ _

theorem arguments_keeps (exact : P.exact) (le : s ≤ n) (hm : s ≤ m) (hm' : s ≤ m') :
    P.Keeps live s (arguments nested island m) (arguments nested island' m') := by
  refine Holds.loop (fun r m m' lt ih => ?_) hm hm'
  rw [arguments, arguments]
  apply Holds.branch
  · apply Holds.take trivial
    apply skipBlanks_keeps.bind
    intro _
    apply Holds.bind_remaining
    intro k l l' small hl hl'
    have small : k ≤ r := small
    apply (argumentParts_keeps deeper islands exact (by omega) hl hl' []).bind
    intro parts
    exact (ih.narrow small).map fun _ => Nat.le_refl _
  · exact .result _ _ rfl

omit deeper islands in
theorem filterName_keeps : P.Keeps live n filterName filterName := by
  refine Holds.bind_kind rfl fun k => ?_
  cases k with
  | identifier name => exact .take rfl (.result _ _ rfl)
  | _ => exact .fails _ _ _

theorem filterCalls_keeps (le : s ≤ n) (hm : s ≤ m) (hm' : s ≤ m') :
    P.Keeps live s (filterCalls nested island m) (filterCalls nested island' m') := by
  refine Holds.loop (fun r m m' lt ih => ?_) hm hm'
  rw [filterCalls, filterCalls]
  apply Holds.filter
  · intro exact
    apply Holds.take trivial
    apply skipBlanks_keeps.bind
    intro _
    apply filterName_keeps.bind
    intro name
    apply skipBlanks_keeps.bind
    intro _
    apply Holds.bind_remaining
    intro k l l' small hl hl'
    have small : k ≤ r := small
    apply (arguments_keeps deeper islands exact (by omega) hl hl').bind
    intro args
    exact (ih.narrow small).map fun _ => Nat.le_refl _
  · exact .result _ _ rfl

theorem piped_keeps : P.Keeps live n (piped nested island) (piped nested island') := by
  apply (deeper .expression live n).bind
  intro e
  cases e with
  | none => exact .result _ _ rfl
  | some e =>
    apply Holds.bind_remaining
    intro k l l' small hl hl'
    apply (filterCalls_keeps deeper islands small hl hl').bind
    intro calls
    cases calls <;> exact .result _ _ rfl

end Filters

theorem islandNested_takes {nested : Nested}
    (deeper : ∀ g live n, P.Keeps live n (nested g) (nested g)) (hm : s ≤ m) (hm' : s ≤ m') :
    P.Takes live s (islandNested nested m) (islandNested nested m') := by
  refine Holds.loop (fun r m m' lt ih => ?_) hm hm'
  have inside : P.Keeps False (r + 1 - 1) (required (piped nested (islandNested nested m)))
    (required (piped nested (islandNested nested m'))) := (piped_keeps deeper ih).required
  exact enclosed_takes inside

theorem island_takes {nested : Nested}
    (deeper : ∀ g live n, P.Keeps live n (nested g) (nested g)) :
    P.Takes live n (island nested) (island nested) := by
  apply Holds.bind_remaining
  intro s m m' _ hm hm'
  exact islandNested_takes deeper hm hm'

end TemplateFormula.Parser
