import TemplateFormula.Proofs.Parsing.Operands

/-!
# Expressions and documents on related cursors
-/

namespace TemplateFormula.Parser

open Pairing

variable {P : Pairing} {live : Prop} {n s m m' : Nat}

section Names

/-- What follows a parameter, or the wish for one, where no name stands. -/
def behindName (expectName : Bool) (k : TokenKind) (more : Parser (Option (List String))) :
    Parser (Option (List String)) :=
  if !expectName && k.isPunctuator "," then do
    advance
    more
  else return none

theorem behindName_keeps {more more' : Parser (Option (List String))} (expectName : Bool)
    (k : TokenKind) (h : P.Keeps False (n - 1) more more') :
    P.Keeps k.isInner n (behindName expectName k more) (behindName expectName k more') := by
  unfold behindName
  by_cases next : (!expectName && k.isPunctuator ",") = true
  · simp only [if_pos next]
    exact .take (isInner_of_isPunctuator (Bool.and_eq_true_iff.mp next).2) h
  · simp only [if_neg next]
    exact .result _ _ rfl

theorem parameters_keeps (hm : s ≤ m) (hm' : s ≤ m') (expectName : Bool) :
    P.Keeps live s (parameters m expectName) (parameters m' expectName) := by
  refine Holds.loopOn (fun r m m' _ ih expectName => ?_) hm hm' expectName
  rw [parameters, parameters]
  apply Holds.branch
  · exact .take trivial (.result _ _ rfl)
  · refine Holds.bind_kind rfl fun k => ?_
    cases k with
    | identifier name =>
      by_cases expects : expectName = true
      · simp only [if_pos expects]
        apply Holds.take rfl
        exact (ih false).map fun _ => Nat.le_refl _
      · simp only [if_neg expects]
        exact .result _ _ rfl
    | _ => exact behindName_keeps expectName _ (ih true)

theorem parameterList_keeps : P.Keeps live n parameterList parameterList := by
  apply Keeps.backtrack
  apply Holds.branch
  · apply Holds.take trivial
    apply Holds.bind_remaining
    intro s m m' _ hm hm'
    exact parameters_keeps hm hm' true
  · exact .result _ _ rfl

theorem parameter_keeps : P.Keeps live n parameter parameter := by
  refine Holds.bind_kind rfl fun k => ?_
  cases k with
  | identifier name => exact .take rfl (.result _ _ rfl)
  | _ => exact .result _ _ rfl

/-- The arrow behind parameters. -/
def arrowSign (params : List String) : Parser (Option (List String)) := do
  if ← check "=" then
    advance
    if ← check ">" then
      advance
      return some params
    else return none
  else return none

theorem arrowSign_keeps (params : List String) :
    P.Keeps live n (arrowSign params) (arrowSign params) := by
  apply Holds.branch
  · apply Holds.take trivial
    apply Holds.branch
    · exact .take trivial (.result _ _ rfl)
    · exact .result _ _ rfl
  · exact .result _ _ rfl

theorem arrowHead_keeps : P.Keeps live n arrowHead arrowHead := by
  have signed {rest : Option (List String) → Parser (Option (List String))}
      (absent : rest none = return none) (present : ∀ params, rest (some params) = arrowSign params)
      (params : Option (List String)) : P.Keeps False n (rest params) (rest params) := by
    cases params with
    | none =>
      rw [absent]
      exact .result _ _ rfl
    | some params =>
      rw [present]
      exact arrowSign_keeps params
  apply Keeps.backtrack
  apply parameterList_keeps.bind
  intro params
  cases params with
  | some params =>
    have found : P.Keeps False n (pure (some params)) (pure (some params)) := .result _ _ rfl
    exact Keeps.bind found (signed rfl fun _ => rfl)
  | none => exact parameter_keeps.bind (signed rfl fun _ => rfl)

end Names

section Operands

variable {nested : Nested} (deeper : ∀ g live n, P.Keeps live n (nested g) (nested g))
  (names : List String)
include deeper

theorem variableName_takes :
    P.Takes live n (variableName names nested) (variableName names nested) := by
  apply Holds.branch
  · exact .take trivial (.result _ _ rfl)
  · refine Holds.bind_kind rfl fun k => ?_
    cases k with
    | identifier name =>
      apply Holds.take rfl
      have alone : P.Holds False (n - 1) (fun e => taken e - 1)
        (pure (some (Expr.variable name))) (pure (some (Expr.variable name))) := .result _ _ rfl
      apply Holds.bind_check
      · by_cases known : names.contains name = true
        · simp only [known, Bool.and_self, if_true]
          apply Holds.take trivial
          apply Holds.map (deeper .operand _ _).required
          exact fun _ => Nat.le_refl _
        · simp only [known, Bool.and_false]
          exact alone.weaken False.elim
      · exact alone
    | _ => exact .result _ _ rfl

omit names in
theorem call_keeps : P.Keeps live n (call nested) (call nested) := by
  apply Keeps.backtrack
  refine Holds.bind_kind rfl fun k => ?_
  cases k with
  | identifier name =>
    apply Holds.take rfl
    apply Holds.map (list_takes deeper "(" ")").keeps
    exact fun _ => Nat.le_refl _
  | _ => exact .result _ _ rfl

omit names in
theorem arrow_keeps : P.Keeps live n (arrow nested) (arrow nested) := by
  apply arrowHead_keeps.bind
  intro params
  cases params with
  | none => exact .result _ _ rfl
  | some params => exact (expression_keeps deeper).map fun _ => Nat.le_refl _

theorem primary_keeps : P.Keeps live n (primary names nested) (primary names nested) := by
  apply Takes.keeps
  apply firstOf_holds rfl
  exact .cons (variableName_takes deeper names) (.cons literal_takes (.cons number_takes
    (.cons text_takes (.cons (template_takes deeper) (.cons (array_takes deeper)
    (.cons (object_takes deeper) (.cons (parenthesized_takes deeper)
    (.cons (island_takes deeper) .nil))))))))

theorem operandHead_keeps :
    P.Keeps live n (operandHead names nested) (operandHead names nested) := by
  apply firstOf_holds rfl
  exact .cons (call_keeps deeper) (.cons (arrow_keeps deeper)
    (.cons (primary_keeps deeper names) .nil))

omit names in
theorem memberKey_keeps : P.Keeps live n (memberKey nested) (memberKey nested) := by
  apply Keeps.required
  apply Takes.keeps
  apply firstOf_holds rfl
  exact .cons identifier_takes (.cons number_takes (.cons (island_takes deeper) .nil))

omit names in
theorem membersOf_keeps (hm : s ≤ m) (hm' : s ≤ m') (host : Expr) :
    P.Keeps live s (membersOf nested m host) (membersOf nested m' host) := by
  refine Holds.loopOn (fun r m m' _ ih host => ?_) hm hm' host
  rw [membersOf, membersOf]
  apply Holds.branch
  · apply Holds.take trivial
    apply (memberKey_keeps deeper).bind
    intro key
    exact ih (.getter host key)
  · apply Holds.branch
    · apply Holds.take trivial
      apply (expression_keeps deeper).bind
      intro key
      apply (expect_keeps "]").bind
      intro _
      exact ih (.getter host key)
    · exact .result _ _ rfl

omit names in
theorem withMembers_keeps {head : Parser (Option Expr)} (h : P.Keeps live n head head) :
    P.Keeps live n (withMembers nested head) (withMembers nested head) := by
  apply h.bind
  intro e
  cases e with
  | none => exact .result _ _ rfl
  | some e =>
    apply Holds.bind_remaining
    intro s m m' _ hm hm'
    exact (membersOf_keeps deeper hm hm' e).map fun _ => Nat.le_refl _

theorem operand_keeps : P.Keeps live n (operand names nested) (operand names nested) :=
  withMembers_keeps deeper (operandHead_keeps deeper names)

omit deeper names in
theorem unaryOps_keeps (hm : s ≤ m) (hm' : s ≤ m') : P.Keeps live s (unaryOps m) (unaryOps m') := by
  refine Holds.loop (fun r m m' _ ih => ?_) hm hm'
  rw [unaryOps, unaryOps]
  refine Holds.bind_kind rfl fun k => ?_
  cases k with
  | punctuator symbol =>
    dsimp only
    cases UnaryOp.ofSymbol? symbol with
    | none => exact .result _ _ rfl
    | some op =>
      apply Holds.take rfl
      exact ih.map fun _ => Nat.le_refl _
  | _ => exact .result _ _ rfl

theorem unary_keeps : P.Keeps live n (unary names nested) (unary names nested) := by
  apply Holds.bind_remaining
  intro s m m' _ hm hm'
  apply (unaryOps_keeps hm hm').bind
  intro ops
  apply (operand_keeps deeper names).bind
  intro e
  cases e with
  | some e => exact .result _ _ rfl
  | none =>
    by_cases none_before : ops.isEmpty = true
    · simp only [if_pos none_before]
      exact .result _ _ rfl
    · simp only [if_neg none_before]
      exact .fails _ _ _

omit deeper names in
theorem isInner_of_binaryOp? {k : TokenKind} {op : BinaryOp} (h : binaryOp? k = some op) :
    k.isInner := by
  cases k with
  | punctuator symbol => rfl
  | _ => cases h

omit deeper names in
theorem climb_keeps {right : Nat → Parser (Option Expr)}
    (rights : ∀ b n, P.Keeps False n (right b) (right b)) (bound : Nat) (hm : s ≤ m)
    (hm' : s ≤ m') (left : Expr) :
    P.Keeps live s (climb right bound m left) (climb right bound m' left) := by
  refine Holds.loopOn (fun r m m' _ ih left => ?_) hm hm' left
  rw [climb, climb]
  refine Holds.bind_kind rfl fun k => ?_
  cases op_eq : binaryOp? k with
  | none => exact .result _ _ rfl
  | some op =>
    by_cases weaker : op.precedence < bound
    · simp only [if_pos weaker]
      exact .result _ _ rfl
    · simp only [if_neg weaker]
      apply Holds.take (isInner_of_binaryOp? op_eq)
      apply (rights (op.precedence + 1) _).required.bind
      intro e
      exact ih (.binary op left e)

theorem binary_keeps (levels bound : Nat) :
    P.Keeps live n (binary names nested levels bound) (binary names nested levels bound) := by
  induction levels generalizing bound n live with
  | zero => exact unary_keeps deeper names
  | succ levels ih =>
    rw [binary]
    apply (unary_keeps deeper names).bind
    intro left
    cases left with
    | none => exact .result _ _ rfl
    | some left =>
      apply Holds.bind_remaining
      intro s m m' _ hm hm'
      have climbs : P.Keeps False s _ _ := climb_keeps (fun b _ => ih b) bound hm hm' left
      exact climbs.map fun _ => Nat.le_refl _

theorem conditional_keeps :
    P.Keeps live n (conditional names nested) (conditional names nested) := by
  apply (binary_keeps deeper names _ 1).bind
  intro test
  cases test with
  | none => exact .result _ _ rfl
  | some test =>
    apply Holds.branch
    · apply Holds.take trivial
      apply (expression_keeps deeper).bind
      intro consequent
      apply (expect_keeps ":").bind
      intro _
      exact (expression_keeps deeper).map fun _ => Nat.le_refl _
    · exact .result _ _ rfl

end Operands

theorem nestedGoal_keeps (names : List String) (depth : Nat) (g : Goal) (live : Prop) (n : Nat) :
    P.Keeps live n (nestedGoal names depth g) (nestedGoal names depth g) := by
  induction depth generalizing g live n with
  | zero => exact Holds.runsOut live n fun _ => 0
  | succ depth ih =>
    cases g with
    | expression => exact conditional_keeps ih names
    | operand => exact operand_keeps ih names

section Documents

theorem rawText_takes : P.Takes live n rawText rawText := by
  refine Holds.bind_kind rfl fun k => ?_
  cases k with
  | raw s => exact .take rfl (.result _ _ rfl)
  | _ => exact .result _ _ rfl

theorem dollarVariable_takes : P.Takes live n dollarVariable dollarVariable := by
  refine Holds.bind_kind rfl fun k => ?_
  cases k with
  | «variable» path => exact .take rfl (.result _ _ rfl)
  | _ => exact .result _ _ rfl

theorem documentParts_keeps {nested : Nested}
    (deeper : ∀ g live n, P.Keeps live n (nested g) (nested g)) (hm : s ≤ m) (hm' : s ≤ m') :
    P.Keeps live s (documentParts nested m) (documentParts nested m') := by
  refine Holds.loop (fun r m m' _ ih => ?_) hm hm'
  rw [documentParts, documentParts]
  have part : P.Takes False (r + 1) (firstOf [rawText, island nested, dollarVariable])
      (firstOf [rawText, island nested, dollarVariable]) :=
    firstOf_holds rfl (.cons rawText_takes (.cons (island_takes deeper)
      (.cons dollarVariable_takes .nil)))
  apply Holds.bind part
  intro e
  cases e with
  | none => exact .result _ _ rfl
  | some e => exact ih.map fun _ => Nat.le_refl _

end Documents

end TemplateFormula.Parser
