import TemplateFormula.Proofs.Buffered.Following

/-!
# Backtracking over a buffer of tokens

Every parser of the grammar, run over a buffer, follows the one on cursors. It stays where it was if
it does not match and moves on otherwise. This is passed on from a parser for nested goals to the
parsers made with it, and so down all levels of depth. Loops end since every round moves on, so a
bound on the tokens ahead is never used up.
-/

namespace TemplateFormula

namespace Buffered

variable {l : Lexer} {d i : Nat}

section Operands

theorem literal_follows : Follows l d i (Moves i) literal Parser.literal := by
  apply Follows.bind_kind
  intro k inked
  cases k with
  | boolean b => exact .take (inked nofun) (.result (Nat.lt_succ_self i))
  | null => exact .take (inked nofun) (.result (Nat.lt_succ_self i))
  | undefined => exact .take (inked nofun) (.result (Nat.lt_succ_self i))
  | _ => exact .result rfl

theorem number_follows : Follows l d i (Moves i) number Parser.number := by
  apply Follows.bind_kind
  intro k inked
  cases k with
  | number x => exact .take (inked nofun) (.result (Nat.lt_succ_self i))
  | _ => exact .result rfl

theorem text_follows : Follows l d i (Moves i) text Parser.text := by
  apply Follows.bind_kind
  intro k inked
  cases k with
  | text s => exact .take (inked nofun) (.result (Nat.lt_succ_self i))
  | _ => exact .result rfl

theorem identifier_follows : Follows l d i (Moves i) identifier Parser.identifier := by
  apply Follows.bind_current
  intro t known
  have inked (goes : t.kind ≠ .eof) : Inked l i := by
    intro t' same
    rw [known] at same
    exact Option.some.inj same ▸ goes
  cases shape : t.kind with
  | identifier name =>
    exact .take (inked (by rw [shape]; nofun)) (.result (Nat.lt_succ_self i))
  | boolean b => exact .take (inked (by rw [shape]; nofun)) (.result (Nat.lt_succ_self i))
  | null => exact .take (inked (by rw [shape]; nofun)) (.result (Nat.lt_succ_self i))
  | undefined => exact .take (inked (by rw [shape]; nofun)) (.result (Nat.lt_succ_self i))
  | _ => exact .result rfl

end Operands

/-- One parser for nested goals follows another at a depth, wherever it starts. -/
def FollowsDeeper (l : Lexer) (d : Nat) (nested' : Nested) (nested : Parser.Nested) : Prop :=
  ∀ g i, Follows l d i (Moves i) (nested' g) (nested g)

section Lists

/-- Behind an item there are a comma and more items, or a closing bracket. -/
theorem separated_follows {γ : Type} {start : Nat} (item : γ) (closing : String)
    {more' : Buffered (List γ)} {more : Parser (List γ)} (moved : start < i)
    (next : Follows l d (i + 1) (Beyond (i + 1)) more' more) :
    Follows l d i (Beyond start)
      (do
        if ← check "," then
          advance
          return item :: (← more')
        else if ← check closing then
          advance
          return [item]
        else fatal)
      (do
        if ← Parser.check "," then
          Parser.advance
          return item :: (← more)
        else if ← Parser.check closing then
          Parser.advance
          return [item]
        else Parser.fatal) := by
  apply Follows.branch
  · intro inked
    apply Follows.take inked
    apply next.map
    intro _ k (further : i + 1 < k)
    exact Nat.lt_trans moved (Nat.lt_of_succ_lt further)
  · apply Follows.branch
    · intro inked
      exact .take inked (.result (Nat.lt_succ_of_lt moved))
    · exact .fails

variable {nested' : Nested} {nested : Parser.Nested} (deeper : FollowsDeeper l d nested' nested)
include deeper

theorem expression_follows :
    Follows l d i (Beyond i) (expression nested') (Parser.expression nested) :=
  (deeper .expression i).required

theorem members_follows (closing : String) {n m : Nat} (long : l.tokens.length - i ≤ n)
    (long' : l.tokens.length - i ≤ m) :
    Follows l d i (Beyond i) (members nested' closing n) (Parser.members nested closing m) := by
  apply Follows.loop (R := Beyond) _ long long'
  intro n m i _ next
  apply (expression_follows deeper).bind
  intro e j (moved : i < j)
  exact separated_follows e closing moved (next (j + 1) (Nat.lt_succ_of_lt moved))

/-- A list matches where its opening bracket stands. -/
theorem list_follows (opening closing : String) :
    Follows l d i (fun es j => Moves i es j ∧
        ((l.cursorAt i).current.isPunctuator opening = true → es ≠ none))
      (list nested' opening closing) (Parser.list nested opening closing) := by
  apply Follows.bind_check
  intro c known
  cases c with
  | false => exact .result ⟨rfl, fun opens => absurd (known.symm.trans opens) Bool.false_ne_true⟩
  | true =>
    apply Follows.take (.of_isPunctuator known)
    apply Follows.branch
    · intro inked
      exact .take inked (.result ⟨Nat.lt_succ_of_lt (Nat.lt_succ_self i), fun _ => nofun⟩)
    · apply Follows.bind_ahead
      intro n m long long'
      apply (members_follows deeper closing long long').map
      exact fun _ _ further => ⟨Nat.lt_of_succ_lt further, fun _ => nofun⟩

theorem array_follows : Follows l d i (Moves i) (array nested') (Parser.array nested) := by
  apply (list_follows deeper "[" "]").map
  intro es j moved
  cases es with
  | none => exact moved.1
  | some es => exact moved.1

theorem parenthesized_follows :
    Follows l d i (Moves i) (parenthesized nested') (Parser.parenthesized nested) := by
  apply (list_follows deeper "(" ")").bind
  intro es j moved
  match es with
  | none => exact .result moved.1
  | some [] => exact .result moved.1
  | some [e] => exact .result moved.1
  | some (e :: e' :: es) => exact .result moved.1

theorem bracketed_follows :
    Follows l d i (Moves i) (bracketed nested') (Parser.bracketed nested) := by
  apply Follows.branch
  · intro inked
    apply Follows.take inked
    apply (expression_follows deeper).bind
    intro e j (moved : i + 1 < j)
    apply (Follows.expects "]").map
    intro _ k (further : j < k)
    exact Nat.lt_trans (Nat.lt_of_succ_lt moved) further
  · exact .result rfl

theorem objectKey_follows :
    Follows l d i (Moves i) (objectKey nested')
      (Parser.firstOf [Parser.identifier, Parser.text, Parser.number, Parser.bracketed nested]) :=
  .firstOf (.cons identifier_follows (.cons text_follows (.cons number_follows
    (.cons (bracketed_follows deeper) .nil))))

theorem objectMembers_follows {n m : Nat} (long : l.tokens.length - i ≤ n)
    (long' : l.tokens.length - i ≤ m) :
    Follows l d i (Beyond i) (objectMembers nested' n) (Parser.objectMembers nested m) := by
  apply Follows.loop (R := Beyond) _ long long'
  intro n m i _ next
  apply (objectKey_follows deeper).required.bind
  intro key i₁ (moved₁ : i < i₁)
  apply (Follows.expects ":").bind
  intro _ i₂ (moved₂ : i₁ < i₂)
  apply (expression_follows deeper).bind
  intro value j (moved₃ : i₂ < j)
  have moved : i < j := Nat.lt_trans moved₁ (Nat.lt_trans moved₂ moved₃)
  exact separated_follows (key, value) "\x7d" moved (next (j + 1) (Nat.lt_succ_of_lt moved))

theorem object_follows : Follows l d i (Moves i) (object nested') (Parser.object nested) := by
  apply Follows.branch
  · intro inked
    apply Follows.take inked
    apply Follows.branch
    · intro inked
      exact .take inked (.result (Nat.lt_succ_of_lt (Nat.lt_succ_self i)))
    · apply Follows.bind_ahead
      intro n m long long'
      apply (objectMembers_follows deeper long long').map
      exact fun _ _ further => Nat.lt_of_succ_lt further
  · exact .result rfl

theorem templateParts_follows {n m : Nat} (long : l.tokens.length - i ≤ n)
    (long' : l.tokens.length - i ≤ m) :
    Follows l d i (Beyond i) (templateParts nested' n) (Parser.templateParts nested m) := by
  apply Follows.loop (R := Beyond) _ long long'
  intro n m i _ next
  have more {j : Nat} (moved : i < j) (e : Expr) :
      Follows l d j (Beyond i) (do return e :: (← templateParts nested' n))
        (do return e :: (← Parser.templateParts nested m)) :=
    (next j moved).map fun _ _ further => Nat.lt_trans moved further
  apply Follows.branch
  · intro inked
    exact .take inked (.result (Nat.lt_succ_self i))
  · apply Follows.bind_kind
    intro k inked
    cases k with
    | openHole =>
      apply Follows.take (inked nofun)
      apply (expression_follows deeper).bind
      intro e j (moved : i + 1 < j)
      apply Follows.branch_kind rfl
      · intro inked
        exact .take inked (more (Nat.lt_succ_of_lt (Nat.lt_of_succ_lt moved)) e)
      · exact .fails
    | templateRaw s => exact .take (inked nofun) (more (Nat.lt_succ_self i) _)
    | _ => exact .fails

theorem template_follows :
    Follows l d i (Moves i) (template nested') (Parser.template nested) := by
  apply Follows.branch
  · intro inked
    apply Follows.take inked
    apply Follows.bind_ahead
    intro n m long long'
    apply (templateParts_follows deeper long long').map
    exact fun _ _ further => Nat.lt_of_succ_lt further
  · exact .result rfl

end Lists

section Filters

theorem skipBlankChars_follows {n m : Nat} (long : l.tokens.length - i ≤ n)
    (long' : l.tokens.length - i ≤ m) :
    Follows l d i (Onward i) (skipBlankChars n) (Parser.skipBlankChars m) := by
  apply Follows.loop (R := Onward) _ long long'
  intro n m i _ next
  apply Follows.branch_kind rfl
  · intro inked
    apply Follows.take inked
    apply (next (i + 1) (Nat.lt_succ_self i)).mono
    exact fun _ _ further => Nat.le_of_succ_le further
  · exact .result (Nat.le_refl i)

theorem skipBlanks_follows : Follows l d i (Onward i) skipBlanks Parser.skipBlanks := by
  apply Follows.bind_ahead
  intro n m long long'
  exact skipBlankChars_follows long long'

theorem filterName_follows : Follows l d i (Beyond i) filterName Parser.filterName := by
  apply Follows.bind_kind
  intro k inked
  cases k with
  | identifier name => exact .take (inked nofun) (.result (Nat.lt_succ_self i))
  | _ => exact .fails

variable {nested' : Nested} {nested : Parser.Nested} {island' : Buffered (Option Expr)}
  {island : Parser (Option Expr)} {start : Nat} (deeper : FollowsDeeper l d nested' nested)
  (islands : ∀ j, start ≤ j → Follows l d j (Moves j) island' island)
include deeper islands

theorem argumentValue_follows (behind : start ≤ i) :
    Follows l d i (Moves i) (argumentValue nested' island') (Parser.argumentValue nested island) :=
  .firstOf (.cons literal_follows (.cons number_follows (.cons text_follows
    (.cons (template_follows deeper) (.cons (array_follows deeper) (.cons (islands i behind)
      (.cons (object_follows deeper) .nil)))))))

theorem argumentParts_follows (behind : start ≤ i) {n m : Nat} (long : l.tokens.length - i ≤ n)
    (long' : l.tokens.length - i ≤ m) (parts : List FilterArg) :
    Follows l d i (Onward i) (argumentParts nested' island' n parts)
      (Parser.argumentParts nested island m parts) := by
  apply Follows.rounds (R := Onward) _ long long'
  intro n m j parts passed next
  apply Follows.bind_kind
  intro k _
  by_cases ends : Parser.endsArgument k = true
  · simp only [if_pos ends]
    exact .result (Nat.le_refl j)
  · simp only [if_neg ends]
    apply (argumentValue_follows deeper islands (Nat.le_trans behind passed)).bind
    intro e j' moved
    cases e with
    | some e =>
      apply (next j' _ moved).mono
      exact fun _ _ further => Nat.le_trans (Nat.le_of_lt moved) further
    | none =>
      obtain rfl : j' = j := moved
      apply Follows.bind_current
      intro t known
      by_cases free : Parser.isFreeText t.kind = true
      · simp only [if_pos free]
        have inked : Inked l j' := by
          intro t' same ends
          rw [known] at same
          rw [Option.some.inj same, ends] at free
          cases free
        apply Follows.take inked
        apply (next (j' + 1) _ (Nat.lt_succ_self j')).mono
        exact fun _ _ further => Nat.le_of_succ_le further
      · simp only [if_neg free]
        exact .fails

theorem arguments_follows (behind : start ≤ i) {n m : Nat} (long : l.tokens.length - i ≤ n)
    (long' : l.tokens.length - i ≤ m) :
    Follows l d i (Onward i) (arguments nested' island' n)
      (Parser.arguments nested island m) := by
  apply Follows.loop (R := Onward) _ long long'
  intro n m j passed next
  apply Follows.branch
  · intro inked
    apply Follows.take inked
    apply skipBlanks_follows.bind
    intro _ j₁ (moved₁ : j + 1 ≤ j₁)
    apply Follows.bind_ahead
    intro n' m' long long'
    apply (argumentParts_follows deeper islands (by omega) long long' []).bind
    intro parts j₂ (moved₂ : j₁ ≤ j₂)
    have moved : j < j₂ := Nat.le_trans moved₁ moved₂
    apply (next j₂ moved).map
    exact fun _ _ further => Nat.le_trans (Nat.le_of_lt moved) further
  · exact .result (Nat.le_refl j)

theorem filterCalls_follows (behind : start ≤ i) {n m : Nat} (long : l.tokens.length - i ≤ n)
    (long' : l.tokens.length - i ≤ m) :
    Follows l d i (Onward i) (filterCalls nested' island' n)
      (Parser.filterCalls nested island m) := by
  apply Follows.loop (R := Onward) _ long long'
  intro n m j passed next
  apply Follows.branch_kind rfl
  · intro inked
    apply Follows.take inked
    apply skipBlanks_follows.bind
    intro _ j₁ (moved₁ : j + 1 ≤ j₁)
    apply filterName_follows.bind
    intro name j₂ (moved₂ : j₁ < j₂)
    apply skipBlanks_follows.bind
    intro _ j₃ (moved₃ : j₂ ≤ j₃)
    apply Follows.bind_ahead
    intro n' m' long long'
    apply (arguments_follows deeper islands (by omega) long long').bind
    intro args j₄ (moved₄ : j₃ ≤ j₄)
    have moved : j < j₄ := by omega
    apply (next j₄ moved).map
    exact fun _ _ further => Nat.le_trans (Nat.le_of_lt moved) further
  · exact .result (Nat.le_refl j)

theorem piped_follows (behind : start ≤ i) :
    Follows l d i (Moves i) (piped nested' island') (Parser.piped nested island) := by
  apply (deeper .expression i).bind
  intro e j moved
  cases e with
  | none => exact .result moved
  | some e =>
    apply Follows.bind_ahead
    intro n m long long'
    have behind' : start ≤ j := Nat.le_trans behind (Nat.le_of_lt moved)
    apply (filterCalls_follows deeper islands behind' long long').bind
    intro calls k (further : j ≤ k)
    have moved' : i < k := Nat.lt_of_lt_of_le moved further
    cases calls with
    | nil => exact .result moved'
    | cons call calls => exact .result moved'

omit deeper islands in
theorem islandWith_follows (deeper : FollowsDeeper l d nested' nested)
    (islands : ∀ j, i < j → Follows l d j (Moves j) island' island) :
    Follows l d i (Moves i) (islandWith nested' island') (Parser.islandWith nested island) := by
  apply Follows.branch_kind rfl
  · intro inked
    apply Follows.take inked
    apply (piped_follows deeper islands (Nat.le_refl (i + 1))).required.bind
    intro body j (moved : i + 1 < j)
    apply Follows.branch_kind rfl
    · intro inked
      exact .take inked (.result (Nat.lt_succ_of_lt (Nat.lt_of_succ_lt moved)))
    · exact .fails
  · exact .result rfl

end Filters

section Calls

variable {nested' : Nested} {nested : Parser.Nested} (deeper : FollowsDeeper l d nested' nested)
include deeper

theorem island_follows : Follows l d i (Moves i) (island nested') (Parser.island nested) := by
  apply Follows.bind_ahead
  intro n m long long'
  apply Follows.loop (R := Moves) _ long long'
  intro n m j _ next
  exact islandWith_follows deeper next

theorem variableName_follows (names : List String) :
    Follows l d i (Moves i) (variableName names nested') (Parser.variableName names nested) := by
  apply Follows.branch
  · intro inked
    exact .take inked (.result (Nat.lt_succ_self i))
  · apply Follows.bind_kind
    intro k inked
    cases k with
    | identifier name =>
      apply Follows.take (inked nofun)
      apply Follows.bind_check
      intro c known
      by_cases spaced : (c && names.contains name) = true
      · simp only [if_pos spaced]
        rw [(Bool.and_eq_true_iff.1 spaced).1] at known
        apply Follows.take (.of_isPunctuator known)
        apply (deeper .operand (i + 1 + 1)).required.map
        exact fun _ _ further => Nat.lt_of_succ_lt (Nat.lt_of_succ_lt further)
      · simp only [if_neg spaced]
        exact .result (Nat.lt_succ_self i)
    | _ => exact .result rfl

omit deeper in
/-- Without its opening bracket there is no list. -/
theorem list_unopened {opening closing : String} {c : Cursor}
    (other : c.current.isPunctuator opening = false) :
    Parser.list nested opening closing c = .ok (none, c) := by
  have seen : Parser.check opening c = .ok (false, c) := by rw [← other]; rfl
  rw [Parser.list, Parser.bind_of_ok seen]
  rfl

theorem call_follows : Follows l d i (Moves i) (call nested') (Parser.call nested) := by
  apply Follows.attempt
  rw [Parser.orBack_bind]
  apply Follows.bind_kind
  intro k inked
  cases k with
  | identifier name =>
    rw [Parser.orBack_bind]
    apply Follows.take (inked nofun)
    apply Follows.peek
    · intro opens
      rw [Parser.orBack_bind]
      apply (list_follows deeper "(" ")").bind
      intro es j known
      cases es with
      | none => exact absurd rfl (known.2 opens)
      | some es => exact .result (Nat.lt_of_succ_lt known.1)
    · intro other
      apply Follows.back_step _ rfl
      rw [Parser.bind_of_ok (list_unopened other)]
      rfl
  | _ => exact .stay rfl

omit deeper in
theorem parameters_follows {start : Nat} (passed : start ≤ i) {n m : Nat}
    (long : l.tokens.length - i ≤ n) (long' : l.tokens.length - i ≤ m) (expectName : Bool) :
    Follows l d i (Moves start) (parameters start n expectName)
      (Parser.orBack (l.cursorAt start) (Parser.parameters m expectName)) := by
  apply Follows.rounds (R := fun _ => Moves start)
    (f := fun m expectName => Parser.orBack (l.cursorAt start) (Parser.parameters m expectName))
    _ long long'
  intro n m j expectName further next
  have behind : start ≤ j := Nat.le_trans passed further
  rw [Parser.parameters, Parser.orBack_bind]
  apply Follows.bind_check
  intro c known
  cases c with
  | true =>
    simp only [if_true]
    rw [Parser.orBack_bind]
    exact .take (.of_isPunctuator known) (.result (Nat.lt_succ_of_le behind))
  | false =>
    simp only [Bool.false_eq_true, if_false]
    rw [Parser.orBack_bind]
    apply Follows.bind_kind
    intro k inked
    have back : Follows l d j (Moves start : Option (List String) → Nat → Prop)
        (do goBack start; return none) (Parser.orBack (l.cursorAt start) (pure none)) :=
      .back rfl behind rfl
    have comma : Follows l d j (Moves start)
        (if !expectName && k.isPunctuator "," then do advance; parameters start n true
          else do goBack start; return none)
        (Parser.orBack (l.cursorAt start) (if !expectName && k.isPunctuator "," then do
          Parser.advance; Parser.parameters m true else return none)) := by
      by_cases goes : (!expectName && k.isPunctuator ",") = true
      · rw [if_pos goes, if_pos goes, Parser.orBack_bind]
        have shape : k ≠ .eof := by
          rintro rfl
          rw [Bool.and_eq_true_iff] at goes
          cases goes.2
        exact .take (inked shape) (next (j + 1) true (Nat.lt_succ_self j))
      · rw [if_neg goes, if_neg goes]
        exact back
    cases k with
    | identifier name =>
      dsimp only
      cases expectName with
      | true =>
        rw [if_pos rfl, if_pos rfl, Parser.orBack_bind]
        apply Follows.take (inked fun same => TokenKind.noConfusion same)
        rw [Parser.orBack_map]
        apply (next (j + 1) false (Nat.lt_succ_self j)).map
        intro names k moved
        cases names with
        | none => exact moved
        | some names => exact moved
      | false =>
        rw [if_neg Bool.false_ne_true, if_neg Bool.false_ne_true]
        exact back
    | _ => exact comma

omit deeper in
theorem parameterList_follows :
    Follows l d i (Moves i) parameterList Parser.parameterList := by
  apply Follows.attempt
  rw [Parser.orBack_bind]
  apply Follows.bind_check
  intro c known
  cases c with
  | true =>
    simp only [if_true]
    apply Follows.bind_place
    rw [Parser.orBack_bind]
    apply Follows.take (.of_isPunctuator known)
    rw [Parser.orBack_bind]
    apply Follows.bind_ahead
    intro n m long long'
    exact parameters_follows (Nat.le_succ i) long long' true
  | false => exact .stay rfl

omit deeper in
theorem parameter_follows : Follows l d i (Moves i) parameter Parser.parameter := by
  apply Follows.bind_kind
  intro k inked
  cases k with
  | identifier name => exact .take (inked nofun) (.result (Nat.lt_succ_self i))
  | _ => exact .result rfl

omit deeper in
theorem arrowSign_follows {start : Nat} (passed : start < i) (params : List String) :
    Follows l d i (Moves start) (arrowSign start params)
      (Parser.orBack (l.cursorAt start) (Parser.arrowSign params)) := by
  have back {j : Nat} (behind : start < j) :
      Follows l d j (Moves start : Option (List String) → Nat → Prop)
        (do goBack start; return none) (Parser.orBack (l.cursorAt start) (pure none)) :=
    .back rfl (Nat.le_of_lt behind) rfl
  rw [Parser.arrowSign, Parser.orBack_bind]
  apply Follows.bind_check
  intro c known
  cases c with
  | false => exact back passed
  | true =>
    simp only [if_true]
    rw [Parser.orBack_bind]
    apply Follows.take (.of_isPunctuator known)
    rw [Parser.orBack_bind]
    apply Follows.bind_check
    intro c known
    cases c with
    | false => exact back (Nat.lt_succ_of_lt passed)
    | true =>
      simp only [if_true]
      rw [Parser.orBack_bind]
      exact .take (.of_isPunctuator known) (.result (Nat.lt_succ_of_lt (Nat.lt_succ_of_lt passed)))

omit deeper in
theorem arrowHead_follows : Follows l d i (Moves i) arrowHead Parser.arrowHead := by
  apply Follows.attempt
  apply Follows.bind_place
  rw [Parser.orBack_bind]
  apply parameterList_follows.bind
  intro listed j moved
  cases listed with
  | some params => exact arrowSign_follows moved params
  | none =>
    obtain rfl : j = i := moved
    dsimp only
    rw [Parser.orBack_bind]
    apply parameter_follows.bind
    intro named j' moved
    cases named with
    | some params => exact arrowSign_follows moved params
    | none =>
      obtain rfl : j' = j := moved
      exact .stay rfl

theorem arrow_follows : Follows l d i (Moves i) (arrow nested') (Parser.arrow nested) := by
  apply arrowHead_follows.bind
  intro params j moved
  cases params with
  | none => exact .result moved
  | some params =>
    apply (expression_follows deeper).map
    exact fun _ _ further => Nat.lt_trans moved further

theorem primary_follows (names : List String) :
    Follows l d i (Moves i) (primary names nested') (Parser.primary names nested) :=
  .firstOf (.cons (variableName_follows deeper names) (.cons literal_follows (.cons number_follows
    (.cons text_follows (.cons (template_follows deeper) (.cons (array_follows deeper)
      (.cons (object_follows deeper) (.cons (parenthesized_follows deeper)
        (.cons (island_follows deeper) .nil)))))))))

theorem operandHead_follows (names : List String) :
    Follows l d i (Moves i) (operandHead names nested') (Parser.operandHead names nested) :=
  .firstOf (.cons (call_follows deeper) (.cons (arrow_follows deeper)
    (.cons (primary_follows deeper names) .nil)))

theorem memberKey_follows :
    Follows l d i (Beyond i) (memberKey nested') (Parser.memberKey nested) := by
  apply Follows.required
  exact .firstOf (.cons identifier_follows (.cons number_follows
    (.cons (island_follows deeper) .nil)))

theorem membersOf_follows {n m : Nat} (long : l.tokens.length - i ≤ n)
    (long' : l.tokens.length - i ≤ m) (host : Expr) :
    Follows l d i (Onward i) (membersOf nested' n host) (Parser.membersOf nested m host) := by
  apply Follows.rounds (R := Onward) _ long long'
  intro n m i host _ next
  have more {j : Nat} (moved : i < j) (key : Expr) :
      Follows l d j (Onward i) (membersOf nested' n (.getter host key))
        (Parser.membersOf nested m (.getter host key)) :=
    (next j _ moved).mono fun _ _ further => Nat.le_trans (Nat.le_of_lt moved) further
  apply Follows.branch
  · intro inked
    apply Follows.take inked
    apply (memberKey_follows deeper).bind
    intro key j (moved : i + 1 < j)
    exact more (Nat.lt_of_succ_lt moved) key
  · apply Follows.branch
    · intro inked
      apply Follows.take inked
      apply (expression_follows deeper).bind
      intro key j (moved : i + 1 < j)
      apply (Follows.expects "]").bind
      intro _ j' (further : j < j')
      exact more (Nat.lt_trans (Nat.lt_of_succ_lt moved) further) key
    · exact .result (Nat.le_refl i)

theorem withMembers_follows {head' : Buffered (Option Expr)} {head : Parser (Option Expr)}
    (heads : Follows l d i (Moves i) head' head) :
    Follows l d i (Moves i) (withMembers nested' head') (Parser.withMembers nested head) := by
  apply heads.bind
  intro e j moved
  cases e with
  | none => exact .result moved
  | some e =>
    apply Follows.bind_ahead
    intro n m long long'
    apply (membersOf_follows deeper long long' e).map
    exact fun _ _ further => Nat.lt_of_lt_of_le moved further

theorem operand_follows (names : List String) :
    Follows l d i (Moves i) (operand names nested') (Parser.operand names nested) :=
  withMembers_follows deeper (operandHead_follows deeper names)

end Calls

section Operators

/-- Without operators nothing is taken. -/
theorem unaryOps_follows {n m : Nat} (long : l.tokens.length - i ≤ n)
    (long' : l.tokens.length - i ≤ m) :
    Follows l d i (fun ops j => i ≤ j ∧ (ops = [] → j = i)) (unaryOps n) (Parser.unaryOps m) := by
  apply Follows.loop (R := fun i ops j => i ≤ j ∧ (ops = [] → j = i)) _ long long'
  intro n m i _ next
  have none_ : Follows l d i (fun ops j => i ≤ j ∧ (ops = [] → j = i))
      (pure ([] : List UnaryOp)) (pure []) := .result ⟨Nat.le_refl i, fun _ => rfl⟩
  apply Follows.bind_kind
  intro k inked
  cases k with
  | punctuator s =>
    dsimp only
    cases UnaryOp.ofSymbol? s with
    | none => exact none_
    | some op =>
      apply Follows.take (inked nofun)
      apply (next (i + 1) (Nat.lt_succ_self i)).map
      exact fun _ _ further => ⟨Nat.le_of_succ_le further.1, nofun⟩
  | _ => exact none_

variable {nested' : Nested} {nested : Parser.Nested} (deeper : FollowsDeeper l d nested' nested)
include deeper

theorem unary_follows (names : List String) :
    Follows l d i (Moves i) (unary names nested') (Parser.unary names nested) := by
  apply Follows.bind_ahead
  intro n m long long'
  apply (unaryOps_follows long long').bind
  intro ops j ⟨passed, bare⟩
  apply (operand_follows deeper names).bind
  intro e j' moved
  cases e with
  | some e => exact .result (Nat.lt_of_le_of_lt passed moved)
  | none =>
    obtain rfl : j' = j := moved
    cases ops with
    | nil => exact .result (bare rfl)
    | cons op ops => exact .fails

omit deeper in
theorem climb_follows {right' : Nat → Buffered (Option Expr)} {right : Nat → Parser (Option Expr)}
    (rights : ∀ p j, Follows l d j (Moves j) (right' p) (right p)) (bound : Nat) {n m : Nat}
    (long : l.tokens.length - i ≤ n) (long' : l.tokens.length - i ≤ m) (left : Expr) :
    Follows l d i (Onward i) (climb right' bound n left) (Parser.climb right bound m left) := by
  apply Follows.rounds (R := Onward) _ long long'
  intro n m i left _ next
  apply Follows.bind_kind
  intro k inked
  cases known : Parser.binaryOp? k with
  | none => exact .result (Nat.le_refl i)
  | some op =>
    dsimp only
    by_cases loose : op.precedence < bound
    · rw [if_pos loose, if_pos loose]
      exact .result (Nat.le_refl i)
    · rw [if_neg loose, if_neg loose]
      have goes : k ≠ .eof := by
        rintro rfl
        cases known
      apply Follows.take (inked goes)
      apply (rights (op.precedence + 1) (i + 1)).required.bind
      intro e j (moved : i + 1 < j)
      apply (next j _ (Nat.lt_of_succ_lt moved)).mono
      exact fun _ _ further => Nat.le_trans (Nat.le_of_lt (Nat.lt_of_succ_lt moved)) further

theorem binary_follows (names : List String) (levels bound : Nat) :
    Follows l d i (Moves i) (binary names nested' levels bound)
      (Parser.binary names nested levels bound) := by
  induction levels generalizing i bound with
  | zero => exact unary_follows deeper names
  | succ levels ih =>
    apply (unary_follows deeper names).bind
    intro left j moved
    cases left with
    | none => exact .result moved
    | some left =>
      apply Follows.bind_ahead
      intro n m long long'
      apply (climb_follows (fun _ _ => ih _) bound long long' left).map
      exact fun _ _ further => Nat.lt_of_lt_of_le moved further

theorem conditional_follows (names : List String) :
    Follows l d i (Moves i) (conditional names nested') (Parser.conditional names nested) := by
  apply (binary_follows deeper names _ 1).bind
  intro test j moved
  cases test with
  | none => exact .result moved
  | some test =>
    apply Follows.branch
    · intro inked
      apply Follows.take inked
      apply (expression_follows deeper).bind
      intro consequent j₁ (moved₁ : j + 1 < j₁)
      apply (Follows.expects ":").bind
      intro _ j₂ (moved₂ : j₁ < j₂)
      apply (expression_follows deeper).map
      intro alternate j₃ (moved₃ : j₂ < j₃)
      have start : i < j := moved
      show i < j₃
      omega
    · exact .result moved

end Operators

/-- At every depth the levels that are left can be nested in each other. -/
theorem goal_follows (o : ParseOptions) (left : Nat) :
    ∀ d, d + left = o.maxDepth → FollowsDeeper l d (goal o left)
      (Parser.nestedGoal o.namespaces left) := by
  induction left with
  | zero =>
    intro d all g i
    exact .nest_tooDeep (Nat.le_of_eq all.symm)
  | succ left ih =>
    intro d levels g i
    have deeper := ih (d + 1) (by omega)
    have deep : d < o.maxDepth := by omega
    cases g with
    | expression => exact .nest deep (conditional_follows deeper o.namespaces)
    | operand => exact .nest deep (operand_follows deeper o.namespaces)

section Documents

theorem rawText_follows : Follows l d i (Moves i) rawText Parser.rawText := by
  apply Follows.bind_kind
  intro k inked
  cases k with
  | raw s => exact .take (inked nofun) (.result (Nat.lt_succ_self i))
  | _ => exact .result rfl

theorem dollarVariable_follows :
    Follows l d i (Moves i) dollarVariable Parser.dollarVariable := by
  apply Follows.bind_kind
  intro k inked
  cases k with
  | «variable» path => exact .take (inked nofun) (.result (Nat.lt_succ_self i))
  | _ => exact .result rfl

variable {nested' : Nested} {nested : Parser.Nested} (deeper : FollowsDeeper l d nested' nested)
include deeper

theorem documentParts_follows {n m : Nat} (long : l.tokens.length - i ≤ n)
    (long' : l.tokens.length - i ≤ m) :
    Follows l d i (Onward i) (documentParts nested' n) (Parser.documentParts nested m) := by
  apply Follows.loop (R := Onward) _ long long'
  intro n m i _ next
  have each : Follows l d i (Moves i) (firstOf [rawText, island nested', dollarVariable])
      (Parser.firstOf [Parser.rawText, Parser.island nested, Parser.dollarVariable]) :=
    .firstOf (.cons rawText_follows (.cons (island_follows deeper)
      (.cons dollarVariable_follows .nil)))
  apply each.bind
  intro e j moved
  cases e with
  | none => exact .result (Nat.le_of_eq moved.symm)
  | some e =>
    apply (next j moved).map
    exact fun _ _ further => Nat.le_trans (Nat.le_of_lt moved) further

omit deeper in
theorem source_follows (o : ParseOptions) :
    Follows l 0 i (Onward i) (source o) (Parser.source o) := by
  have deeper := goal_follows (l := l) o o.maxDepth 0 (Nat.zero_add _)
  have behind {e : Expr} {j : Nat} (passed : i ≤ j) :
      Follows l 0 j (Onward i) (do if (← current).isEof then return e else fatal)
        (do if (← Parser.current).isEof then return e else Parser.fatal) := by
    apply Follows.bind_current
    intro t _
    cases t.isEof with
    | true => exact .result passed
    | false => exact .fails
  unfold source Parser.source
  cases o.form with
  | «variable» =>
    apply (withMembers_follows deeper (variableName_follows deeper _)).required.bind
    intro e j moved
    exact behind (Nat.le_of_lt moved)
  | expression =>
    apply Follows.bind_current
    intro t _
    cases t.isEof with
    | true => exact behind (Nat.le_refl i)
    | false =>
      apply (expression_follows deeper).bind
      intro e j moved
      exact behind (Nat.le_of_lt moved)
  | template =>
    apply Follows.bind_ahead
    intro n m long long'
    apply (documentParts_follows deeper long long').bind
    intro parts j passed
    exact behind passed

end Documents

end Buffered

end TemplateFormula
