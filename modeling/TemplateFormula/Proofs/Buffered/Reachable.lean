import TemplateFormula.Proofs.Buffered.Discipline
import Mathlib.Data.List.Induction

/-!
# The states of a parser over a buffer

A parser moves on from tokens that do not end the text, goes back to places that it has passed, and
enters and leaves levels of depth. The states that are reached from the first token in this way are
just those with a cursor in an unbroken buffer and a depth within the limit. From each of them,
every parser of the grammar keeps what is buffered and comes back to the depth; it is at the same place if
it does not match and further on if it does.
-/

namespace TemplateFormula

namespace Lexer

variable {l l' : Lexer} {ts : List Token} {t : Token}

theorem ofTokens_cursorAt (some_ : 0 < l.tokens.length) :
    Cursor.ofTokens l.failure? l.tokens = .ok (l.cursorAt 0) := by
  obtain ⟨t, ts, whole⟩ := List.exists_cons_of_length_pos some_
  rw [cursorAt, whole]
  rfl

theorem Asked.last (h : l.Asked (ts ++ [t]) l' none) :
    ∃ l₁, l.Pulls ts l₁ ∧ l₁.nextToken = (.ok t, l') := by
  generalize whole : ts ++ [t] = us at h
  cases h with
  | on pulled =>
    subst whole
    exact pulled.last
  | ended pulled last _ =>
    obtain ⟨rfl, same⟩ := List.append_inj' whole rfl
    cases same
    exact ⟨_, pulled, last⟩

end Lexer

namespace Buffered

/-- The states that are reached from the first token of a text. -/
inductive Reachable (o : ParseOptions) (source : List Char) : Buffer → Prop
  | start {b : Buffer} (first : fill (.ofSource source o.lexer) = .ok ⟨⟩ b) : Reachable o source b
  | moved {b b' : Buffer} (before : Reachable o source b) (goes : b.here.kind ≠ .eof)
      (step : advance b = .ok ⟨⟩ b') : Reachable o source b'
  | back {b : Buffer} (before : Reachable o source b) {i : Nat} (passed : i ≤ b.cursor) :
      Reachable o source { b with cursor := i }
  | entered {b : Buffer} (before : Reachable o source b) (deep : b.depth < o.maxDepth) :
      Reachable o source { b with depth := b.depth + 1 }
  | left {b : Buffer} (before : Reachable o source b) :
      Reachable o source { b with depth := b.depth - 1 }

variable {o : ParseOptions} {source : List Char} {b b' : Buffer}

section States

theorem reached_start (first : fill (.ofSource source o.lexer) = .ok ⟨⟩ b) :
    b.Reached (.ofSource source o.lexer) ∧ b.depth = 0 ∧ b.cursor = 0 := by
  rcases fill_end (b := .ofSource source o.lexer) (Lexer.ofSource_ready source o.lexer)
    (.nil _) rfl with ⟨b₁, filled, reached, -, depth, place⟩ | ⟨e, b₁, failed, -⟩
  · rw [first] at filled
    cases filled
    exact ⟨reached, depth, place⟩
  · rw [first] at failed
    cases failed

theorem inked_here {l : Lexer} (ready : l.Ready) (reached : b.Reached l)
    (goes : b.here.kind ≠ .eof) : Inked l b.cursor := by
  intro t found
  rw [reached.getElem?_cursor ready] at found
  rw [Buffer.here, List.getD_eq_getElem?_getD, found] at goes
  exact goes

theorem Reachable.reached (h : Reachable o source b) :
    b.Reached (.ofSource source o.lexer) ∧ b.depth ≤ o.maxDepth := by
  have ready := Lexer.ofSource_ready source o.lexer
  induction h with
  | start first =>
    obtain ⟨reached, depth, -⟩ := reached_start first
    exact ⟨reached, depth ▸ Nat.zero_le _⟩
  | @moved b b' _ goes step ih =>
    have outcome := Follows.step (inked_here ready ih.1 goes) ready b ih.1 rfl rfl
    rw [step] at outcome
    obtain ⟨reached, -, depth, -⟩ := outcome.of_ok
    exact ⟨reached, depth ▸ ih.2⟩
  | back _ passed ih => exact ⟨ih.1.back passed, ih.2⟩
  | entered _ deep ih => exact ⟨⟨ih.1.asked, ih.1.inside⟩, deep⟩
  | left _ ih => exact ⟨⟨ih.1.asked, ih.1.inside⟩, Nat.le_trans (Nat.sub_le _ 1) ih.2⟩

/-- All tokens that can be pulled are pulled one after another. -/
theorem reachable_last {ts : List Token} {l' : Lexer}
    (h : (Lexer.ofSource source o.lexer).Asked ts l' none) (some_ : ts ≠ []) :
    Reachable o source ⟨l', ts, ts.length - 1, 0⟩ := by
  induction ts using List.reverseRecOn generalizing l' with
  | nil => exact absurd rfl some_
  | append_singleton us t ih =>
    obtain ⟨l₁, pulled, next⟩ := h.last
    rw [List.length_append, List.length_singleton, Nat.add_sub_cancel]
    by_cases first : us = []
    · subst first
      cases pulled
      exact .start (fill_next rfl next)
    · have before := ih (.on pulled) first
      have pos := List.length_pos_iff.2 first
      have goes : (us.getLast first).kind ≠ .eof := pulled.inked _ (List.getLast_mem first)
      apply before.moved
      · rw [Buffer.here, List.getD_eq_getElem?_getD, ← List.getLast?_eq_getElem?,
          List.getLast?_eq_some_getLast first]
        exact goes
      · have all : us.length - 1 + 1 = us.length := Nat.sub_add_cancel pos
        have filled := fill_next (b := ⟨l₁, us, us.length, 0⟩) rfl next
        rw [advance]
        simp only [all]
        exact filled

theorem reachable_iff :
    Reachable o source b ↔ b.Reached (.ofSource source o.lexer) ∧ b.depth ≤ o.maxDepth := by
  constructor
  · exact Reachable.reached
  · rintro ⟨reached, within⟩
    obtain ⟨l', ts, i, d⟩ := b
    have inside : i < ts.length := reached.inside
    have some_ : ts ≠ [] := List.ne_nil_of_length_pos (Nat.zero_lt_of_lt inside)
    have place : Reachable o source ⟨l', ts, i, 0⟩ :=
      (reachable_last reached.asked some_).back (Nat.le_sub_one_of_lt inside)
    induction d with
    | zero => exact place
    | succ d ih =>
      have within : d + 1 ≤ o.maxDepth := within
      exact (ih ⟨reached.asked, reached.inside⟩ (Nat.le_of_succ_le within)).entered within

end States

/-- The parsers of the grammar that may match, with what they give. -/
inductive Method : Type → Type 1
  | goal (g : Parser.Goal) : Method Expr
  | conditional : Method Expr
  | binary (levels bound : Nat) : Method Expr
  | unary : Method Expr
  | operand : Method Expr
  | operandHead : Method Expr
  | primary : Method Expr
  | variableName : Method Expr
  | variableMembers : Method Expr
  | identifier : Method Expr
  | literal : Method Expr
  | number : Method Expr
  | text : Method Expr
  | template : Method Expr
  | list (opening closing : String) : Method (List Expr)
  | array : Method Expr
  | parenthesized : Method Expr
  | object : Method Expr
  | objectKey : Method Expr
  | bracketed : Method Expr
  | call : Method Expr
  | arrow : Method Expr
  | arrowHead : Method (List String)
  | parameterList : Method (List String)
  | parameter : Method (List String)
  | island : Method Expr
  | piped : Method Expr
  | argumentValue : Method Expr
  | rawText : Method Expr
  | dollarVariable : Method Expr

namespace Method

/-- The parser over a buffer. -/
def buffered (names : List String) (nested : Nested) {α : Type} : Method α → Buffered (Option α)
  | goal g => nested g
  | conditional => Buffered.conditional names nested
  | binary levels bound => Buffered.binary names nested levels bound
  | unary => Buffered.unary names nested
  | operand => Buffered.operand names nested
  | operandHead => Buffered.operandHead names nested
  | primary => Buffered.primary names nested
  | variableName => Buffered.variableName names nested
  | variableMembers => Buffered.withMembers nested (Buffered.variableName names nested)
  | identifier => Buffered.identifier
  | literal => Buffered.literal
  | number => Buffered.number
  | text => Buffered.text
  | template => Buffered.template nested
  | list opening closing => Buffered.list nested opening closing
  | array => Buffered.array nested
  | parenthesized => Buffered.parenthesized nested
  | object => Buffered.object nested
  | objectKey => Buffered.objectKey nested
  | bracketed => Buffered.bracketed nested
  | call => Buffered.call nested
  | arrow => Buffered.arrow nested
  | arrowHead => Buffered.arrowHead
  | parameterList => Buffered.parameterList
  | parameter => Buffered.parameter
  | island => Buffered.island nested
  | piped => Buffered.piped nested (Buffered.island nested)
  | argumentValue => Buffered.argumentValue nested (Buffered.island nested)
  | rawText => Buffered.rawText
  | dollarVariable => Buffered.dollarVariable

/-- The parser on a cursor. -/
def direct (names : List String) (nested : Parser.Nested) {α : Type} : Method α → Parser (Option α)
  | goal g => nested g
  | conditional => Parser.conditional names nested
  | binary levels bound => Parser.binary names nested levels bound
  | unary => Parser.unary names nested
  | operand => Parser.operand names nested
  | operandHead => Parser.operandHead names nested
  | primary => Parser.primary names nested
  | variableName => Parser.variableName names nested
  | variableMembers => Parser.withMembers nested (Parser.variableName names nested)
  | identifier => Parser.identifier
  | literal => Parser.literal
  | number => Parser.number
  | text => Parser.text
  | template => Parser.template nested
  | list opening closing => Parser.list nested opening closing
  | array => Parser.array nested
  | parenthesized => Parser.parenthesized nested
  | object => Parser.object nested
  | objectKey =>
    Parser.firstOf [Parser.identifier, Parser.text, Parser.number, Parser.bracketed nested]
  | bracketed => Parser.bracketed nested
  | call => Parser.call nested
  | arrow => Parser.arrow nested
  | arrowHead => Parser.arrowHead
  | parameterList => Parser.parameterList
  | parameter => Parser.parameter
  | island => Parser.island nested
  | piped => Parser.piped nested (Parser.island nested)
  | argumentValue => Parser.argumentValue nested (Parser.island nested)
  | rawText => Parser.rawText
  | dollarVariable => Parser.dollarVariable

/-- Runs a parser with the levels that the depth leaves. -/
def run (o : ParseOptions) {α : Type} (m : Method α) : Buffered (Option α) := fun b =>
  m.buffered o.namespaces (Buffered.goal o (o.maxDepth - b.depth)) b

/-- The parser on a cursor where so many levels have been entered. -/
def onCursor (o : ParseOptions) (depth : Nat) {α : Type} (m : Method α) : Parser (Option α) :=
  m.direct o.namespaces (Parser.nestedGoal o.namespaces (o.maxDepth - depth))

theorem follows {l : Lexer} {d : Nat} {nested' : Nested} {nested : Parser.Nested}
    (deeper : FollowsDeeper l d nested' nested) (names : List String) (i : Nat) {α : Type}
    (m : Method α) :
    Follows l d i (Moves i) (m.buffered names nested') (m.direct names nested) := by
  cases m with
  | goal g => exact deeper g i
  | conditional => exact conditional_follows deeper names
  | binary levels bound => exact binary_follows deeper names levels bound
  | unary => exact unary_follows deeper names
  | operand => exact operand_follows deeper names
  | operandHead => exact operandHead_follows deeper names
  | primary => exact primary_follows deeper names
  | variableName => exact variableName_follows deeper names
  | variableMembers => exact withMembers_follows deeper (variableName_follows deeper names)
  | identifier => exact identifier_follows
  | literal => exact literal_follows
  | number => exact number_follows
  | text => exact text_follows
  | template => exact template_follows deeper
  | list opening closing => exact (list_follows deeper opening closing).mono fun _ _ h => h.1
  | array => exact array_follows deeper
  | parenthesized => exact parenthesized_follows deeper
  | object => exact object_follows deeper
  | objectKey => exact objectKey_follows deeper
  | bracketed => exact bracketed_follows deeper
  | call => exact call_follows deeper
  | arrow => exact arrow_follows deeper
  | arrowHead => exact arrowHead_follows
  | parameterList => exact parameterList_follows
  | parameter => exact parameter_follows
  | island => exact island_follows deeper
  | piped => exact piped_follows deeper (fun _ _ => island_follows deeper) (Nat.zero_le i)
  | argumentValue =>
    exact argumentValue_follows deeper (fun _ _ => island_follows deeper) (Nat.zero_le i)
  | rawText => exact rawText_follows
  | dollarVariable => exact dollarVariable_follows

/-- From every state that can be reached, a parser of the grammar that succeeds leads to such a
state at the same depth, with its cursor in the buffer: where it was if there is no match, and further on
otherwise. What is buffered stays, also with an error; nothing is asked of the lexer behind the end
of the text. The outcome is that of the parser on a cursor. -/
theorem backtracks (o : ParseOptions) (source : List Char) {α : Type} (m : Method α) (b : Buffer)
    (reachable : Reachable o source b) :
    let l := Lexer.ofSource source o.lexer
    (∀ r b', m.run o b = .ok r b' →
      Reachable o source b' ∧ b'.depth = b.depth ∧ b'.cursor < b'.tokens.length ∧
        (r = none → b'.cursor = b.cursor) ∧ (r ≠ none → b.cursor < b'.cursor) ∧
        b.tokens <+: b'.tokens ∧ l.Asked b'.tokens b'.lexer none ∧
        m.onCursor o b.depth (l.cursorAt b.cursor) = .ok (r, l.cursorAt b'.cursor)) ∧
    ∀ e b', m.run o b = .error e b' →
      b.tokens <+: b'.tokens ∧ l.Asked b'.tokens b'.lexer e.lex? ∧
        m.onCursor o b.depth (l.cursorAt b.cursor) = .error e := by
  intro l
  obtain ⟨reached, within⟩ := reachable.reached
  have deeper : FollowsDeeper l b.depth (Buffered.goal o (o.maxDepth - b.depth))
      (Parser.nestedGoal o.namespaces (o.maxDepth - b.depth)) :=
    goal_follows o _ b.depth (Nat.add_sub_of_le within)
  have outcome := m.follows deeper o.namespaces b.cursor (Lexer.ofSource_ready source o.lexer) b
    reached rfl rfl
  constructor
  · intro r b' result
    rw [run] at result
    rw [result] at outcome
    obtain ⟨reached', kept, depth, post, same⟩ := outcome.of_ok
    refine ⟨reachable_iff.2 ⟨reached', depth ▸ within⟩, depth, reached'.inside, ?_, ?_, kept,
      reached'.asked, same⟩
    · rintro rfl
      exact post
    · intro found
      obtain ⟨a, rfl⟩ := Option.ne_none_iff_exists'.1 found
      exact post
  · intro e b' failed
    rw [run] at failed
    rw [failed] at outcome
    obtain ⟨asked, kept, same⟩ := outcome.of_error
    exact ⟨kept, asked, same⟩

/-- A name and an equals sign, which is no arrow. -/
def noArrow : List Char := ['a', '=', 'b']

theorem backtracks_noArrow :
    ∃ b b', Reachable .expression noArrow b ∧ Method.arrow.run .expression b = .ok none b' ∧
      b.tokens.length = 1 ∧ b'.tokens.length = 3 ∧ b'.cursor = b.cursor ∧ b'.depth = b.depth ∧
        b.tokens <+: b'.tokens := by
  have first : ∃ b, fill (.ofSource noArrow ParseOptions.expression.lexer) = .ok ⟨⟩ b ∧
      b.tokens.length = 1 ∧
      ∃ b', Method.arrow.run .expression b = .ok none b' ∧ b'.tokens.length = 3 :=
    ⟨_, rfl, rfl, _, rfl, rfl⟩
  obtain ⟨b, filled, one, b', result, three⟩ := first
  have reachable : Reachable .expression noArrow b := .start filled
  obtain ⟨-, depth, -, stays, -, kept, -⟩ :=
    (backtracks .expression noArrow .arrow b reachable).1 none b' result
  exact ⟨b, b', reachable, result, one, three, stays rfl, depth, kept⟩

end Method

/-- A whole text is parsed over a buffer as it is on a cursor. -/
theorem parse_eq (src : String) (o : ParseOptions) : parse src o = TemplateFormula.parse src o := by
  have ready := Lexer.ofSource_ready src.toList o.lexer
  rw [parse, TemplateFormula.parse, Cursor.ofSource_eq, bind_apply]
  rcases fill_end (b := .ofSource src.toList o.lexer) ready (.nil _) rfl with
    ⟨b, filled, reached, -, depth, place⟩ | ⟨e, b, failed, -, -, none_, fails⟩
  · have start : b.cursor = 0 := place
    have outcome := source_follows o ready b reached depth start
    have starts := Lexer.ofTokens_cursorAt (Nat.zero_lt_of_lt (reached.lt ready))
    rw [filled, starts]
    dsimp only
    change _ = (Parser.source o (Lexer.cursorAt _ 0) >>= fun r => return r.1)
    generalize source o b = r at outcome ⊢
    generalize Parser.source o (Lexer.cursorAt _ 0) = r' at outcome ⊢
    cases outcome with
    | ok _ _ _ _ => rfl
    | error _ _ => rfl
  · have none_ : (Lexer.ofSource src.toList o.lexer).tokens = [] := none_
    rw [failed, none_, fails]
    rfl

end Buffered

end TemplateFormula
