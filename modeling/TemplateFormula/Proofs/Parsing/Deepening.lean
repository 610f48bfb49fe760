import TemplateFormula.Proofs.Parsing.Enclosing
import TemplateFormula.Proofs.Parsing.Spending

/-!
# Parsing with more depth

A source text that is parsed, or not parsed for another reason than its depth, has the same outcome
with more depth; and there is depth enough where there is more of it than characters.
-/

namespace TemplateFormula

namespace Parser

variable {live : Prop} {n : Nat} {names : List String}

section Names

theorem parameters_lasts (m : Nat) (expectName : Bool) :
    Lasts live n (parameters m expectName) (parameters m expectName) := by
  induction m generalizing live n expectName with
  | zero => exact .result rfl
  | succ m ih =>
    refine .branch (.take trivial (.result rfl)) (.bind_kind fun k => ?_)
    cases k with
    | identifier name =>
      by_cases expects : expectName = true
      · simp only [if_pos expects]
        exact .take TokenKind.noConfusion ((ih false).map fun _ => Nat.le_refl _)
      · simp only [if_neg expects]
        exact .result rfl
    | punctuator symbol =>
      by_cases next : (!expectName && (TokenKind.punctuator symbol).isPunctuator ",") = true
      · simp only [if_pos next]
        exact .take TokenKind.noConfusion (ih true)
      · simp only [if_neg next]
        exact .result rfl
    | _ =>
      simp only [TokenKind.isPunctuator, Bool.and_false, Bool.false_eq_true, if_false]
      exact .result rfl

theorem parameterList_uses : Uses live n parameterList parameterList := by
  refine .attempt (.branch (.take trivial ?_) (.result rfl))
  refine .bind_remaining fun m => (parameters_lasts m true).relax (Nat.le_refl _) fun a => ?_
  cases a <;> exact Nat.le_refl _

theorem parameter_uses : Uses live n parameter parameter := by
  refine .bind_kind fun k => ?_
  cases k with
  | identifier name => exact .take TokenKind.noConfusion (.result rfl)
  | _ => exact .result rfl

theorem arrowSign_uses (params : List String) :
    Uses live n (arrowSign params) (arrowSign params) :=
  .branch (.take trivial (.branch (.take trivial (.result rfl)) (.result rfl))) (.result rfl)

theorem arrowHead_uses : Uses live n arrowHead arrowHead := by
  have signed {rest : Option (List String) → Parser (Option (List String))}
      (absent : rest none = return none) (present : ∀ params, rest (some params) = arrowSign params)
      (params : Option (List String)) : Uses False n (rest params) (rest params) := by
    cases params with
    | none =>
      rw [absent]
      exact .result rfl
    | some params =>
      rw [present]
      exact arrowSign_uses params
  refine .attempt ((parameterList_uses.lasts (Nat.le_refl n)).andThen fun params => ?_)
  cases params with
  | some params =>
    have found : Lasts False n (pure (some params)) (pure (some params)) := .result rfl
    exact found.andThen (signed rfl fun _ => rfl)
  | none =>
    exact (parameter_uses.lasts (Nat.le_refl n)).andThen (signed rfl fun _ => rfl)

end Names

section Operands

variable {nested nested' : Nested} (deeper : ∀ g live, Lasts live n (nested g) (nested' g))
include deeper

theorem variableName_uses :
    Uses live (n + 1) (variableName names nested) (variableName names nested') := by
  refine .branch (.take trivial (.result rfl)) (.bind_kind fun k => ?_)
  cases k with
  | identifier name =>
    refine .take TokenKind.noConfusion ?_
    by_cases known : names.contains name = true
    · simp only [known, Bool.and_true]
      refine .branch (.take trivial ?_) (.result rfl)
      exact ((deeper .operand False).required.lasts (Nat.sub_le n 1)).map fun _ => Nat.le_refl _
    · simp only [known, Bool.and_false, Bool.false_eq_true, if_false]
      exact .bind_check fun _ => .result rfl
  | _ => exact .result rfl

theorem call_uses : Uses live (n + 1) (call nested) (call nested') := by
  refine .attempt (.bind_kind fun k => ?_)
  cases k with
  | identifier name =>
    refine .take TokenKind.noConfusion ?_
    refine ((list_uses deeper "(" ")").lasts (Nat.le_succ n)).map fun es => ?_
    cases es <;> exact Nat.le_refl _
  | _ => exact .result rfl

theorem arrow_lasts : Lasts live (n + 1) (arrow nested) (arrow nested') := by
  refine .bind arrowHead_uses fun params => ?_
  cases params with
  | none => exact .result rfl
  | some params => exact (expression_lasts deeper).map fun _ => Nat.le_refl _

theorem primary_uses : Uses live (n + 1) (primary names nested) (primary names nested') :=
  .firstOf rfl (.cons (variableName_uses deeper) (.cons literal_uses (.cons number_uses
    (.cons text_uses (.cons (template_uses deeper) (.cons (array_uses deeper)
    (.cons (object_uses deeper) (.cons (parenthesized_uses deeper)
    (.cons (island_uses deeper) .nil)))))))))

theorem operandHead_lasts :
    Lasts live (n + 1) (operandHead names nested) (operandHead names nested') :=
  .firstOf rfl (.cons ((call_uses deeper).lasts (Nat.le_refl _)) (.cons (arrow_lasts deeper)
    (.cons ((primary_uses deeper).lasts (Nat.le_refl _)) .nil)))

theorem memberKey_lasts : Lasts live (n + 1) (memberKey nested) (memberKey nested') := by
  have keys : Uses live (n + 1) (firstOf [identifier, number, island nested])
      (firstOf [identifier, number, island nested']) :=
    .firstOf rfl (.cons identifier_uses (.cons number_uses (.cons (island_uses deeper) .nil)))
  exact (keys.lasts (Nat.le_refl _)).required

theorem membersOf_lasts (m : Nat) (host : Expr) :
    Lasts live (n + 1) (membersOf nested m host) (membersOf nested' m host) := by
  induction m generalizing live host with
  | zero => exact .result rfl
  | succ m ih =>
    refine .branch (.take trivial ?_) (.branch (.take trivial ?_) (.result rfl))
    · refine ((memberKey_lasts deeper).lasts (Nat.le_succ n)).andThen fun key => ?_
      exact (ih (.getter host key)).lasts (Nat.le_succ n)
    · refine (expression_lasts deeper).andThen fun key => (expect_lasts "]").andThen fun _ => ?_
      exact (ih (.getter host key)).lasts (Nat.le_succ n)

theorem withMembers_lasts {head head' : Parser (Option Expr)} (h : Lasts live (n + 1) head head') :
    Lasts live (n + 1) (withMembers nested head) (withMembers nested' head') := by
  refine h.andThen fun e => ?_
  cases e with
  | none => exact .result rfl
  | some e => exact .bind_remaining fun m => (membersOf_lasts deeper m e).map fun _ => Nat.le_refl _

theorem operand_lasts : Lasts live (n + 1) (operand names nested) (operand names nested') :=
  withMembers_lasts deeper (operandHead_lasts deeper)

omit deeper in
theorem unaryOps_lasts (m : Nat) : Lasts live n (unaryOps m) (unaryOps m) := by
  induction m generalizing live n with
  | zero => exact .result rfl
  | succ m ih =>
    refine .bind_kind fun k => ?_
    cases k with
    | punctuator symbol =>
      dsimp only
      cases UnaryOp.ofSymbol? symbol with
      | none => exact .result rfl
      | some op => exact .take TokenKind.noConfusion (ih.map fun _ => Nat.le_refl _)
    | _ => exact .result rfl

theorem unary_lasts : Lasts live (n + 1) (unary names nested) (unary names nested') := by
  refine .bind_remaining fun m => (unaryOps_lasts m).andThen fun ops => ?_
  refine (operand_lasts deeper).andThen fun e => ?_
  cases e with
  | some e => exact .result rfl
  | none =>
    by_cases none_before : ops.isEmpty = true
    · simp only [if_pos none_before]
      exact .result rfl
    · simp only [if_neg none_before]
      exact .fails

omit deeper in
theorem climb_lasts {right right' : Nat → Parser (Option Expr)}
    (rights : ∀ b, Lasts False n (right b) (right' b)) (bound m : Nat) (left : Expr) :
    Lasts live n (climb right bound m left) (climb right' bound m left) := by
  induction m generalizing live left with
  | zero => exact .result rfl
  | succ m ih =>
    refine .bind_kind fun k => ?_
    cases op_eq : binaryOp? k with
    | none => exact .result rfl
    | some op =>
      by_cases weaker : op.precedence < bound
      · simp only [if_pos weaker]
        exact .result rfl
      · simp only [if_neg weaker]
        have inked : k ≠ .eof := by
          rintro rfl
          cases op_eq
        refine .take inked (Spends.lasts (n := n) (w := fun _ => 0) ?_ (Nat.sub_le n 1))
        exact (rights (op.precedence + 1)).required.andThen fun e => ih (.binary op left e)

theorem binary_lasts (levels bound : Nat) :
    Lasts live (n + 1) (binary names nested levels bound) (binary names nested' levels bound) := by
  induction levels generalizing bound live with
  | zero => exact unary_lasts deeper
  | succ levels ih =>
    refine (unary_lasts deeper).andThen fun left => ?_
    cases left with
    | none => exact .result rfl
    | some left =>
      exact .bind_remaining fun m =>
        (climb_lasts (fun b => ih b) bound m left).map fun _ => Nat.le_refl _

theorem conditional_lasts :
    Lasts live (n + 1) (conditional names nested) (conditional names nested') := by
  refine (binary_lasts deeper _ 1).andThen fun test => ?_
  cases test with
  | none => exact .result rfl
  | some test =>
    refine .branch (.take trivial ?_) (.result rfl)
    refine (expression_lasts deeper).andThen fun consequent => ?_
    refine (expect_lasts ":").andThen fun _ => ?_
    exact (expression_lasts deeper).map fun _ => Nat.le_refl _

end Operands

/-- Each level of depth is good for one more token. -/
theorem nestedGoal_lasts {d d' : Nat} (le : d ≤ d') (g : Goal) (live : Prop) :
    Lasts live d (nestedGoal names d g) (nestedGoal names d' g) := by
  induction d generalizing d' g live with
  | zero => exact fun c _ _ => .runsOut c.current.start (Nat.zero_le _) _
  | succ d ih =>
    obtain ⟨d', rfl⟩ : ∃ k, d' = k + 1 := ⟨d' - 1, by omega⟩
    have deeper (g : Goal) (live : Prop) := ih (Nat.le_of_succ_le_succ le) g live
    cases g with
    | expression => exact conditional_lasts deeper
    | operand => exact operand_lasts deeper

section Sources

theorem rawText_uses : Uses live n rawText rawText := by
  refine .bind_kind fun k => ?_
  cases k with
  | raw s => exact .take TokenKind.noConfusion (.result rfl)
  | _ => exact .result rfl

theorem dollarVariable_uses : Uses live n dollarVariable dollarVariable := by
  refine .bind_kind fun k => ?_
  cases k with
  | «variable» path => exact .take TokenKind.noConfusion (.result rfl)
  | _ => exact .result rfl

theorem documentParts_lasts {nested nested' : Nested}
    (deeper : ∀ g live, Lasts live n (nested g) (nested' g)) (m : Nat) :
    Lasts live n (documentParts nested m) (documentParts nested' m) := by
  induction m generalizing live with
  | zero => exact .result rfl
  | succ m ih =>
    have part : Uses live (n + 1) (firstOf [rawText, island nested, dollarVariable])
        (firstOf [rawText, island nested', dollarVariable]) :=
      .firstOf rfl (.cons rawText_uses (.cons (island_uses deeper)
        (.cons dollarVariable_uses .nil)))
    refine (part.lasts (Nat.le_succ n)).andThen fun e => ?_
    cases e with
    | none => exact .result rfl
    | some e => exact ih.map fun _ => Nat.le_refl _

theorem ending_lasts (e : Expr) : Lasts live n (ending e) (ending e) := by
  refine .bind_current fun t => ?_
  by_cases ends : t.isEof = true
  · simp only [if_pos ends]
    exact .result rfl
  · simp only [if_neg ends]
    exact .fails

theorem source_lasts (o : ParseOptions) {d d' : Nat} (le : d ≤ d') :
    Lasts False d (source { o with maxDepth := d }) (source { o with maxDepth := d' }) := by
  have deeper (g : Goal) (live : Prop) :
      Lasts live d (nestedGoal o.namespaces d g) (nestedGoal o.namespaces d' g) :=
    nestedGoal_lasts le g live
  cases o.form with
  | «variable» =>
    simp only [source]
    have name : Uses False (d + 1) (variableName o.namespaces _) (variableName o.namespaces _) :=
      variableName_uses deeper
    have body := withMembers_lasts deeper (name.lasts (Nat.le_refl _))
    exact (body.required.lasts (Nat.le_succ d)).andThen ending_lasts
  | expression =>
    simp only [source]
    refine .bind_current fun t => ?_
    by_cases ends : t.isEof = true
    · simp only [if_pos ends]
      exact ending_lasts _
    · simp only [if_neg ends]
      exact (expression_lasts deeper).andThen ending_lasts
  | template =>
    simp only [source]
    refine .bind_remaining fun m => (documentParts_lasts deeper m).andThen fun es => ?_
    exact ending_lasts (.document es)

end Sources

end Parser

section Tokens

variable {source : List Char} {options : LexerOptions} {c : Cursor}

/-- A cursor on a text stands on the tokens of the text. -/
theorem Cursor.tokens_ofSource (h : Cursor.ofSource source options = .ok c) :
    (Lexer.ofSource source options).tokens = c.current :: c.rest ∧
      c.failure = (Lexer.ofSource source options).failure? := by
  rw [Cursor.ofSource_eq] at h
  cases tokens : (Lexer.ofSource source options).tokens with
  | nil =>
    rw [tokens] at h
    cases fails : (Lexer.ofSource source options).failure? with
    | some e =>
      rw [fails] at h
      cases h
    | none =>
      -- without an error there is the end of the text at least
      obtain ⟨ts, t, all, -⟩ := Lexer.tokens_end (Lexer.ofSource_ready source options) fails
      rw [tokens] at all
      exact absurd all (by simp)
  | cons first ts =>
    rw [tokens] at h
    cases h
    exact ⟨rfl, rfl⟩

theorem Cursor.closed_ofSource (h : Cursor.ofSource source options = .ok c) : c.Closed := by
  intro succeeds
  obtain ⟨tokens, failure⟩ := Cursor.tokens_ofSource h
  rw [failure] at succeeds
  obtain ⟨us, t, all, ends⟩ := Lexer.tokens_end (Lexer.ofSource_ready source options) succeeds
  refine ⟨t, ?_, ends⟩
  rw [Cursor.tokens, ← tokens, all, List.getLast?_concat]

/-- Behind the first token there are no more than there are characters. -/
theorem Cursor.length_rest_le (h : Cursor.ofSource source options = .ok c) :
    c.rest.length ≤ source.length := by
  have few := Lexer.length_run_le (source.length + 1) (Lexer.ofSource source options)
  have counted : (Lexer.ofSource source options).tokens.length ≤ source.length + 1 := by
    rw [Lexer.tokens, List.length_map]
    exact few
  rw [(Cursor.tokens_ofSource h).1] at counted
  exact Nat.le_of_succ_le_succ counted

theorem Cursor.ofSource_ne_tooDeep (p : Position) :
    Cursor.ofSource source options ≠ .error (.tooDeep p) := by
  intro h
  rw [Cursor.ofSource_eq, Cursor.ofTokens.eq_def] at h
  split at h
  · cases h
  · split at h <;> cases h

end Tokens

section Outcomes

variable {src : String} {o : ParseOptions}

theorem parse_of_read {c : Cursor} (read : Cursor.ofSource src.toList o.lexer = .ok c) :
    parse src o = (Parser.source o c).map Prod.fst := by
  unfold parse
  rw [read]
  change ((Parser.source o c).bind fun r => .ok r.1) = _
  cases Parser.source o c <;> rfl

theorem parse_of_unread {e : ParseError} (read : Cursor.ofSource src.toList o.lexer = .error e) :
    parse src o = .error e := by
  unfold parse
  rw [read]
  rfl

end Outcomes

/-- With more depth a source text parses as the same tree, or fails with the same error unless that
is a lack of depth. None lacks depth that has a level for each character and one more. -/
theorem parse_deepened (src : String) (o : ParseOptions) {d d' : Nat} (le : d ≤ d') :
    (∀ a, parse src { o with maxDepth := d } = .ok a →
      parse src { o with maxDepth := d' } = .ok a) ∧
    (∀ e, parse src { o with maxDepth := d } = .error e → (∀ p, e ≠ .tooDeep p) →
      parse src { o with maxDepth := d' } = .error e) ∧
    (src.length + 1 ≤ d → ∀ p, parse src { o with maxDepth := d } ≠ .error (.tooDeep p)) := by
  cases read : Cursor.ofSource src.toList o.lexer with
  | error e =>
    rw [parse_of_unread (o := { o with maxDepth := d }) read,
      parse_of_unread (o := { o with maxDepth := d' }) read]
    refine ⟨fun _ => nofun, fun _ failed _ => failed, fun _ p failed => ?_⟩
    cases failed
    exact Cursor.ofSource_ne_tooDeep p read
  | ok c =>
    have few := Cursor.length_rest_le read
    rw [String.length_toList] at few
    have outcome := Parser.source_lasts o le c (Cursor.closed_ofSource read) False.elim
    rw [parse_of_read (o := { o with maxDepth := d }) read,
      parse_of_read (o := { o with maxDepth := d' }) read]
    generalize Parser.source { o with maxDepth := d } c = r at outcome ⊢
    generalize Parser.source { o with maxDepth := d' } c = r' at outcome ⊢
    cases outcome with
    | ok a => exact ⟨fun _ parsed => parsed, fun _ => nofun, fun _ _ => nofun⟩
    | @error e other =>
      refine ⟨fun _ => nofun, fun _ failed _ => failed, fun _ p failed => ?_⟩
      cases failed
      exact other p rfl
    | runsOut p left =>
      refine ⟨fun _ => nofun, fun e failed other => ?_, fun enough _ _ => by omega⟩
      cases failed
      exact absurd rfl (other p)

/-- Brackets in brackets take two levels. -/
theorem parse_brackets_deepened :
    parse "[[]]" ⟨.expression, false, [], 2⟩ = .ok (.array [.array []]) ∧
    parse "[[]]" ⟨.expression, false, [], 1⟩ = .error (.tooDeep ⟨1, 1, 2⟩) ∧
    parse "[[]]" ⟨.expression, false, [], 64⟩ = .ok (.array [.array []]) ∧
    ∀ p, parse "[[]]" ⟨.expression, false, [], 5⟩ ≠ .error (.tooDeep p) := by
  let o : ParseOptions := ⟨.expression, false, [], 0⟩
  have shallow : parse "[[]]" { o with maxDepth := 2 } = .ok (.array [.array []]) := by cbv
  refine ⟨shallow, by cbv, ?_, ?_⟩
  · exact (parse_deepened "[[]]" o (by decide : 2 ≤ 64)).1 _ shallow
  · exact (parse_deepened "[[]]" o (by decide : 5 ≤ 64)).2.2 (by decide)

end TemplateFormula
