import Mathlib
import TemplateFormula.Proofs.Parsing.Joining
import TemplateFormula.Proofs.Printing.Embedding
import TemplateFormula.Proofs.Printing.RoundTrip
import TemplateFormula.Proofs.Rendering.Document

/-!
# Templates and literals of embedded texts

Any text can be put into a template or a formula. Written as literal text it is one part of the
document, also in front of an island, and written between backticks or quotes it is an expression;
the value is the text.
-/

namespace TemplateFormula

namespace Parser

variable {s : String} {o : ParseOptions}

theorem advance_ofTokens {t : Token} {more : List Token} {failure : Option LexError}
    (ended : Ended more failure) :
    (⟨t, more, failure⟩ : Cursor).advance = Cursor.ofTokens failure more := by
  cases more with
  | cons u more => rfl
  | nil =>
    cases failure with
    | some e => rfl
    | none => exact absurd rfl (ended.resolve_left fun h => h rfl)

/-- Literal text in front of the end or of an island is one part in front of the parts that are
there without it. -/
theorem parse_raw_append (form : o.form = .template) (some_ : s ≠ "") {t : String}
    (ended : Lexer.EndsRaw t.toList) :
    (∃ parts, parse t o = .ok (.document parts) ∧
      parse (Embedding.raw s ++ t) o = .ok (.document (.raw s :: parts))) ∨
    ∃ e p, parse t o = .error e ∧ parse (Embedding.raw s ++ t) o = .error (e.behind p) := by
  have text : o.lexer.bareExpression = false := by simp [ParseOptions.lexer, form]
  obtain ⟨first, p, next, kind⟩ := Lexer.next_raw text some_ ended
  have inked : first.kind ≠ .eof := by
    rw [kind]
    exact TokenKind.noConfusion
  have shifted : (Lexer.ofSource t.toList o.lexer).Shifted p
      ((Lexer.ofSource t.toList o.lexer).placed p) := by
    refine ⟨Position.counted_start, ?_⟩
    rw [show (Lexer.ofSource t.toList o.lexer).position = .start from rfl, Position.behind_start]
  obtain ⟨later, failures⟩ := Lexer.tokens_shifted shifted
  obtain ⟨tokens, failure⟩ := Lexer.tokens_next (Lexer.ofSource_ready _ _) next inked
  have stops := Lexer.tokens_end (Lexer.ofSource_ready t.toList o.lexer)
  rw [failures] at failure
  obtain ⟨ended, cursors⟩ := ofTokens_further later stops
  generalize ((Lexer.ofSource t.toList o.lexer).placed p).tokens = us at later tokens ended cursors
  generalize (Lexer.ofSource t.toList o.lexer).failure?.map (LexError.behind p) = failed
    at failure ended cursors
  have uniform : Uniform (nestedGoal o.namespaces o.maxDepth) :=
    fun P => nestedGoal_keeps (P := P) o.namespaces o.maxDepth
  have joined : parse (Embedding.raw s ++ t) o = (Cursor.ofTokens failed us >>= fun c =>
      finish [.raw s] (documentParts (nestedGoal o.namespaces o.maxDepth) us.length c)) := by
    have part : part? (nestedGoal o.namespaces o.maxDepth) ⟨first, us, failed⟩ =
        some (take (.raw s) ⟨first, us, failed⟩) := by simp only [part?, kind]
    rw [parse_template form, Cursor.ofSource_eq, String.toList_append, tokens, failure]
    change finish [] (documentParts _ (us.length + 1) ⟨first, us, failed⟩) = _
    rw [documentParts_apply, part]
    dsimp only
    rw [take, advance_ofTokens ended]
    rcases Cursor.ofTokens failed us with e | c
    · rfl
    · exact finish_append [.raw s] (documentParts _ us.length c)
  rw [joined, parse_template form t, Cursor.ofSource_eq]
  rcases cursors with ⟨e, read, read'⟩ | ⟨c, c', read, read', related, left⟩
  · right
    exact ⟨.lex e, p, by rw [read]; rfl, by rw [read']; rfl⟩
  · rw [read, read']
    rcases finish_further uniform related (Nat.le_of_eq left) [.raw s] with both | ⟨e, both⟩
    · exact .inl both
    · exact .inr ⟨e, p, both⟩

theorem parse_empty (form : o.form = .template) : parse "" o = .ok (.document []) := by
  obtain ⟨_, allowFilter, namespaces, maxDepth⟩ := o
  cases form
  rfl

section Ticks

variable {ns : List String} {nested : Nested} {k : TokenKind} {ks : List TokenKind} {n : Nat}

theorem isPunctuator_tick : Lexer.tick.kind.isPunctuator backtick = true := rfl

theorem parses_templateParts_close :
    Parses (templateParts nested (n + 1)) (Lexer.tick.kind :: k :: ks) [] (k :: ks) := by
  refine (parses_check backtick _ _).bind ?_
  rw [if_pos isPunctuator_tick]
  exact (parses_advance _ k ks).bind (parses_pure _ _)

theorem parses_templateParts_raw (s : String) {es : List Expr} {js : List TokenKind}
    (h : Parses (templateParts nested n) (k :: ks) es js) :
    Parses (templateParts nested (n + 1)) (.templateRaw s :: k :: ks) (.templateRaw s :: es)
      js := by
  refine (parses_check backtick _ _).bind ?_
  have text : ¬ (TokenKind.templateRaw s).isPunctuator backtick = true := Bool.false_ne_true
  rw [if_neg text]
  refine (parses_kind _ _).bind ?_
  exact (parses_advance _ k ks).bind (h.bind (parses_pure _ _))

/-- The parts of a template with a text and no holes. -/
def tickedParts (s : String) : List Expr := if s = "" then [] else [.templateRaw s]

theorem parses_ticked (s : String) (hk : Ends k) :
    Parses (conditional ns nested) (Lexer.tickedKinds s ++ k :: ks)
      (some (.template (tickedParts s))) (k :: ks) := by
  have parts : ∃ js, Lexer.tickedKinds s = Lexer.tick.kind :: js ∧
      Parses (template nested) (Lexer.tickedKinds s ++ k :: ks)
        (some (.template (tickedParts s))) (k :: ks) := by
    unfold Lexer.tickedKinds tickedParts
    by_cases empty : s = ""
    · rw [if_pos empty, if_pos empty]
      refine ⟨_, rfl, (parses_check backtick _ _).bind ?_⟩
      rw [if_pos isPunctuator_tick]
      refine (parses_advance _ _ _).bind ((parses_remaining _).bind ?_)
      exact parses_templateParts_close.bind (parses_pure _ _)
    · rw [if_neg empty, if_neg empty]
      refine ⟨_, rfl, (parses_check backtick _ _).bind ?_⟩
      rw [if_pos isPunctuator_tick]
      refine (parses_advance _ _ _).bind ((parses_remaining _).bind ?_)
      exact (parses_templateParts_raw s parses_templateParts_close).bind (parses_pure _ _)
  obtain ⟨js, kinds, parts⟩ := parts
  rw [kinds] at parts ⊢
  have primary : Parses (primary ns nested) (Lexer.tick.kind :: (js ++ k :: ks))
      (some (.template (tickedParts s))) (k :: ks) :=
    .firstOf_tail (parses_variableName_none rfl rfl) <|
      .firstOf_tail (parses_literal_none fun v => by cases v <;> exact TokenKind.noConfusion) <|
        .firstOf_tail (parses_number_none fun _ => TokenKind.noConfusion) <|
          .firstOf_tail (parses_text_none fun _ => TokenKind.noConfusion) parts.firstOf_head
  exact parses_conditional_of_head rfl (parses_head_of_primary rfl rfl primary) hk

theorem parse_ticked (form : o.form = .expression) (depth : 0 < o.maxDepth) (s : String) :
    parse (Embedding.ticked s) o = .ok (.template (tickedParts s)) := by
  obtain ⟨l, reads, at_⟩ := Lexer.At.reads_ticked (s := s)
    (l := Lexer.ofSource (Embedding.ticked s).toList ⟨true, o.allowFilter⟩) rfl rfl rfl rfl
  obtain ⟨t, l', next, ends⟩ := at_.next_eof (.inl rfl) rfl
  obtain ⟨c, read, on⟩ := Cursor.ofSource_on reads next ends
  obtain ⟨d, levels⟩ := Nat.exists_eq_add_one_of_ne_zero (Nat.ne_of_gt depth)
  have first : ∃ k is, Lexer.tickedKinds s = k :: is ∧ k ≠ .eof := by
    unfold Lexer.tickedKinds
    split <;> exact ⟨_, _, rfl, TokenKind.noConfusion⟩
  have whole := parse_of_on form read on first (e := .template (tickedParts s)) (by
    rw [levels, nestedGoal_succ]
    exact parses_ticked s (Closes.ends (.inl rfl)))
  rwa [String.ofList_toList] at whole

theorem parse_quoted (form : o.form = .expression) (depth : 0 < o.maxDepth) {q : Char}
    (hq : q = '"' ∨ q = '\'') (s : String) : parse (Embedding.quoted q s) o = .ok (.text s) := by
  have whole := parse_of_spells form (Lexer.spells_quoted hq (.inl rfl) s)
    ⟨_, _, rfl, TokenKind.noConfusion⟩
    (parses_tokens (.text s) o.maxDepth (Nat.succ_le_of_lt depth) .eof [] (.inl rfl))
  rwa [String.ofList_toList] at whole

end Ticks

end Parser

namespace Eval

variable {σ : Type} {env : Environment σ}

theorem evaluate_raw (builtin : ∀ k, env.options.nodeHandler? k = none) (n : Nat) (s : String)
    (m : Machine σ) : (evaluate (n + 2) (.document [.raw s]) env m).1 = .ok (.text s) := by
  rw [evaluate, within_builtin (builtin _)]
  change (within (n + 1) .handled (.raw s) env m).1 = _
  rw [within_builtin (builtin _)]
  rfl

theorem evaluate_ticked (builtin : ∀ k, env.options.nodeHandler? k = none) (n : Nat) (s : String)
    (m : Machine σ) :
    (evaluate (n + 2) (.template (Parser.tickedParts s)) env m).1 = .ok (.text s) := by
  rw [evaluate, within_builtin (builtin _), rule, bind_def]
  by_cases empty : s = ""
  · subst empty
    rfl
  · have part : within (n + 1) .handled (.templateRaw s) env m = (.ok (.text s), m) := by
      rw [within_builtin (builtin _)]
      rfl
    have texts : glued (within (n + 1) .handled) (Parser.tickedParts s) env m =
        (.ok (s.toList ++ []), m) := by
      rw [Parser.tickedParts, if_neg empty]
      simp only [glued, bind_def, part]
      rfl
    rw [texts, List.append_nil]
    change Except.ok (Value.text (String.ofList s.toList)) = _
    rw [String.ofList_toList]

end Eval

section Embedded

variable {σ : Type} {env : Environment σ}

theorem usualLimit_nested : Eval.usualLimit = Eval.usualLimit - 2 + 2 := rfl

theorem evaluateSource_raw (builtin : ∀ k, env.options.nodeHandler? k = none) {o : ParseOptions}
    {s : String} (parsed : parse (Embedding.raw s) o = .ok (.document [.raw s])) (m : Machine σ) :
    (evaluateSource (Embedding.raw s) o env m).1 = .ok (.text s) := by
  rw [evaluateSource_of_parse parsed, usualLimit_nested, Eval.evaluate_raw builtin]
  rfl

theorem evaluateSource_ticked (builtin : ∀ k, env.options.nodeHandler? k = none)
    {o : ParseOptions} (form : o.form = .expression) (depth : 0 < o.maxDepth) (s : String)
    (m : Machine σ) : (evaluateSource (Embedding.ticked s) o env m).1 = .ok (.text s) := by
  rw [evaluateSource_of_parse (Parser.parse_ticked form depth s), usualLimit_nested,
    Eval.evaluate_ticked builtin]
  rfl

theorem evaluateSource_quoted (builtin : ∀ k, env.options.nodeHandler? k = none)
    {o : ParseOptions} (form : o.form = .expression) (depth : 0 < o.maxDepth) {q : Char}
    (hq : q = '"' ∨ q = '\'') (s : String) (m : Machine σ) :
    (evaluateSource (Embedding.quoted q s) o env m).1 = .ok (.text s) := by
  rw [evaluateSource_of_parse (Parser.parse_quoted form depth hq s), usualLimit_nested,
    Eval.evaluate, Eval.within_builtin (builtin _)]
  rfl

/-- Any text can be embedded. As literal text of a template it is one part with the text for its
value, and it adds just this part in front of a template that begins with an island. As an
expression between backticks or quotes it has the text for its value. -/
theorem text_embeds (s : String) (builtin : ∀ k, env.options.nodeHandler? k = none)
    (o : ParseOptions) (m : Machine σ) :
    (o.form = .template → s ≠ "" →
      parse (Embedding.raw s) o = .ok (.document [.raw s]) ∧
      (evaluateSource (Embedding.raw s) o env m).1 = .ok (.text s) ∧
      ∀ t : String, ['$', '\x7b'] <+: t.toList → ∀ e, parse t o = .ok e →
        ∃ parts, e = .document parts ∧
          parse (Embedding.raw s ++ t) o = .ok (.document (.raw s :: parts))) ∧
    (o.form = .expression → 0 < o.maxDepth →
      ∀ source ∈ [Embedding.ticked s, Embedding.quoted '"' s, Embedding.quoted '\'' s],
        (evaluateSource source o env m).1 = .ok (.text s)) := by
  refine ⟨fun form some_ => ?_, fun form depth source hsource => ?_⟩
  · have alone : parse (Embedding.raw s) o = .ok (.document [.raw s]) := by
      have joined := Parser.parse_raw_append form some_ (t := "") (.inl rfl)
      rw [Parser.parse_empty form, String.append_empty] at joined
      rcases joined with ⟨parts, empty, joined⟩ | ⟨e, p, fails, -⟩
      · cases empty
        exact joined
      · cases fails
    refine ⟨alone, evaluateSource_raw builtin alone m, fun t ⟨r, island⟩ e parsed => ?_⟩
    rcases Parser.parse_raw_append form some_ (.inr ⟨r, island.symm⟩) with
      ⟨parts, found, joined⟩ | ⟨e', p, fails, -⟩
    · rw [parsed] at found
      exact ⟨parts, Except.ok.inj found, joined⟩
    · rw [parsed] at fails
      cases fails
  · simp only [List.mem_cons, List.not_mem_nil, or_false] at hsource
    rcases hsource with rfl | rfl | rfl
    · exact evaluateSource_ticked builtin form depth s m
    · exact evaluateSource_quoted builtin form depth (.inl rfl) s m
    · exact evaluateSource_quoted builtin form depth (.inr rfl) s m

theorem parse_lone_island :
    parse "$\x7bx\x7d" .template = .ok (.document [.island (.variable "x")]) := by
  cbv

/-- A text of nothing but marks. -/
def allMarks : String := "\\$\x7b\x60\"'$$\x7d\\"

theorem text_embeds_allMarks :
    allMarks ≠ "" ∧
    parse "$\x7bx\x7d" .template = .ok (.document [.island (.variable "x")]) ∧
    ∀ clock,
      let env := Environment.plain clock .undefined (some "html")
      (∀ k, env.options.nodeHandler? k = none) ∧
      parse (Embedding.raw allMarks ++ "$\x7bx\x7d") .template =
        .ok (.document [.raw allMarks, .island (.variable "x")]) ∧
      evaluate (Embedding.raw allMarks) .template env = .ok (.text allMarks) ∧
      evaluate (Embedding.ticked allMarks) .expression env = .ok (.text allMarks) := by
  refine ⟨by decide, parse_lone_island, fun clock => ?_⟩
  have builtin (k : Kind) :
      (Environment.plain clock .undefined (some "html")).options.nodeHandler? k = none := rfl
  obtain ⟨-, value, joins⟩ := (text_embeds allMarks builtin .template (.start clock ())).1 rfl
    (by decide)
  obtain ⟨parts, island, joined⟩ := joins "$\x7bx\x7d" ⟨_, rfl⟩ _ parse_lone_island
  obtain rfl := Expr.document.inj island
  refine ⟨builtin, joined, value, ?_⟩
  exact (text_embeds allMarks builtin .expression (.start clock ())).2 rfl (by decide) _
    List.mem_cons_self

end Embedded

end TemplateFormula
