import Mathlib
import TemplateFormula.Proofs.Lexing.Enclosing
import TemplateFormula.Proofs.Parsing.Joining

/-!
# Trees of expressions in islands

Outside of filters no parser tells the end of a text from the end of an island. So an expression has
the same tree alone and as the only part of a template, and both fail together. An operand with no
operators around it is an expression, and an expression with no filter behind it is what an island
holds.
-/

namespace TemplateFormula

namespace Parser

open Pairing

variable {nested : Nested} {o : ParseOptions} {c c' : Cursor} {a e : Expr}

section Sources

/-- Parsing steps that follow one another succeed if each of them does. -/
theorem bind_eq_ok {ε α β : Type} {x : Except ε α} {f : α → Except ε β} {b : β} :
    (x >>= f) = .ok b ↔ ∃ a, x = .ok a ∧ f a = .ok b := by
  cases x with
  | error e => exact iff_of_false (by rintro ⟨⟩) (by rintro ⟨_, ⟨⟩, -⟩)
  | ok a =>
    constructor
    · exact fun rest => ⟨a, rfl, rest⟩
    · rintro ⟨_, ⟨⟩, rest⟩
      exact rest

/-- The end of a text behind its tree. -/
def ending (e : Expr) : Parser Expr := do
  if (← current).isEof then return e else fatal

theorem source_expression (form : o.form = .expression) (inked : ¬ c.current.isEof = true) :
    source o c = (expression (nestedGoal o.namespaces o.maxDepth) >>= ending) c := by
  have shown : current c = .ok (c.current, c) := rfl
  simp only [source, form]
  rw [bind_of_ok shown, if_neg inked]
  rfl

theorem ending_eq_ok : ending e c = .ok (a, c') ↔ e = a ∧ c = c' ∧ c.current.isEof = true := by
  have shown : current c = .ok (c.current, c) := rfl
  rw [ending, bind_of_ok shown]
  by_cases ends : c.current.isEof = true
  · rw [if_pos ends]
    constructor
    · rintro ⟨⟩
      exact ⟨rfl, rfl, ends⟩
    · rintro ⟨rfl, rfl, -⟩
      rfl
  · rw [if_neg ends]
    exact iff_of_false (by rintro ⟨⟩) fun h => ends h.2.2

theorem parse_eq_ok {src : String} :
    parse src o = .ok a ↔
      ∃ c, Cursor.ofSource src.toList o.lexer = .ok c ∧ ∃ c₁, source o c = .ok (a, c₁) := by
  unfold parse
  rw [bind_eq_ok]
  refine exists_congr fun c => and_congr_right fun _ => ?_
  rw [bind_eq_ok]
  constructor
  · rintro ⟨⟨_, c₁⟩, outcome, ⟨⟩⟩
    exact ⟨c₁, outcome⟩
  · rintro ⟨c₁, outcome⟩
    exact ⟨(a, c₁), outcome, rfl⟩

/-- A text that is not empty is an expression if one ends where the text does. -/
theorem parse_expression {src : String} (form : o.form = .expression)
    (read : Cursor.ofSource src.toList o.lexer = .ok c) (inked : ¬ c.current.isEof = true) :
    parse src o = .ok a ↔ ∃ c₁, expression (nestedGoal o.namespaces o.maxDepth) c = .ok (a, c₁) ∧
      c₁.current.isEof = true := by
  rw [parse_eq_ok]
  constructor
  · rintro ⟨_, read', c₂, parsed⟩
    obtain rfl := Except.ok.inj (read.symm.trans read')
    rw [source_expression form inked] at parsed
    obtain ⟨⟨e, c₁⟩, outcome, ended⟩ := bind_eq_ok.1 parsed
    obtain ⟨rfl, -, ends⟩ := ending_eq_ok.1 ended
    exact ⟨c₁, outcome, ends⟩
  · rintro ⟨c₁, outcome, ends⟩
    refine ⟨c, read, c₁, ?_⟩
    rw [source_expression form inked]
    exact bind_eq_ok.2 ⟨(a, c₁), outcome, ending_eq_ok.2 ⟨rfl, rfl, ends⟩⟩

theorem finish_eq_ok {es : List Expr} {r : Except ParseError (List Expr × Cursor)} :
    finish [] r = .ok (.document es) ↔ ∃ c, r = .ok (es, c) ∧ c.current.isEof = true := by
  unfold finish
  rw [bind_eq_ok, Prod.exists]
  constructor
  · rintro ⟨fs, c, rfl, ended⟩
    dsimp only at ended
    split at ended
    · next ends =>
      obtain rfl := Expr.document.inj (Except.ok.inj ended)
      exact ⟨c, rfl, ends⟩
    · cases ended
  · rintro ⟨c, rfl, ends⟩
    exact ⟨es, c, rfl, if_pos ends⟩

theorem documentParts_stop (ends : c.current.isEof = true) (n : Nat) :
    documentParts nested n c = .ok ([], c) := by
  cases n with
  | zero => rfl
  | succ n =>
    have nothing : part? nested c = none := by
      unfold part?
      rw [Lexer.isEof_iff.1 ends]
    rw [documentParts_apply, nothing]

theorem documentParts_cons {n : Nat} {es : List Expr} :
    documentParts nested (n + 1) c = .ok (e :: es, c') ↔
      ∃ c₁, part? nested c = some (.ok (e, c₁)) ∧ documentParts nested n c₁ = .ok (es, c') := by
  rw [documentParts_apply]
  cases part? nested c with
  | none => exact iff_of_false (by rintro ⟨⟩) (by rintro ⟨_, ⟨⟩, -⟩)
  | some r =>
    simp only [bind_eq_ok, Prod.exists, Option.some.injEq]
    constructor
    · rintro ⟨_, c₁, rfl, _, _, outcome, ⟨⟩⟩
      exact ⟨c₁, rfl, outcome⟩
    · rintro ⟨c₁, rfl, outcome⟩
      exact ⟨e, c₁, rfl, es, c', outcome, rfl⟩

theorem documentParts_nil {n : Nat} (h : documentParts nested n c = .ok ([], c')) : c' = c := by
  cases n with
  | zero =>
    cases h
    rfl
  | succ n =>
    rw [documentParts_apply] at h
    generalize part? nested c = r at h
    cases r with
    | none =>
      cases h
      rfl
    | some r =>
      simp only [bind_eq_ok, Prod.exists] at h
      obtain ⟨_, _, -, _, _, -, ⟨⟩⟩ := h

/-- A document is a single part if this part ends where the text does. -/
theorem finish_single (n : Nat) :
    finish [] (documentParts nested (n + 1) c) = .ok (.document [e]) ↔
      ∃ c₁, part? nested c = some (.ok (e, c₁)) ∧ c₁.current.isEof = true := by
  simp only [finish_eq_ok, documentParts_cons]
  constructor
  · rintro ⟨c₂, ⟨c₁, part, outcome⟩, ends⟩
    obtain rfl := documentParts_nil outcome
    exact ⟨c₂, part, ends⟩
  · rintro ⟨c₁, part, ends⟩
    exact ⟨c₁, ⟨c₁, part, documentParts_stop ends n⟩, ends⟩

/-- A template is a single island if the island ends where the text does. -/
theorem parse_single {src : String} (form : o.form = .template)
    (read : Cursor.ofSource src.toList o.lexer = .ok c) (opens : c.current.kind = .openIsland) :
    parse src o = .ok (.document [e]) ↔
      ∃ c₁, enter (nestedGoal o.namespaces o.maxDepth) c = .ok (e, c₁) ∧
        c₁.current.isEof = true := by
  have part {nested : Nested} : part? nested c = some (enter nested c) := by
    unfold part?
    rw [opens]
  rw [parse_template form, read]
  change finish [] (documentParts _ (c.rest.length + 1) c) = _ ↔ _
  rw [finish_single, part]
  simp only [Option.some.injEq]

end Sources

section Failing

/-- The tokens end with an error. -/
structure Endless (c : Cursor) : Prop where
  failure : c.failure ≠ none
  inked : ∀ t ∈ c.tokens, t.kind ≠ .eof

theorem Endless.goes (h : Endless c) : ¬ c.current.isEof = true :=
  fun ends => h.inked c.current List.mem_cons_self (Lexer.isEof_iff.1 ends)

theorem Endless.step (h : Endless c) :
    Step (fun c c' => c' = c ∧ Endless c) Eq c.rest.length c.advance c.advance := by
  obtain ⟨t, ts, f⟩ := c
  cases ts with
  | cons u ts => exact .ok ⟨rfl, h.failure, (List.forall_mem_cons.1 h.inked).2⟩ (Nat.lt_succ_self _)
  | nil =>
    cases f with
    | none => exact absurd rfl h.failure
    | some e => exact .error rfl

/-- Such tokens are never read to the end of the text. -/
def endless : Pairing where
  Related _ c c' := c' = c ∧ Endless c
  Fails := Eq
  exact := True
  meets := by
    rintro d c c' ⟨rfl, -⟩
    exact .same rfl rfl
  unexpected := by
    rintro d c c' ⟨rfl, -⟩
    rfl
  runsOut := by
    rintro d c c' ⟨rfl, -⟩
    rfl
  remaining_lt := by
    rintro d c c' ⟨rfl, -⟩
    exact Nat.lt_succ_self _
  filter _ _ := trivial
  inner := by
    rintro d c c' ⟨rfl, h⟩ -
    exact h.step
  opening := by
    rintro d c c' ⟨rfl, h⟩ -
    exact h.step
  closing := by
    rintro d c c' ⟨rfl, h⟩ -
    exact h.step

theorem Endless.along {α : Type} {p : Parser α} {x : α} (h : Endless c)
    (keeps : endless.Keeps False (c.rest.length + 1) p p) (outcome : p c = .ok (x, c')) :
    Endless c' := by
  have agrees := keeps 0 c c ⟨rfl, h⟩ (Nat.lt_succ_self _) False.elim
  rw [outcome] at agrees
  obtain ⟨-, -, ⟨-, related⟩, -⟩ := agrees.eq_ok
  exact related

theorem ofTokens_endless {failure : Option LexError} {ts : List Token} (failed : failure ≠ none)
    (inked : ∀ t ∈ ts, t.kind ≠ .eof) (read : Cursor.ofTokens failure ts = .ok c) : Endless c := by
  cases ts with
  | cons t ts =>
    cases read
    exact ⟨failed, inked⟩
  | nil =>
    cases failure with
    | none => exact absurd rfl failed
    | some e => cases read

/-- A text that the lexer fails on has no tree. -/
theorem parse_ne_of_failure {src : String} (other : o.form ≠ .variable)
    (failed : (Lexer.ofSource src.toList o.lexer).failure? ≠ none) (a : Expr) :
    parse src o ≠ .ok a := by
  intro parsed
  cases read : Cursor.ofSource src.toList o.lexer with
  | error e =>
    unfold parse at parsed
    rw [read] at parsed
    cases parsed
  | ok c =>
    have inked := Lexer.inked_of_failure failed
    have start : Endless c := ofTokens_endless failed inked read
    have uniform := nestedGoal_keeps (P := endless) o.namespaces o.maxDepth
    cases form : o.form with
    | «variable» => exact other form
    | expression =>
      obtain ⟨c₁, outcome, ends⟩ := (parse_expression form read start.goes).1 parsed
      exact (start.along (expression_keeps uniform) outcome).goes ends
    | template =>
      rw [parse_template form, read] at parsed
      change finish [] (documentParts _ c.remaining c) = _ at parsed
      obtain ⟨⟨es, c₁⟩, outcome, ended⟩ := bind_eq_ok.1 parsed
      have keeps : endless.Keeps False (c.rest.length + 1) _ _ :=
        documentParts_keeps uniform (Nat.le_refl _) (Nat.le_refl _)
      have goes := (start.along keeps outcome).goes
      cases (if_neg goes).symm.trans ended

end Failing

section Wrapping

variable {stop brace stop' t t' : Token} {ts ts' : List Token} {d : Nat}

/-- The first cursor stands in an expression without filters, and the second at the same place of
the expression in an island. -/
def Wraps (stop brace stop' : Token) (d : Nat) (c c' : Cursor) : Prop :=
  ∃ ts ts', Shows stop [] none ts c ∧ Shows brace [stop'] none ts' c' ∧
    List.Forall₂ Token.Alike ts ts' ∧ (∀ t ∈ ts, t.kind.isOrdinary) ∧ Inside (d + 1) ts

theorem Shows.wraps_step {e : Nat} (h : Shows stop [] none (t :: ts) c)
    (h' : Shows brace [stop'] none (t' :: ts') c') (alike : List.Forall₂ Token.Alike ts ts')
    (ordinary : ∀ t ∈ ts, t.kind.isOrdinary) (inside : Inside (e + 1) ts) :
    Step (Wraps stop brace stop' e) (fun _ _ => True) c.rest.length c.advance c'.advance := by
  obtain ⟨c₁, moves, shows₁⟩ := h.advance
  obtain ⟨c₁', moves', shows₁'⟩ := h'.advance
  rw [moves, moves']
  refine .ok ⟨ts, ts', shows₁, shows₁', alike, ordinary, inside⟩ ?_
  rw [shows₁.length_eq, h.length_eq]
  exact Nat.lt_succ_self _

theorem Inside.depth_eq (h : Inside (d + 1) []) : d = 0 := by
  have islands := h.islands
  simp only [Token.closed_nil, Token.opened_nil] at islands
  omega

/-- Without filters the end of an expression is parsed as the end of an island around it. -/
def wrapping (stop' : Token) (stops : stop.kind = .eof) (closes : brace.kind = .closeIsland) :
    Pairing where
  Related := Wraps stop brace stop'
  Fails _ _ := True
  exact := False
  meets := by
    rintro d c c' ⟨ts, ts', shows, shows', alike, -, inside⟩
    cases alike with
    | nil =>
      rw [shows.at_brace, shows'.at_brace]
      exact .ends id inside.depth_eq stops closes
    | cons first _ =>
      rw [shows.current, shows'.current]
      exact .same first.kind first.text
  unexpected _ := trivial
  runsOut _ := trivial
  remaining_lt := by
    rintro d c c' ⟨ts, ts', shows, shows', alike, -, -⟩
    rw [Cursor.remaining, shows.length_eq, shows'.length_eq, alike.length_eq, List.length_nil]
    omega
  filter := by
    rintro d c c' ⟨ts, ts', shows, -, -, ordinary, -⟩ opens
    cases ts with
    | nil =>
      rw [shows.at_brace, stops] at opens
      cases opens
    | cons t ts =>
      rw [shows.current] at opens
      exact TokenKind.ne_openFilter_of_isOrdinary (ordinary t List.mem_cons_self) opens
  inner := by
    rintro d c c' ⟨ts, ts', shows, shows', alike, ordinary, inside⟩ inner
    cases alike with
    | nil =>
      rw [shows.at_brace, stops] at inner
      cases inner
    | cons _ others =>
      rw [shows.current] at inner
      obtain ⟨opened, closed⟩ := counts_of_isInner inner
      exact shows.wraps_step shows' others (List.forall_mem_cons.1 ordinary).2
        (inside.other opened closed)
  opening := by
    rintro d c c' ⟨ts, ts', shows, shows', alike, ordinary, inside⟩ opens
    cases alike with
    | nil =>
      rw [shows.at_brace, stops] at opens
      cases opens
    | cons _ others =>
      rw [shows.current] at opens
      exact shows.wraps_step shows' others (List.forall_mem_cons.1 ordinary).2
        (inside.opening opens)
  closing := by
    rintro d c c' ⟨ts, ts', shows, shows', alike, ordinary, inside⟩ closing
    cases alike with
    | nil => exact absurd inside.depth_eq (Nat.succ_ne_zero d)
    | cons _ others =>
      rw [shows.current] at closing
      exact shows.wraps_step shows' others (List.forall_mem_cons.1 ordinary).2
        (inside.closing closing)

end Wrapping

section Contents

theorem filterCalls_nil {island : Parser (Option Expr)} (plain : c.current.kind ≠ .openFilter)
    (n : Nat) : filterCalls nested island n c = .ok ([], c) := by
  have shown : kind c = .ok (c.current.kind, c) := rfl
  have other : ¬ (c.current.kind == .openFilter) = true := fun h => plain (eq_of_beq_openFilter h)
  cases n with
  | zero => rfl
  | succ n =>
    rw [filterCalls, bind_of_ok shown, if_neg other]
    rfl

theorem piped_eq {island : Parser (Option Expr)}
    (plain : ∀ e c₁, nested .expression c = .ok (some e, c₁) → c₁.current.kind ≠ .openFilter) :
    piped nested island c = nested .expression c := by
  unfold piped
  rw [bind_apply]
  rcases outcome : nested .expression c with e | ⟨_ | e, c₁⟩
  · rfl
  · rfl
  · have shown : remaining c₁ = .ok (c₁.remaining, c₁) := rfl
    dsimp only
    rw [bind_of_ok shown, bind_of_ok (filterCalls_nil (plain e c₁ outcome) _)]
    rfl

/-- Where no filter follows, an island holds an expression and nothing else. -/
theorem contents_eq
    (plain : ∀ e c₁, nested .expression c = .ok (some e, c₁) → c₁.current.kind ≠ .openFilter)
    (n : Nat) : contents nested n c = expression nested c := by
  unfold contents expression required
  rw [bind_apply, bind_apply, piped_eq plain]

theorem close_eq_ok : close a c = .ok (e, c') ↔
    c.current.kind = .closeIsland ∧ e = .island a ∧ c.advance = .ok c' := by
  unfold close
  by_cases closes : (c.current.kind == .closeIsland) = true
  · rw [if_pos closes, take]
    rcases c.advance with e' | c₁
    · exact iff_of_false (by rintro ⟨⟩) (by rintro ⟨-, -, ⟨⟩⟩)
    · constructor
      · rintro ⟨⟩
        exact ⟨eq_of_beq_closeIsland closes, rfl, rfl⟩
      · rintro ⟨-, rfl, ⟨⟩⟩
        rfl
  · rw [if_neg closes]
    refine iff_of_false (by rintro ⟨⟩) ?_
    rintro ⟨kind_eq, -⟩
    rw [kind_eq] at closes
    exact closes rfl

theorem enter_eq_ok {c₁ : Cursor} (moves : c.advance = .ok c₁) : enter nested c = .ok (e, c') ↔
    ∃ a c₂, contents nested c.rest.length c₁ = .ok (a, c₂) ∧ close a c₂ = .ok (e, c') := by
  have entered : enter nested c =
      (contents nested c.rest.length c₁ >>= fun x => close x.1 x.2) := by
    rw [enter, moves]
    rfl
  rw [entered, bind_eq_ok, Prod.exists]

end Contents

section Islands

variable {opening brace stop stop' : Token} {ts ts' later : List Token}
  {failure : Option LexError}

theorem Wraps.kind_ne {d : Nat} (h : Wraps stop brace stop' d c c')
    (closes : brace.kind = .closeIsland) : c'.current.kind ≠ .openFilter := by
  obtain ⟨ts, ts', -, shows', alike, ordinary, -⟩ := h
  cases alike with
  | nil =>
    rw [shows'.at_brace, closes]
    exact TokenKind.noConfusion
  | cons first _ =>
    rw [shows'.current, first.kind]
    exact TokenKind.ne_openFilter_of_isOrdinary (ordinary _ List.mem_cons_self)

/-- The expression ends where the text does, and the island at its last brace. -/
theorem Wraps.ends_iff (h : Wraps stop brace stop' 0 c c') (stops : stop.kind = .eof)
    (closes : brace.kind = .closeIsland) (stops' : stop'.kind = .eof) :
    c.current.isEof = true ↔
      ∃ c₁, c'.current.kind = .closeIsland ∧ c'.advance = .ok c₁ ∧ c₁.current.isEof = true := by
  obtain ⟨ts, ts', shows, shows', alike, -, inside⟩ := h
  cases alike with
  | nil =>
    refine iff_of_true ?_ ⟨⟨stop', [], none⟩, ?_, ?_, Lexer.isEof_iff.2 stops'⟩
    · rw [shows.at_brace]
      exact Lexer.isEof_iff.2 stops
    · rw [shows'.at_brace, closes]
    · exact shows'.advance_brace (.inl (List.cons_ne_nil _ _))
  | @cons t t' us us' first others =>
    refine iff_of_false ?_ ?_
    · rw [shows.current]
      exact fun ends => inside.inked t List.mem_cons_self (Lexer.isEof_iff.1 ends)
    · rintro ⟨c₁, -, moved, ends⟩
      obtain ⟨c₂, moves, shows₁⟩ := shows'.advance
      obtain rfl : c₂ = c₁ := Except.ok.inj (moves.symm.trans moved)
      replace ends := Lexer.isEof_iff.1 ends
      cases others with
      | nil =>
        rw [shows₁.at_brace, closes] at ends
        cases ends
      | cons second _ =>
        rw [shows₁.current, second.kind] at ends
        exact inside.inked _ (List.mem_cons_of_mem _ List.mem_cons_self) ends

theorem enter_wraps (uniform : Uniform nested) (stops : stop.kind = .eof)
    (closes : brace.kind = .closeIsland) (stops' : stop'.kind = .eof)
    (shows : Shows stop [] none ts c) (shows' : Shows brace [stop'] none (opening :: ts') c')
    (alike : List.Forall₂ Token.Alike ts ts') (ordinary : ∀ t ∈ ts, t.kind.isOrdinary)
    (inside : Inside 1 ts) :
    (∃ c₁, expression nested c = .ok (a, c₁) ∧ c₁.current.isEof = true) ↔
      ∃ c₁, enter nested c' = .ok (.island a, c₁) ∧ c₁.current.isEof = true := by
  obtain ⟨c₁', moves, shows₁⟩ := shows'.advance
  have related : Wraps stop brace stop' 0 c c₁' := ⟨ts, ts', shows, shows₁, alike, ordinary, inside⟩
  let P : Pairing := wrapping stop' stops closes
  have goal := uniform P .expression False (c.rest.length + 1) 0 c c₁' related (Nat.lt_succ_self _)
    False.elim
  have keeps : P.Keeps False (c.rest.length + 1) _ _ := expression_keeps (uniform P)
  have whole := keeps 0 c c₁' related (Nat.lt_succ_self _) False.elim
  have bare (n : Nat) : contents nested n c₁' = expression nested c₁' := by
    refine contents_eq (fun e c₂ outcome => ?_) n
    rw [outcome] at goal
    obtain ⟨_, -, related₂⟩ := goal.of_ok
    exact Wraps.kind_ne related₂ closes
  simp only [enter_eq_ok moves, bare, close_eq_ok, Expr.island.injEq]
  constructor
  · rintro ⟨c₂, outcome, ends⟩
    rw [outcome] at whole
    obtain ⟨c₂', outcome', related₂, -⟩ := whole.eq_ok
    obtain ⟨c₃, closed, moved, ends'⟩ := (Wraps.ends_iff related₂ stops closes stops').1 ends
    exact ⟨c₃, ⟨a, c₂', outcome', closed, rfl, moved⟩, ends'⟩
  · rintro ⟨c₃, ⟨_, c₂', outcome', closed, rfl, moved⟩, ends'⟩
    rw [outcome'] at whole
    obtain ⟨c₂, outcome, related₂⟩ := whole.of_ok
    exact ⟨c₂, outcome,
      (Wraps.ends_iff related₂ stops closes stops').2 ⟨c₃, closed, moved, ends'⟩⟩

/-- An island does not end the text where something else follows its brace. -/
theorem enter_stray (uniform : Uniform nested) (opens : opening.kind = .openIsland)
    (closes : brace.kind = .closeIsland) (inside : Inside 0 (opening :: ts'))
    (shows : Shows brace later failure (opening :: ts') c)
    (more : (∃ t us, later = t :: us ∧ t.kind ≠ .eof) ∨ later = [] ∧ failure ≠ none) :
    ¬ ∃ c₁, enter nested c = .ok (e, c₁) ∧ c₁.current.isEof = true := by
  rintro ⟨c₁, entered, ends⟩
  replace ends := Lexer.isEof_iff.1 ends
  cases enter_passes uniform closes opens inside with
  | error e all =>
    rw [all later failure c shows] at entered
    cases entered
  | before e us shorter inside all =>
    obtain ⟨c₂, outcome, shows₂⟩ := all later failure c shows
    rw [outcome] at entered
    cases entered
    cases us with
    | nil => exact absurd inside.islands (by simp)
    | cons t us =>
      rw [shows₂.current] at ends
      exact inside.inked t List.mem_cons_self ends
  | behind e all =>
    have ended : Ended later failure := by
      rcases more with ⟨t, us, rfl, -⟩ | ⟨-, failed⟩
      · exact .inl (List.cons_ne_nil t us)
      · exact .inr failed
    rw [all later failure c ended shows] at entered
    rcases more with ⟨t, us, rfl, other⟩ | ⟨rfl, failed⟩
    · cases entered
      exact other ends
    · cases failure with
      | none => exact failed rfl
      | some e => cases entered

end Islands

section Trees

theorem alike_counts {ts ts' : List Token} (h : List.Forall₂ Token.Alike ts ts') :
    Token.opened ts' = Token.opened ts ∧ Token.closed ts' = Token.closed ts := by
  induction h with
  | nil => exact ⟨rfl, rfl⟩
  | cons first _ ih =>
    simp only [Token.opened_cons, Token.closed_cons, first.kind, ih.1, ih.2, and_self]

theorem alike_inked {ts ts' : List Token} (h : List.Forall₂ Token.Alike ts ts')
    (inked : ∀ t ∈ ts, t.kind ≠ .eof) : ∀ t ∈ ts', t.kind ≠ .eof := by
  induction h with
  | nil => exact fun _ h => absurd h List.not_mem_nil
  | cons first _ ih =>
    obtain ⟨here, others⟩ := List.forall_mem_cons.1 inked
    exact List.forall_mem_cons.2 ⟨by rwa [first.kind], ih others⟩

/-- An expression that is not blank has the same tree alone and as an island that is the whole of a
template, if no filters are allowed. -/
theorem parse_island_iff (o : ParseOptions) (plain : o.allowFilter = false) {src : String}
    (inked : ∃ c ∈ src.toList, ¬ Lexer.isSpace c = true) (a : Expr) :
    parse src { o with form := .expression } = .ok a ↔
      parse ("$\x7b" ++ src ++ "\x7d") { o with form := .template } =
        .ok (.document [.island a]) := by
  have uniform : Uniform (nestedGoal o.namespaces o.maxDepth) :=
    fun P => nestedGoal_keeps (P := P) o.namespaces o.maxDepth
  have bare : Lexer.ofSource src.toList { o with form := .expression }.lexer =
      Lexer.bare src.toList := by
    rw [Lexer.bare, ParseOptions.lexer, plain]
    rfl
  have enclosed : Lexer.ofSource ("$\x7b" ++ src ++ "\x7d").toList
      { o with form := .template }.lexer = Lexer.enclosed src.toList := by
    rw [Lexer.enclosed, Lexer.island, ParseOptions.lexer, plain, String.toList_append,
      String.toList_append]
    rfl
  have inside {ts ts' : List Token} {opening : Token} (opens : opening.kind = .openIsland)
      (contents : Lexer.Contents ts ts') : Inside 0 (opening :: ts') := by
    obtain ⟨opened, closed⟩ := alike_counts contents.alike
    have islands := contents.islands
    refine ⟨List.forall_mem_cons.2 ⟨by rw [opens]; exact TokenKind.noConfusion,
      alike_inked contents.alike contents.inked⟩, ?_⟩
    simp only [Token.opened_cons, Token.closed_cons, opens, TokenKind.opened, TokenKind.closed,
      opened, closed]
    omega
  cases Lexer.enclosed_cases src.toList with
  | lost failed failed' =>
    rw [← bare] at failed
    rw [← enclosed] at failed'
    exact iff_of_false (parse_ne_of_failure (by simp) failed _)
      (parse_ne_of_failure (by simp) failed' _)
  | @stray ts ts' later opening brace contents opens closes failed tokens' more =>
    rw [← bare] at failed
    refine iff_of_false (parse_ne_of_failure (by simp) failed _) ?_
    obtain ⟨c, read, shows, -⟩ :=
      ofTokens_shows brace later (Lexer.enclosed src.toList).failure? (opening :: ts')
    rw [← tokens', ← enclosed, ← Cursor.ofSource_eq] at read
    rw [parse_single rfl read (by rw [shows.current, opens])]
    exact enter_stray uniform opens closes (inside opens contents) shows more
  | @ends ts ts' opening brace stop stop' contents opens closes stops stops' tokens ended tokens'
      ended' =>
    have some_ : ts ≠ [] := by
      rintro rfl
      obtain ⟨c, member, ink⟩ := inked
      exact ink (Lexer.blank_of_tokens stops tokens c member)
    obtain ⟨c, read, shows, -⟩ := ofTokens_shows stop [] none ts
    obtain ⟨c', read', shows', -⟩ := ofTokens_shows brace [stop'] none (opening :: ts')
    rw [← tokens, ← ended, ← bare, ← Cursor.ofSource_eq] at read
    rw [← tokens', ← ended', ← enclosed, ← Cursor.ofSource_eq] at read'
    have goes : ¬ c.current.isEof = true := by
      obtain ⟨t, us, rfl⟩ := List.exists_cons_of_ne_nil some_
      rw [shows.current]
      exact fun ends => contents.inked t List.mem_cons_self (Lexer.isEof_iff.1 ends)
    rw [parse_expression rfl read goes,
      parse_single rfl read' (by rw [shows'.current, opens])]
    exact enter_wraps uniform stops closes stops' shows shows' contents.alike contents.ordinary
      ⟨contents.inked, by rw [contents.islands]⟩

/-- A bar between operands, and braces in a hole of a template. -/
def barred : String := "a|\x60$\x7b\x7bb:c\x7d\x7d\x60"

theorem parse_island_iff_barred :
    let o : ParseOptions := { ParseOptions.template with allowFilter := false }
    let tree : Expr := .binary .bitOr (.variable "a")
      (.template [.object [(.identifier "b", .variable "c")]])
    o.allowFilter = false ∧ (∃ c ∈ barred.toList, ¬ Lexer.isSpace c = true) ∧
      parse barred { o with form := .expression } = .ok tree ∧
      parse ("$\x7b" ++ barred ++ "\x7d") { o with form := .template } =
        .ok (.document [.island tree]) := by
  intro o tree
  have inked : ∃ c ∈ barred.toList, ¬ Lexer.isSpace c = true := ⟨'a', by decide, by decide⟩
  have alone : parse barred { o with form := .expression } = .ok tree := by cbv
  exact ⟨rfl, inked, alone, (parse_island_iff o rfl inked tree).1 alone⟩

end Trees

end Parser

namespace Parser

section Operand

variable {nested : Nested} {names : List String} {c c₁ : Cursor} {e : Expr}

theorem unaryOps_none (first : ∀ s, c.current.kind ≠ .punctuator s) (n : Nat) :
    unaryOps n c = .ok ([], c) := by
  cases n with
  | zero => rfl
  | succ n =>
    have shown : kind c = .ok (c.current.kind, c) := rfl
    rw [unaryOps, bind_of_ok shown]
    cases eq : c.current.kind with
    | punctuator s => exact absurd eq (first s)
    | _ => rfl

theorem climb_none (last : binaryOp? c.current.kind = none) (right : Nat → Parser (Option Expr))
    (bound n : Nat) : climb right bound n e c = .ok (e, c) := by
  cases n with
  | zero => rfl
  | succ n =>
    have shown : kind c = .ok (c.current.kind, c) := rfl
    rw [climb, bind_of_ok shown, last]
    rfl

/-- An operand without operators around it is an expression. -/
theorem conditional_operand (first : ∀ s, c.current.kind ≠ .punctuator s)
    (host : operand names nested c = .ok (some e, c₁))
    (last : binaryOp? c₁.current.kind = none)
    (asks : c₁.current.kind.isPunctuator "?" = false) :
    conditional names nested c = .ok (some e, c₁) := by
  have left (c : Cursor) : remaining c = .ok (c.remaining, c) := rfl
  have plain : check "?" c₁ = .ok (false, c₁) := by rw [← asks]; rfl
  have single : unary names nested c = .ok (some e, c₁) := by
    rw [unary, bind_of_ok (left c), bind_of_ok (unaryOps_none first _), bind_of_ok host]
    rfl
  have chain (n bound : Nat) : binary names nested n bound c = .ok (some e, c₁) := by
    cases n with
    | zero => exact single
    | succ n =>
      rw [binary, bind_of_ok single]
      dsimp only
      rw [bind_of_ok (left c₁), bind_of_ok (climb_none last _ _ _)]
      rfl
  rw [conditional, bind_of_ok (chain _ _)]
  dsimp only
  rw [bind_of_ok plain, if_neg Bool.false_ne_true]
  rfl

end Operand

section Island

variable {nested : Nested} {o : ParseOptions} {opening brace stop : Token} {c : Cursor}
  {ts : List Token} {a : Expr}

/-- In front of the end of an island an expression is all that the island holds. -/
theorem contents_of_expression {c₁ : Cursor} (inner : nested .expression c = .ok (some a, c₁))
    (closes : c₁.current.kind = .closeIsland) (n : Nat) : contents nested n c = .ok (a, c₁) := by
  have plain : ∀ e c₂, nested .expression c = .ok (some e, c₂) →
      c₂.current.kind ≠ .openFilter := by
    intro e c₂ outcome
    obtain ⟨-, rfl⟩ := Prod.mk.inj (Except.ok.inj (inner.symm.trans outcome))
    rw [closes]
    exact TokenKind.noConfusion
  rw [contents_eq plain]
  exact bind_of_ok inner

/-- A text is a single island if its tokens are the contents of the island between braces. -/
theorem parse_enclosed {src : String} (form : o.form = .template)
    (read : Cursor.ofSource src.toList o.lexer = .ok ⟨opening, c.current :: c.rest, none⟩)
    (idle : c.failure = none) (opens : opening.kind = .openIsland)
    (closes : brace.kind = .closeIsland) (ends : stop.kind = .eof)
    (inner : ∀ n, contents (nestedGoal o.namespaces o.maxDepth) n c =
      .ok (a, ⟨brace, [stop], none⟩)) :
    parse src o = .ok (.document [.island a]) := by
  have moves : Cursor.advance ⟨opening, c.current :: c.rest, none⟩ = .ok c := by
    rw [← idle]
    rfl
  rw [parse_single form read opens]
  exact ⟨⟨stop, [], none⟩,
    (enter_eq_ok moves).2 ⟨a, ⟨brace, [stop], none⟩, inner _, close_eq_ok.2 ⟨closes, rfl, rfl⟩⟩,
    Lexer.isEof_iff.2 ends⟩

end Island

end Parser

end TemplateFormula
