import TemplateFormula.Proofs.Lexing.Joining
import Mathlib.Data.List.TakeWhile

/-!
# Expressions in islands

Without filters an island holds nothing but an expression. The lexer reads the expression token by
token as it does without the island, until the braces part them: the brace of the island stands
where the expression ends, a brace in the expression that closes nothing closes the island, and
what is not ended in front of the brace is not ended behind it.
-/

namespace TemplateFormula

/-- Tokens that differ in their places at most. -/
structure Token.Alike (t t' : Token) : Prop where
  kind : t'.kind = t.kind
  raw : t'.raw = t.raw

theorem Token.Shifted.alike {p : Position} {t t' : Token} (h : t.Shifted p t') : t.Alike t' :=
  ⟨h.kind, h.raw⟩

section Alike

variable {ts us vs : List Token}

theorem kinds_alike (h : List.Forall₂ Token.Alike ts us) : ts.map (·.kind) = us.map (·.kind) := by
  induction h with
  | nil => rfl
  | cons first _ ih => rw [List.map_cons, List.map_cons, ih, first.kind]

theorem alike_compose (h : List.Forall₂ Token.Alike ts us) (h' : List.Forall₂ Token.Alike ts vs) :
    List.Forall₂ Token.Alike us vs := by
  induction h generalizing vs with
  | nil =>
    cases h'
    exact .nil
  | cons first _ ih =>
    cases h' with
    | cons first' others =>
      exact .cons ⟨first'.kind.trans first.kind.symm, first'.raw.trans first.raw.symm⟩ (ih others)

end Alike

/-- The tokens of an expression without filters. -/
def TokenKind.isOrdinary : TokenKind → Bool
  | .eof | .openFilter => false
  | _ => true

namespace TokenKind

variable {k : TokenKind}

theorem ne_eof_of_isOrdinary (h : k.isOrdinary) : k ≠ .eof := by
  rintro rfl
  cases h

theorem ne_openFilter_of_isOrdinary (h : k.isOrdinary) : k ≠ .openFilter := by
  rintro rfl
  cases h

theorem isOrdinary_of_isUnmarked (h : k.isUnmarked) : k.isOrdinary := by
  cases k <;> first | rfl | cases h

end TokenKind

theorem Token.Alike.text {t t' : Token} (h : t.Alike t') : t'.text = t.text := by
  rw [Token.text, Token.text, h.kind, h.raw]

/-- The open constructs of an expression, alone and in an island. -/
inductive Mode.Stacked : List Mode → List Mode → Prop where
  | bottom : Stacked (Lexer.baseModes true) (.script :: Lexer.baseModes false)
  | push (m : Mode) {ms ms' : List Mode} (inner : m ≠ .start ∧ m ≠ .filter)
      (below : Stacked ms ms') : Stacked (m :: ms) (m :: ms')

namespace Mode.Stacked

variable {ms ms' : List Mode}

theorem length (h : Stacked ms ms') : 2 ≤ ms.length ∧ ms'.length = ms.length := by
  induction h with
  | bottom => exact ⟨Nat.le_refl _, rfl⟩
  | push m _ _ ih =>
    obtain ⟨le, eq⟩ := ih
    exact ⟨Nat.le_succ_of_le le, by rw [List.length_cons, List.length_cons, eq]⟩

theorem eq_bottom (h : Stacked ms ms') (low : ms.length = 2) :
    ms = Lexer.baseModes true ∧ ms' = .script :: Lexer.baseModes false := by
  cases h with
  | bottom => exact ⟨rfl, rfl⟩
  | push m _ below =>
    have := below.length.1
    rw [List.length_cons] at low
    omega

end Mode.Stacked

namespace Lexer

/-- The lexer in an expression, and at the same place of the expression in an island. -/
structure Encloses (l l' : Lexer) : Prop where
  rest : l'.rest = l.rest ++ ['\x7d']
  pending : l'.pending = l.pending
  afterOperand : l'.afterOperand = l.afterOperand
  modes : Mode.Stacked l.modes l'.modes
  baseDepth : l.baseDepth = 2 ∧ l'.baseDepth = 1
  allowFilter : l.allowFilter = false ∧ l'.allowFilter = false
  waits : ∀ x, l.pending = some x → x.kind.isOrdinary

/-- The lexer behind the island. -/
structure Outside (l : Lexer) : Prop where
  modes : l.modes = baseModes false
  baseDepth : l.baseDepth = (baseModes false).length
  pending : l.pending = none

/-- Nothing behind the outcome ends the text well: it is an error, or the last characters are taken
with something left open. -/
def Result.Doomed : Result Lexeme → Prop
  | (.error _, _) => True
  | (.ok x, l) =>
    x.kind ≠ .eof ∧ x.length = l.rest.length ∧ l.pending = none ∧ l.baseDepth < l.depth

/-- What is found in an expression, and at the same place of the expression in an island. -/
inductive Result.Meets : Result Lexeme → Result Lexeme → Prop where
  | same (x : Lexeme) {l l' : Lexer} (ordinary : x.kind.isOrdinary) (states : Encloses l l') :
      Meets (.ok x, l) (.ok x, l')
  | ends (x y : Lexeme) {l l' : Lexer} (states : Encloses l l') (bottom : l.modes = baseModes true)
      (idle : l.pending = none) (last : l.rest = []) (stops : x.kind = .eof)
      (closes : y.kind = .closeIsland) (single : y.length = 1) : Meets (.ok x, l) (.ok y, l'.pop)
  | stray (e : LexError) (y : Lexeme) {l l' : Lexer} (states : Encloses l l')
      (bottom : l.modes = baseModes true) (idle : l.pending = none) (more : l.rest ≠ [])
      (closes : y.kind = .closeIsland) (single : y.length = 1) : Meets (.error e, l) (.ok y, l'.pop)
  | lost {r r' : Result Lexeme} (doomed : r.Doomed) (doomed' : r'.Doomed) : Meets r r'

variable {l l' m m' : Lexer} {x y : Lexeme}

namespace Encloses

theorem push (h : l.Encloses l') (m : Mode) (inner : m ≠ .start ∧ m ≠ .filter) :
    (l.push m).Encloses (l'.push m) :=
  ⟨h.rest, h.pending, h.afterOperand, h.modes.push m inner, h.baseDepth, h.allowFilter, h.waits⟩

/-- The modes are those at the bottom, or the innermost is the same. -/
theorem mode_cases (h : l.Encloses l') :
    (l.modes = baseModes true ∧ l'.modes = .script :: baseModes false) ∨
    (l'.mode = l.mode ∧ (l.mode ≠ .start ∧ l.mode ≠ .filter) ∧ 2 < l.depth ∧
      l.pop.Encloses l'.pop) := by
  obtain ⟨rest, pending, operand, modes, depth, allow, waits⟩ := h
  generalize modes_eq : l.modes = ms at modes
  generalize modes_eq' : l'.modes = ms' at modes
  cases modes with
  | bottom => exact .inl ⟨rfl, rfl⟩
  | push m inner below =>
    have mode_eq : l.mode = m := by rw [mode, modes_eq, List.headD_cons]
    have mode_eq' : l'.mode = m := by rw [mode, modes_eq', List.headD_cons]
    have low := below.length.1
    have below : Mode.Stacked l.pop.modes l'.pop.modes := by
      rw [pop, pop, modes_eq, modes_eq']
      exact below
    have high : 2 < l.depth := by
      rw [Lexer.depth, modes_eq, List.length_cons]
      exact Nat.lt_succ_of_le low
    rw [mode_eq, mode_eq']
    exact .inr ⟨rfl, inner, high, rest, pending, operand, below, depth, allow, waits⟩

theorem mode_ne (h : l.Encloses l') :
    (l.mode ≠ .start ∧ l.mode ≠ .filter) ∧ l'.mode ≠ .start ∧ l'.mode ≠ .filter := by
  rcases h.mode_cases with ⟨bottom, bottom'⟩ | ⟨same, inner, -, -⟩
  · rw [mode, mode, bottom, bottom']
    exact ⟨⟨by decide, by decide⟩, by decide, by decide⟩
  · rw [same]
    exact ⟨inner, inner⟩

theorem template_iff (h : l.Encloses l') : l'.mode = .template ↔ l.mode = .template := by
  rcases h.mode_cases with ⟨bottom, bottom'⟩ | ⟨same, -, -, -⟩
  · rw [mode, mode, bottom, bottom']
    exact iff_of_false (by decide) (by decide)
  · rw [same]

theorem depth_eq (h : l.Encloses l') : 2 ≤ l.depth ∧ l'.depth = l.depth := h.modes.length

theorem closedKind_ordinary (m : Mode) {k : TokenKind} (ordinary : k.isOrdinary) :
    (closedKind m k).isOrdinary := by
  cases m with
  | script | expression => rfl
  | _ => exact ordinary

/-- A closing brace closes the same in both, or the island only. -/
theorem closeTop (h : l.Encloses l') (idle : l.pending = none) (some_ : l.rest ≠ [])
    (ordinary : x.kind.isOrdinary) (single : x.length = 1) :
    Result.Meets (l.closeTop x) (l'.closeTop x) := by
  obtain ⟨depth_eq, depth_eq'⟩ := h.depth_eq
  obtain ⟨base, base'⟩ := h.baseDepth
  have inside : ¬ l'.depth ≤ l'.baseDepth := by omega
  unfold Lexer.closeTop
  rw [if_neg inside]
  rcases h.mode_cases with ⟨bottom, bottom'⟩ | ⟨same, -, high, below⟩
  · have low : l.depth ≤ l.baseDepth := by
      rw [depth, bottom, base]
      exact Nat.le_refl _
    have script : l'.mode = .script := by rw [mode, bottom', List.headD_cons]
    rw [if_pos low]
    refine .stray _ _ h bottom idle some_ ?_ single
    simp only [script, closedKind]
  · rw [if_neg (show ¬ l.depth ≤ l.baseDepth by omega), same]
    exact .same _ (closedKind_ordinary l.mode ordinary) below

theorem settle (h : l.Encloses l') (idle : l.pending = none) (some_ : l.rest ≠ [])
    (ordinary : x.kind.isOrdinary)
    (single : x.kind.isPunctuator "\x7d" → x.length = 1) :
    Result.Meets (l.settle x) (l'.settle x) := by
  obtain ⟨⟨-, filter⟩, -, filter'⟩ := h.mode_ne
  obtain ⟨allow, allow'⟩ := h.allowFilter
  unfold Lexer.settle
  by_cases opening : x.kind.isPunctuator "\x7b" = true
  · rw [if_pos opening, if_pos opening]
    exact .same x ordinary (h.push .block (by decide))
  rw [if_neg opening, if_neg opening]
  by_cases closing : x.kind.isPunctuator "\x7d" = true
  · rw [if_pos closing, if_pos closing, closeBrace_eq, closeBrace_eq, if_neg filter,
      if_neg filter']
    exact h.closeTop idle some_ ordinary (single closing)
  rw [if_neg closing, if_neg closing]
  -- Without filters a bar is an operator.
  have bar (m : Mode) : ¬ (m = .script ∧ l.allowFilter = true) := by
    rw [allow]
    exact fun h => Bool.noConfusion h.2
  have bar' (m : Mode) : ¬ (m = .script ∧ l'.allowFilter = true) := by
    rw [allow']
    exact fun h => Bool.noConfusion h.2
  rw [if_neg (bar _), if_neg (bar' _), if_neg filter, if_neg filter', ite_self, ite_self]
  exact .same x ordinary h

theorem settle_unmarked (h : l.Encloses l') (unmarked : x.kind.isUnmarked) :
    Result.Meets (l.settle x) (l'.settle x) := by
  rw [settle_of_isUnmarked unmarked, settle_of_isUnmarked unmarked]
  exact .same x (TokenKind.isOrdinary_of_isUnmarked unmarked) h

theorem word? (h : l.Encloses l') : l'.word? = l.word? := by
  unfold Lexer.word?
  rw [h.rest, h.afterOperand, Scan.keyword?_closing Scan.parting_brace,
    Scan.identifier?_closing Scan.parting_brace, Scan.number?_closing Scan.parting_brace
      (absurd · Scan.not_isSign_brace) (absurd · Scan.not_isSign_brace)]

theorem scanExpression (h : l.Encloses l') (idle : l.pending = none) (some_ : l.rest ≠ []) :
    Result.Meets l.scanExpression l'.scanExpression := by
  obtain ⟨⟨-, filter⟩, -, filter'⟩ := h.mode_ne
  have failed (e e' : LexError) : Result.Meets (.error e, l) (.error e', l') :=
    .lost trivial trivial
  unfold Lexer.scanExpression
  rw [h.word?]
  cases word_eq : l.word? with
  | some x => exact h.settle_unmarked (word?_isUnmarked word_eq)
  | none =>
    dsimp only
    cases quoted_eq : Scan.quoted? l.rest with
    | error e =>
      obtain ⟨e', quoted_eq'⟩ := Scan.quoted?_unended quoted_eq
      rw [h.rest, quoted_eq']
      cases e <;> cases e' <;> exact failed _ _
    | ok quoted =>
      have quoted_eq' : Scan.quoted? l'.rest = .ok quoted := by
        rw [h.rest]
        exact Scan.quoted?_append quoted_eq some_ _
      rw [quoted_eq']
      cases quoted with
      | some x => exact h.settle_unmarked (Scan.quoted?_isUnmarked quoted_eq)
      | none =>
        have punctuator_eq : Scan.punctuator? l'.rest = Scan.punctuator? l.rest := by
          rw [h.rest]
          exact Scan.punctuator?_enclosed Scan.lone_brace some_
        have head_eq : l'.rest.head? = l.rest.head? := by
          rw [h.rest, List.head?_append_of_ne_nil _ some_]
        dsimp only
        rw [punctuator_eq, head_eq, if_neg filter, if_neg filter']
        cases found : Scan.punctuator? l.rest with
        | some x =>
          have ordinary : x.kind.isOrdinary := by
            obtain ⟨_, _, _, rfl⟩ := Scan.punctuator?_eq_some found
            rfl
          exact h.settle idle some_ ordinary (Scan.punctuator?_brace found)
        | none =>
          dsimp only
          by_cases tick : l.rest.head? = some Scan.backtick
          · rw [if_pos tick, if_pos tick]
            exact .same _ rfl (h.push .template (by decide))
          · rw [if_neg tick, if_neg tick]
            exact failed _ _

theorem openIsland? (h : l.Encloses l') :
    (l.openIsland? = none ∧ l'.openIsland? = none) ∨
    ∃ x, x.kind = .openIsland ∧ l.openIsland? = some (x, l.push .script) ∧
      l'.openIsland? = some (x, l'.push .script) := by
  rw [openIsland?_eq, openIsland?_eq, h.rest, Scan.isPrefixOf_closing (by decide)]
  by_cases opens : ['$', '\x7b'].isPrefixOf l.rest = true
  · rw [if_pos opens, if_pos opens]
    exact .inr ⟨_, rfl, rfl, rfl⟩
  · rw [if_neg opens, if_neg opens]
    exact .inl ⟨rfl, rfl⟩

theorem scanInside (h : l.Encloses l') (idle : l.pending = none) (some_ : l.rest ≠ []) :
    Result.Meets l.scanInside l'.scanInside := by
  unfold Lexer.scanInside
  rcases h.openIsland? with ⟨none_, none_'⟩ | ⟨x, kind_eq, opened, opened'⟩
  · rw [none_, none_']
    exact h.scanExpression idle some_
  · rw [opened, opened']
    refine .same x ?_ (h.push .script (by decide))
    rw [kind_eq]
    rfl

end Encloses

section Templates

/-- A template that nothing ends takes the rest of the text. -/
theorem scanTemplate_doomed (open_ : l.baseDepth < l.depth) (some_ : l.rest ≠ [])
    (unended : ∀ s, Scan.templateStretch 0 l.rest = .ok s → s.next = none) :
    Result.Doomed l.scanTemplate := by
  unfold scanTemplate
  cases stretch_eq : Scan.templateStretch 0 l.rest with
  | error n => trivial
  | ok s =>
    have none_ := unended s stretch_eq
    have length_eq := Scan.templateStretch_length stretch_eq none_
    have pos : s.length ≠ 0 := by
      have := List.length_pos_iff.mpr some_
      omega
    simp only [none_, afterTemplate, deliverStretch_of_pos pos]
    exact ⟨TokenKind.noConfusion, length_eq.trans (Nat.zero_add _), rfl, open_⟩

theorem Encloses.afterTemplate (h : l.Encloses l') (template : l.mode = .template)
    (next : Option Lexeme) : (l.afterTemplate next).Encloses (l'.afterTemplate next) := by
  unfold Lexer.afterTemplate
  split
  · split
    · exact h.push .expression (by decide)
    · rcases h.mode_cases with ⟨bottom, -⟩ | ⟨-, -, -, below⟩
      · rw [mode, bottom] at template
        exact absurd template (by decide)
      · exact below
  · exact h

theorem Encloses.deliverStretch (h : l.Encloses l') {s : Scan.Stretch}
    (found : s.next = some x) (ordinary : x.kind.isOrdinary) (fits : s.length ≤ l.rest.length) :
    ∃ y m m', l.deliverStretch .templateRaw s = (some y, m) ∧
      l'.deliverStretch .templateRaw s = (some y, m') ∧ y.kind.isOrdinary ∧ m.Encloses m' := by
  have spelling : l'.rest.take s.length = l.rest.take s.length := by
    rw [h.rest]
    exact List.take_append_of_le_length fits
  unfold Lexer.deliverStretch
  rw [spelling, found]
  split
  · exact ⟨x, l, l', rfl, rfl, ordinary, h⟩
  · refine ⟨_, _, _, rfl, rfl, rfl, ?_⟩
    refine ⟨h.rest, rfl, h.afterOperand, h.modes, h.baseDepth, h.allowFilter, ?_⟩
    rintro y ⟨⟩
    exact ordinary

theorem Encloses.scanTemplate (h : l.Encloses l') (template : l.mode = .template)
    (some_ : l.rest ≠ []) :
    Result.Meets l.scanTemplate l'.scanTemplate := by
  by_cases ended : ∃ s x, Scan.templateStretch 0 l.rest = .ok s ∧ s.next = some x
  · obtain ⟨s, x, stretch_eq, found⟩ := ended
    have stretch_eq' : Scan.templateStretch 0 l'.rest = .ok s := by
      rw [h.rest]
      exact (Scan.templateStretch_enclosed found).mpr stretch_eq
    have fits : s.length ≤ (l.afterTemplate s.next).rest.length := by
      rw [afterTemplate_rest]
      simpa using (Scan.templateStretch_fits stretch_eq).2.1
    have ordinary : x.kind.isOrdinary := by
      rcases Scan.templateStretch_next_kind stretch_eq found with eq | eq <;> rw [eq] <;> rfl
    obtain ⟨y, m, m', delivered, delivered', ordinary, states⟩ :=
      (h.afterTemplate template s.next).deliverStretch found ordinary fits
    unfold Lexer.scanTemplate
    rw [stretch_eq, stretch_eq']
    dsimp only
    rw [delivered, delivered']
    exact .same y ordinary states
  · have unended (s : Scan.Stretch) (stretch_eq : Scan.templateStretch 0 l.rest = .ok s) :
        s.next = none := by
      cases found : s.next with
      | none => rfl
      | some x => exact absurd ⟨s, x, stretch_eq, found⟩ ended
    have unended' (s : Scan.Stretch) (stretch_eq : Scan.templateStretch 0 l'.rest = .ok s) :
        s.next = none := by
      cases found : s.next with
      | none => rfl
      | some x =>
        rw [h.rest, Scan.templateStretch_enclosed found] at stretch_eq
        exact absurd ⟨s, x, stretch_eq, found⟩ ended
    have high : 2 < l.depth := by
      rcases h.mode_cases with ⟨bottom, -⟩ | ⟨-, -, high, -⟩
      · rw [mode, bottom] at template
        exact absurd template (by decide)
      · exact high
    obtain ⟨base, base'⟩ := h.baseDepth
    have same := h.depth_eq.2
    have some_' : l'.rest ≠ [] := by
      rw [h.rest]
      exact List.append_ne_nil_of_left_ne_nil some_ _
    exact .lost (scanTemplate_doomed (by omega) some_ unended)
      (scanTemplate_doomed (by omega) some_' unended')

end Templates

section Scans

theorem Encloses.skipSpace (h : l.Encloses l') : l.skipSpace.Encloses l'.skipSpace := by
  have inked : isSpace '\x7d' = false := by decide
  have skips : skipsSpace l'.mode = skipsSpace l.mode := by
    rcases h.mode_cases with ⟨bottom, bottom'⟩ | ⟨same, -, -, -⟩
    · rw [mode, mode, bottom, bottom']
      rfl
    · rw [same]
  unfold Lexer.skipSpace
  rw [skips]
  split
  · refine ⟨?_, h.pending, h.afterOperand, h.modes, h.baseDepth, h.allowFilter, h.waits⟩
    dsimp only
    rw [h.rest, Scan.dropWhile_closing inked]
  · exact h

/-- In front of the last brace alone nothing but this brace is found. -/
theorem scanInside_brace (brace : l.rest = ['\x7d']) (filter : l.mode ≠ .filter) :
    l.scanInside = l.closeTop ⟨.punctuator "\x7d", none, 1⟩ := by
  have opens : l.openIsland? = none := by
    rw [openIsland?_eq, brace]
    rfl
  have word : l.word? = none := by
    unfold word?
    rw [brace]
    rfl
  have quoted : Scan.quoted? l.rest = .ok none := by
    rw [brace]
    rfl
  have sign : Scan.punctuator? l.rest = some ⟨.punctuator "\x7d", none, 1⟩ := by
    rw [brace]
    rfl
  unfold scanInside scanExpression
  rw [opens, word, quoted, sign]
  change l.closeBrace _ = _
  rw [closeBrace_eq, if_neg filter]

/-- What is found behind white space where the text goes on. -/
def scanOn (l : Lexer) : Result Lexeme :=
  match l.mode with
  | .start => l.scanRaw
  | .template => l.scanTemplate
  | _ => l.scanInside

theorem scanOn_of_inside (start : l.mode ≠ .start) (template : l.mode ≠ .template) :
    l.scanOn = l.scanInside := by
  unfold scanOn
  split
  · next eq => exact absurd eq start
  · next eq => exact absurd eq template
  · rfl

/-- Where an expression ends with something left open, the last brace does not close the island. -/
theorem Encloses.scanOn_doomed (h : l.Encloses l') (idle : l.pending = none) (last : l.rest = [])
    (open_ : 2 < l.depth) : Result.Doomed l'.scanOn := by
  obtain ⟨-, start, filter⟩ := h.mode_ne
  have deep : 2 < l'.depth := by rw [h.depth_eq.2]; exact open_
  have base := h.baseDepth.2
  have brace : l'.rest = ['\x7d'] := by rw [h.rest, last, List.nil_append]
  by_cases template : l'.mode = .template
  · have found : l'.scanOn = l'.scanTemplate := by rw [scanOn, template]
    rw [found]
    refine scanTemplate_doomed (by omega) (by rw [brace]; exact List.cons_ne_nil _ _) ?_
    rw [brace]
    rintro s ⟨⟩
    rfl
  · rw [scanOn_of_inside start template, scanInside_brace brace filter, Lexer.closeTop,
      if_neg (by omega)]
    refine ⟨?_, by rw [pop, brace]; rfl, h.pending.trans idle, ?_⟩
    · exact TokenKind.ne_eof_of_isOrdinary
        (closedKind_ordinary l'.mode (k := .punctuator "\x7d") rfl)
    · simp only [pop, depth, List.length_tail] at deep ⊢
      omega

theorem Encloses.scan (h : l.Encloses l') (idle : l.pending = none) :
    Result.Meets l.scan l'.scan := by
  replace idle : l.skipSpace.pending = none := (skipSpace_pending l).trans idle
  replace h := h.skipSpace
  unfold Lexer.scan
  generalize l.skipSpace = l at h idle
  generalize l'.skipSpace = l' at h
  obtain ⟨⟨start, filter⟩, start', filter'⟩ := h.mode_ne
  have goes : ¬ l'.rest.isEmpty = true := by simp [h.rest]
  change Result.Meets _ (if l'.rest.isEmpty then _ else l'.scanOn)
  rw [if_neg goes]
  by_cases last : l.rest = []
  · have ended : l.rest.isEmpty = true := List.isEmpty_iff.2 last
    have base := h.baseDepth.1
    dsimp only
    rw [if_pos ended]
    by_cases closed : l.depth = l.baseDepth
    · obtain ⟨bottom, bottom'⟩ := h.modes.eq_bottom (closed.trans base)
      have brace : l'.rest = ['\x7d'] := by rw [h.rest, last, List.nil_append]
      have script : l'.mode = .script := by rw [mode, bottom', List.headD_cons]
      have inside : ¬ l'.depth ≤ l'.baseDepth := by
        rw [h.depth_eq.2, h.baseDepth.2, closed, base]
        decide
      rw [if_pos closed, scanOn_of_inside start' (by rw [script]; decide),
        scanInside_brace brace filter', Lexer.closeTop, if_neg inside, script]
      exact .ends _ _ h bottom idle last rfl rfl rfl
    · rw [if_neg closed]
      refine .lost trivial (h.scanOn_doomed idle last ?_)
      have := h.depth_eq.1
      omega
  · have some_ : ¬ l.rest.isEmpty = true := fun empty => last (List.isEmpty_iff.1 empty)
    change Result.Meets (if l.rest.isEmpty then _ else l.scanOn) _
    rw [if_neg some_]
    by_cases template : l.mode = .template
    · have template' := h.template_iff.2 template
      rw [scanOn, scanOn, template, template']
      exact h.scanTemplate template last
    · have template' : ¬ l'.mode = .template := fun eq => template (h.template_iff.1 eq)
      rw [scanOn_of_inside start template, scanOn_of_inside start' template']
      exact h.scanInside idle last

end Scans

section Pulled

variable {t t' : Token} {ts ts' : List Token}

/-- With nothing left of a text and something left open, pulling fails. -/
theorem nextToken_open (idle : l.pending = none) (last : l.rest = [])
    (open_ : l.baseDepth < l.depth) : ∃ e m, l.nextToken = (.error e, m) := by
  have empty : l.skipSpace.rest = [] := by
    have := skipSpace_length_le l
    rw [last] at this
    exact List.length_eq_zero_iff.1 (Nat.le_zero.1 this)
  rcases scan_cases idle with ⟨_, closed, _⟩ | ⟨_, _, failed⟩ | ⟨some_, _⟩
  · omega
  · exact ⟨_, _, nextToken_of_failed idle failed⟩
  · exact absurd empty some_

/-- The next pull fails, or the one behind it. -/
def Fails (l : Lexer) : Prop :=
  match l.nextToken with
  | (.error _, _) => True
  | (.ok t, m) => t.kind ≠ .eof ∧ ∃ e n, m.nextToken = (.error e, n)

theorem fails_of_doomed (idle : l.pending = none) (doomed : l.scan.Doomed) : l.Fails := by
  unfold Fails
  rcases scanned : l.scan with ⟨e | x, m⟩
  · rw [nextToken_of_failed idle scanned]
    trivial
  · rw [nextToken_of_found idle scanned]
    rw [scanned] at doomed
    obtain ⟨inked, whole, idle, open_⟩ := doomed
    refine ⟨inked, nextToken_open (l := (m.deliver x).2) idle ?_ open_⟩
    change m.rest.drop x.length = []
    rw [whole, List.drop_length]

theorem failure?_of_error {e : LexError} (h : l.nextToken = (.error e, m)) :
    l.failure? = some e := by
  simp only [failure?, trace, run, h]

theorem Fails.failure? (h : l.Fails) (ready : l.Ready) : l.failure? ≠ none := by
  unfold Fails at h
  rcases pulled : l.nextToken with ⟨e | t, m⟩
  · rw [failure?_of_error pulled]
    exact Option.some_ne_none e
  · rw [pulled] at h
    obtain ⟨inked, e, n, failed⟩ := h
    rw [(tokens_next ready pulled inked).2, failure?_of_error failed]
    exact Option.some_ne_none e

/-- The next pulls part an expression alone from the expression in an island. -/
inductive Parts (l l' : Lexer) : Prop where
  | ends {t t' : Token} {m m' : Lexer} (pulled : l.nextToken = (.ok t, m))
      (pulled' : l'.nextToken = (.ok t', m')) (stops : t.kind = .eof)
      (closes : t'.kind = .closeIsland) (outside : m'.Outside) (last : m'.rest = [])
  | stray {e : LexError} {t' : Token} {m m' : Lexer} (pulled : l.nextToken = (.error e, m))
      (pulled' : l'.nextToken = (.ok t', m')) (bottom : m.modes = baseModes true)
      (idle : m.pending = none) (closes : t'.kind = .closeIsland) (outside : m'.Outside)
      (more : m'.rest ≠ [])
  | lost (fails : l.Fails) (fails' : l'.Fails)

theorem Encloses.deliver (h : l.Encloses l') (fits : x.length ≤ l.rest.length) :
    (l.deliver x).1.Alike (l'.deliver x).1 ∧ (l.deliver x).2.Encloses (l'.deliver x).2 := by
  have dropped : l'.rest.drop x.length = l.rest.drop x.length ++ ['\x7d'] := by
    rw [h.rest]
    exact List.drop_append_of_le_length fits
  have operand : endsOperand l'.mode x.kind = endsOperand l.mode x.kind := by
    have tick : (l'.mode != .template) = (l.mode != .template) := by
      rw [Bool.eq_iff_iff, bne_iff_ne, bne_iff_ne, ne_eq, ne_eq, h.template_iff]
    unfold endsOperand
    rw [tick]
  exact ⟨⟨rfl, rfl⟩, dropped, h.pending, operand, h.modes, h.baseDepth, h.allowFilter, h.waits⟩

/-- Behind the brace of the island nothing is open. -/
theorem Encloses.deliver_outside (h : l.Encloses l') (bottom : l.modes = baseModes true)
    (idle : l.pending = none) (single : y.length = 1) :
    (l'.pop.deliver y).2.Outside ∧ ((l'.pop.deliver y).2.rest = [] ↔ l.rest = []) := by
  have bottom' := (h.modes.eq_bottom (by rw [bottom]; rfl)).2
  refine ⟨⟨?_, h.baseDepth.2, h.pending.trans idle⟩, ?_⟩
  · change l'.modes.tail = _
    rw [bottom', List.tail_cons]
  · change l'.rest.drop y.length = [] ↔ _
    rw [h.rest, single]
    cases l.rest with
    | nil => exact iff_of_true rfl rfl
    | cons c cs => exact iff_of_false (by simp) (List.cons_ne_nil c cs)

/-- The next token is the same, or an expression and the island part here. -/
theorem Encloses.nextToken (h : l.Encloses l') (ready : l.Ready) :
    (∃ t t' m m', l.nextToken = (.ok t, m) ∧ l'.nextToken = (.ok t', m') ∧
      t.kind.isOrdinary ∧ t.Alike t' ∧ m.Encloses m') ∨ Parts l l' := by
  cases waits : l.pending with
  | some x =>
    left
    have idle : Encloses { l with pending := none } { l' with pending := none } :=
      ⟨h.rest, rfl, h.afterOperand, h.modes, h.baseDepth, h.allowFilter, nofun⟩
    have takes := ready x waits
    obtain ⟨alike, states⟩ := idle.deliver takes.length_le
    refine ⟨_, _, _, _, ?_, ?_, h.waits x waits, alike, states⟩
    · exact nextToken_of_waiting waits
    · exact nextToken_of_waiting (h.pending.trans waits)
  | none =>
    have idle' : l'.pending = none := h.pending.trans waits
    have meets := h.scan waits
    have fits {x : Lexeme} {m : Lexer} (found : l.scan = (.ok x, m)) := scan_fits waits found
    have doomed := fails_of_doomed (l := l) waits
    have doomed' := fails_of_doomed (l := l') idle'
    rcases found : l.scan with ⟨r, m⟩
    rcases found' : l'.scan with ⟨r', m'⟩
    rw [found] at meets doomed
    rw [found'] at meets doomed'
    cases meets with
    | same x ordinary states =>
      left
      have inked := TokenKind.ne_eof_of_isOrdinary ordinary
      obtain ⟨alike, states⟩ := states.deliver (fits found inked)
      exact ⟨_, _, _, _, nextToken_of_found waits found, nextToken_of_found idle' found', ordinary,
        alike, states⟩
    | ends x y states bottom idle last stops closes single =>
      obtain ⟨outside, rest⟩ := states.deliver_outside bottom idle single
      exact .inr (.ends (nextToken_of_found waits found) (nextToken_of_found idle' found') stops
        closes outside (rest.2 last))
    | stray e y states bottom idle more closes single =>
      obtain ⟨outside, rest⟩ := states.deliver_outside bottom idle single
      exact .inr (.stray (nextToken_of_failed waits found) (nextToken_of_found idle' found') bottom
        idle closes outside fun last => more (rest.1 last))
    | lost lost lost' => exact .inr (.lost (doomed lost) (doomed' lost'))

/-- The tokens of an expression alone and in an island are alike until the two part. -/
theorem Encloses.pulls (h : l.Encloses l') (ready : l.Ready) :
    ∃ ts ts' m m', l.Pulls ts m ∧ l'.Pulls ts' m' ∧ List.Forall₂ Token.Alike ts ts' ∧
      (∀ t ∈ ts, t.kind.isOrdinary) ∧ Parts m m' := by
  -- Every token takes a character, so the induction is on how many there are.
  generalize count : l.rest.length = n
  induction n using Nat.strong_induction_on generalizing l l' with
  | h n ih =>
    subst count
    rcases h.nextToken ready with ⟨t, t', m, m', pulled, pulled', ordinary, alike, states⟩ | parts
    · have inked := TokenKind.ne_eof_of_isOrdinary ordinary
      have ready_m : m.Ready := by simpa only [pulled] using nextToken_ready l
      have fewer := nextToken_lt ready pulled inked
      obtain ⟨ts, ts', z, z', pulls, pulls', alikes, others, parts⟩ := ih _ fewer states ready_m rfl
      have inked' : t'.kind ≠ .eof := by rwa [alike.kind]
      exact ⟨t :: ts, t' :: ts', z, z', .cons pulled inked pulls, .cons pulled' inked' pulls',
        .cons alike alikes, List.forall_mem_cons.2 ⟨ordinary, others⟩, parts⟩
    · exact ⟨[], [], l, l', .nil l, .nil l', .nil, fun _ h => absurd h List.not_mem_nil, parts⟩

end Pulled

section Sources

/-- An expression as the only part of a template. -/
def island (source : List Char) : List Char := '$' :: '\x7b' :: (source ++ ['\x7d'])

def bare (source : List Char) : Lexer := ofSource source ⟨true, false⟩

def enclosed (source : List Char) : Lexer := ofSource (island source) ⟨false, false⟩

theorem enclosed_next (source : List Char) :
    ∃ t l, (enclosed source).nextToken = (.ok t, l) ∧ t.kind = .openIsland ∧
      (bare source).Encloses l :=
  ⟨_, _, rfl, rfl, rfl, rfl, rfl, .bottom, ⟨rfl, rfl⟩, ⟨rfl, rfl⟩, nofun⟩

/-- The tokens of an expression, alone and in an island, up to where the two part. -/
structure Contents (ts ts' : List Token) : Prop where
  alike : List.Forall₂ Token.Alike ts ts'
  ordinary : ∀ t ∈ ts, t.kind.isOrdinary
  islands : Token.opened ts = Token.closed ts

theorem Contents.inked {ts ts' : List Token} (h : Contents ts ts') : ∀ t ∈ ts, t.kind ≠ .eof :=
  fun t member => TokenKind.ne_eof_of_isOrdinary (h.ordinary t member)

/-- How the lexer comes through an expression, alone and in an island: to the end of both, to a
brace in the expression that closes the island, or to an error in both. -/
inductive Enclosed (source : List Char) : Prop where
  | ends {ts ts' : List Token} {opening brace stop stop' : Token} (contents : Contents ts ts')
      (opens : opening.kind = .openIsland) (closes : brace.kind = .closeIsland)
      (stops : stop.kind = .eof) (stops' : stop'.kind = .eof)
      (tokens : (bare source).tokens = ts ++ [stop]) (ended : (bare source).failure? = none)
      (tokens' : (enclosed source).tokens = opening :: ts' ++ [brace, stop'])
      (ended' : (enclosed source).failure? = none)
  | stray {ts ts' later : List Token} {opening brace : Token} (contents : Contents ts ts')
      (opens : opening.kind = .openIsland) (closes : brace.kind = .closeIsland)
      (failed : (bare source).failure? ≠ none)
      (tokens' : (enclosed source).tokens = opening :: ts' ++ brace :: later)
      (more : (∃ t us, later = t :: us ∧ t.kind ≠ .eof) ∨
        later = [] ∧ (enclosed source).failure? ≠ none)
  | lost (failed : (bare source).failure? ≠ none) (failed' : (enclosed source).failure? ≠ none)

variable {t : Token}

theorem Outside.stop (h : l.Outside) (last : l.rest = []) :
    ∃ t, l.tokens = [t] ∧ l.failure? = none ∧ t.kind = .eof := by
  obtain ⟨modes, depth, idle⟩ := h
  have literal : l.skipSpace = l := by
    simp only [skipSpace, mode, modes, baseModes, Bool.false_eq_true, if_false, List.headD_cons,
      skipsSpace]
  have closed : l.depth = l.baseDepth := by rw [Lexer.depth, modes, depth]
  rcases scan_cases idle with ⟨_, _, ended⟩ | ⟨_, open_, _⟩ | ⟨some_, _⟩
  · obtain ⟨tokens, failure⟩ := tokens_eof (nextToken_of_found idle ended) rfl
    exact ⟨_, tokens, failure, rfl⟩
  · exact absurd closed open_
  · rw [literal] at some_
    exact absurd last some_

theorem Outside.more (h : l.Outside) (ready : l.Ready) (more : l.rest ≠ []) :
    (∃ t us, l.tokens = t :: us ∧ t.kind ≠ .eof) ∨ l.tokens = [] ∧ l.failure? ≠ none := by
  obtain ⟨modes, depth, idle⟩ := h
  have holds : Holds (baseModes false) l.modes l.pending [] := by
    rw [modes, idle]
    exact .idle .base
  rcases pulled : l.nextToken with ⟨e | t, m⟩
  · right
    rw [failure?_of_error pulled]
    refine ⟨?_, Option.some_ne_none e⟩
    simp only [tokens, trace, run, pulled, List.map_nil]
  · left
    have inked : t.kind ≠ .eof := fun ends => more (idle_of_eof depth holds pulled ends).1
    exact ⟨t, m.tokens, (tokens_next ready pulled inked).1, inked⟩

/-- Where an expression and its island part, no island is open in the expression. -/
theorem islands_of_parts {s : List Bracket} (depth : l.baseDepth = (baseModes true).length)
    (holds : Holds (baseModes true) l.modes l.pending s) :
    (∀ t m, l.nextToken = (.ok t, m) → t.kind = .eof → s = []) ∧
    (∀ e m, l.nextToken = (.error e, m) → m.modes = baseModes true → m.pending = none →
      s = []) := by
  constructor
  · exact fun t m pulled stops => (nextToken_eof depth holds pulled stops).2.2
  · intro e m pulled bottom idle
    obtain ⟨-, u, holds', turn⟩ := nextToken_holds depth holds
    rw [pulled] at holds' turn
    have holds' : Holds (baseModes true) m.modes m.pending u := holds'
    rw [bottom, idle] at holds'
    have nothing := (holds'.of_none.eq_base rfl).2
    cases turn with
    | stay => exact nothing

theorem enclosed_cases (source : List Char) : Enclosed source := by
  obtain ⟨opening, l', pulled, opens, states⟩ := enclosed_next source
  have ready : (bare source).Ready := ofSource_ready _ _
  have ready' : (enclosed source).Ready := ofSource_ready _ _
  obtain ⟨ts, ts', m, m', pulls, pulls', alike, ordinary, parts⟩ := states.pulls ready
  have inked : opening.kind ≠ .eof := by
    rw [opens]
    exact TokenKind.noConfusion
  have pulls' : (enclosed source).Pulls (opening :: ts') m' := .cons pulled inked pulls'
  obtain ⟨tokens, failure⟩ := tokens_of_pulls ready pulls
  obtain ⟨tokens', failure'⟩ := tokens_of_pulls ready' pulls'
  obtain ⟨depth, s, holds, count⟩ :=
    pulls.holds (b := true) rfl (ofSource_holds source ⟨true, false⟩)
  obtain ⟨of_eof, of_error⟩ := islands_of_parts depth holds
  have contents (closed : s = []) : Contents ts ts' := by
    refine ⟨alike, ordinary, ?_⟩
    rw [closed, List.count_nil] at count
    omega
  cases parts with
  | @ends stop brace z z' pulled pulled' stops closes outside last =>
    have inked' : brace.kind ≠ .eof := by
      rw [closes]
      exact TokenKind.noConfusion
    obtain ⟨stop', left, none_, stops'⟩ := outside.stop last
    obtain ⟨next, failure_next⟩ := tokens_next (pulls'.ready ready') pulled' inked'
    refine .ends (contents (of_eof _ _ pulled stops)) opens closes stops stops' ?_ ?_ ?_ ?_
    · rw [tokens, (tokens_eof pulled stops).1]
    · rw [failure, (tokens_eof pulled stops).2]
    · rw [tokens', next, left]
    · rw [failure', failure_next, none_]
  | @stray e brace z z' pulled pulled' bottom idle closes outside more =>
    have inked' : brace.kind ≠ .eof := by
      rw [closes]
      exact TokenKind.noConfusion
    obtain ⟨next, failure_next⟩ := tokens_next (pulls'.ready ready') pulled' inked'
    have ready_z : z'.Ready := by simpa only [pulled'] using nextToken_ready m'
    have failed : (bare source).failure? ≠ none := by
      rw [failure, failure?_of_error pulled]
      exact Option.some_ne_none e
    have whole : (enclosed source).tokens = opening :: ts' ++ brace :: z'.tokens := by
      rw [tokens', next]
    refine .stray (contents (of_error _ _ pulled bottom idle)) opens closes failed whole ?_
    rw [failure', failure_next]
    exact outside.more ready_z more
  | lost fails fails' =>
    refine .lost ?_ ?_
    · rw [failure]
      exact fails.failure? (pulls.ready ready)
    · rw [failure']
      exact fails'.failure? (pulls'.ready ready')

/-- An expression without tokens is blank. -/
theorem blank_of_tokens {source : List Char} {allow : Bool} {stop : Token}
    (stops : stop.kind = .eof)
    (alone : (ofSource source ⟨true, allow⟩).tokens = [stop]) : ∀ c ∈ source, isSpace c = true := by
  obtain ⟨m, pulled⟩ := next_of_tokens alone
  have idle : (ofSource source ⟨true, allow⟩).pending = none := rfl
  have dropped : (ofSource source ⟨true, allow⟩).skipSpace.rest = source.dropWhile isSpace := rfl
  rcases scanned : (ofSource source ⟨true, allow⟩).scan with ⟨e | x, m'⟩
  · rw [nextToken_of_failed idle scanned] at pulled
    cases pulled
  · rw [nextToken_of_found idle scanned] at pulled
    cases pulled
    obtain ⟨-, rfl, empty⟩ := scan_eof idle scanned stops
    rw [dropped] at empty
    exact List.dropWhile_eq_nil_iff.1 empty

end Sources

end Lexer

end TemplateFormula
