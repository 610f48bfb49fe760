import TemplateFormula.Proofs.Lexing.Progress
import TemplateFormula.Source.Cursor
import Mathlib.Data.List.Forall2

/-!
# Places of text behind other text

The lexer does the same wherever a text stands, except that the places of its tokens and errors are
further on.
-/

namespace TemplateFormula

namespace Position

/-- The place that a place of a text has if the text stands behind another. -/
def behind (p q : Position) : Position :=
  ⟨p.index + q.index, p.line + q.line - 1, if q.line = 1 then p.column + q.column - 1 else q.column⟩

def Counted (q : Position) : Prop := 1 ≤ q.line ∧ 1 ≤ q.column

variable {p q : Position}

theorem counted_start : start.Counted := ⟨Nat.le_refl _, Nat.le_refl _⟩

theorem behind_start (p : Position) : p.behind start = p := by
  simp [behind, start]

theorem Counted.advance (h : q.Counted) (cs : List Char) : (q.advance cs).Counted := by
  obtain ⟨line, column⟩ := h
  fun_induction Position.advance q cs with
  | case1 => exact ⟨line, column⟩
  | case2 q cs ih | case3 q cs _ ih | case4 q cs ih =>
    exact ih (Nat.le_add_left _ _) (Nat.le_refl _)
  | case5 q c cs _ _ _ ih => exact ih line (Nat.le_add_left _ _)

theorem behind_newLine (h : q.Counted) (k : Nat) :
    p.behind ⟨q.index + k, q.line + 1, 1⟩ =
      ⟨(p.behind q).index + k, (p.behind q).line + 1, 1⟩ := by
  obtain ⟨line, _⟩ := h
  have later : ¬ q.line + 1 = 1 := by omega
  simp only [behind, if_neg later, mk.injEq, and_true]
  omega

theorem behind_next (h : q.Counted) :
    p.behind ⟨q.index + 1, q.line, q.column + 1⟩ =
      ⟨(p.behind q).index + 1, (p.behind q).line, (p.behind q).column + 1⟩ := by
  obtain ⟨_, column⟩ := h
  by_cases first : q.line = 1
  · simp only [behind, if_pos first, mk.injEq, true_and]
    omega
  · simp only [behind, if_neg first, mk.injEq, and_true]
    omega

theorem counted_newLine (q : Position) (k : Nat) : Counted ⟨q.index + k, q.line + 1, 1⟩ :=
  ⟨Nat.le_add_left _ _, Nat.le_refl _⟩

theorem behind_advance (h : q.Counted) (cs : List Char) :
    (p.behind q).advance cs = p.behind (q.advance cs) := by
  fun_induction Position.advance q cs with
  | case1 => rw [advance_nil]
  | case2 q cs ih =>
    rw [← ih (counted_newLine q 2), behind_newLine h, Position.advance]
  | case3 q cs alone ih =>
    rw [← ih (counted_newLine q 1), behind_newLine h, Position.advance]
    exact alone
  | case4 q cs ih =>
    rw [← ih (counted_newLine q 1), behind_newLine h, Position.advance]
  | case5 q c cs pair return_ feed ih =>
    rw [← ih ⟨h.1, Nat.le_add_left _ _⟩, behind_next h, Position.advance]
    · exact pair
    · exact return_
    · exact feed

end Position

def LexError.behind (p : Position) : LexError → LexError
  | unexpectedChar c q => unexpectedChar c (p.behind q)
  | unterminated c q => unterminated c (p.behind q)

def ParseError.behind (p : Position) : ParseError → ParseError
  | lex e => lex (e.behind p)
  | unexpectedToken s q => unexpectedToken s (p.behind q)
  | tooDeep q => tooDeep (p.behind q)

/-- Tokens that differ in their places only. -/
structure Token.Shifted (p : Position) (t t' : Token) : Prop where
  kind : t'.kind = t.kind
  raw : t'.raw = t.raw
  start : t'.start = p.behind t.start

namespace Lexer

section Settling

/-- What a punctuator opens or closes depends on the open constructs alone. -/
structure Level (l l' : Lexer) : Prop where
  modes : l'.modes = l.modes
  baseDepth : l'.baseDepth = l.baseDepth
  allowFilter : l'.allowFilter = l.allowFilter

/-- The outcome is this lexeme, or the character at the front is not expected. -/
def Settles (l : Lexer) (f : Lexer → Result Lexeme) (y : Option Lexeme) (ms : List Mode) : Prop :=
  ∀ l', Level l l' → f l' =
    match y with
    | some y => (.ok y, { l' with modes := ms })
    | none => (.error ({ l' with modes := ms }.unexpected 0), { l' with modes := ms })

variable {l l' : Lexer}

theorem Level.mode (h : Level l l') : l'.mode = l.mode := by
  rw [Lexer.mode, Lexer.mode, h.modes]

theorem Level.depth (h : Level l l') : l'.depth = l.depth := by
  rw [Lexer.depth, Lexer.depth, h.modes]

theorem Level.pop (h : Level l l') : Level l.pop l'.pop :=
  ⟨congrArg List.tail h.modes, h.baseDepth, h.allowFilter⟩

theorem Level.same (h : Level l l') : { l' with modes := l.modes } = l' := by
  rw [← h.modes]

def closedKind (m : Mode) (k : TokenKind) : TokenKind :=
  match m with
  | .script => .closeIsland
  | .expression => .closeHole
  | _ => k

/-- A closing brace ends the innermost construct. -/
def closeTop (l : Lexer) (x : Lexeme) : Result Lexeme :=
  if l.depth ≤ l.baseDepth then (.error (l.unexpected 0), l)
  else (.ok { x with kind := closedKind l.mode x.kind }, l.pop)

theorem closeBrace_eq (l : Lexer) (x : Lexeme) :
    l.closeBrace x = (if l.mode = .filter then l.pop else l).closeTop x := rfl

theorem closeTop_settles (l : Lexer) (x : Lexeme) :
    ∃ y ms, Settles l (fun l => l.closeTop x) y ms := by
  by_cases base : l.depth ≤ l.baseDepth
  · refine ⟨none, l.modes, fun l' level => ?_⟩
    have base : l'.depth ≤ l'.baseDepth := by rw [level.depth, level.baseDepth]; exact base
    simp only [closeTop, if_pos base, level.same]
  · refine ⟨some { x with kind := closedKind l.mode x.kind }, l.modes.tail, fun l' level => ?_⟩
    have base : ¬ l'.depth ≤ l'.baseDepth := by rw [level.depth, level.baseDepth]; exact base
    simp only [closeTop, if_neg base, level.mode, Lexer.pop, level.modes]

theorem closeBrace_settles (l : Lexer) (x : Lexeme) :
    ∃ y ms, Settles l (fun l => l.closeBrace x) y ms := by
  by_cases filter : l.mode = .filter
  · obtain ⟨y, ms, closes⟩ := closeTop_settles l.pop x
    refine ⟨y, ms, fun l' level => ?_⟩
    have filter : l'.mode = .filter := by rw [level.mode]; exact filter
    dsimp only
    rw [closeBrace_eq, if_pos filter]
    exact closes l'.pop level.pop
  · obtain ⟨y, ms, closes⟩ := closeTop_settles l x
    refine ⟨y, ms, fun l' level => ?_⟩
    have filter : ¬ l'.mode = .filter := by rw [level.mode]; exact filter
    dsimp only
    rw [closeBrace_eq, if_neg filter]
    exact closes l' level

theorem settle_settles (l : Lexer) (x : Lexeme) :
    ∃ y ms, Settles l (fun l => l.settle x) y ms := by
  by_cases opening : x.kind.isPunctuator "\x7b" = true
  · refine ⟨some x, .block :: l.modes, fun l' level => ?_⟩
    simp only [settle, if_pos opening, push, level.modes]
  by_cases closing : x.kind.isPunctuator "\x7d" = true
  · obtain ⟨y, ms, closes⟩ := closeBrace_settles l x
    refine ⟨y, ms, fun l' level => ?_⟩
    simp only [settle, if_neg opening, if_pos closing]
    exact closes l' level
  by_cases bar : x.kind.isPunctuator "|" = true
  · by_cases script : l.mode = .script ∧ l.allowFilter
    · refine ⟨some { x with kind := .openFilter }, .filter :: l.modes, fun l' level => ?_⟩
      have script : l'.mode = .script ∧ l'.allowFilter := by
        rw [level.mode, level.allowFilter]
        exact script
      simp only [settle, if_neg opening, if_neg closing, if_pos bar, if_pos script, push,
        level.modes]
    · have script (l' : Lexer) (level : Level l l') : ¬ (l'.mode = .script ∧ l'.allowFilter) := by
        rw [level.mode, level.allowFilter]
        exact script
      by_cases filter : l.mode = .filter
      · refine ⟨some { x with kind := .openFilter }, l.modes, fun l' level => ?_⟩
        have filter : l'.mode = .filter := by rw [level.mode]; exact filter
        simp only [settle, if_neg opening, if_neg closing, if_pos bar, if_neg (script l' level),
          if_pos filter, level.same]
      · refine ⟨some x, l.modes, fun l' level => ?_⟩
        have filter : ¬ l'.mode = .filter := by rw [level.mode]; exact filter
        simp only [settle, if_neg opening, if_neg closing, if_pos bar, if_neg (script l' level),
          if_neg filter, level.same]
  · refine ⟨some x, l.modes, fun l' level => ?_⟩
    simp only [settle, if_neg opening, if_neg closing, if_neg bar, level.same]

end Settling

section Kept

/-- Only the modes and what waits have changed. -/
structure Kept (l m : Lexer) : Prop where
  rest : m.rest = l.rest
  position : m.position = l.position
  baseDepth : m.baseDepth = l.baseDepth
  allowFilter : m.allowFilter = l.allowFilter

variable {l l' m : Lexer}

theorem Kept.trans (first : Kept l l') (last : Kept l' m) : Kept l m :=
  ⟨last.rest.trans first.rest, last.position.trans first.position,
    last.baseDepth.trans first.baseDepth, last.allowFilter.trans first.allowFilter⟩

theorem kept_refl (l : Lexer) : Kept l l := ⟨rfl, rfl, rfl, rfl⟩

theorem Settled.kept {x : Lexeme} {r : Result Lexeme} (h : l.Settled x r) : Kept l r.2 := by
  cases h <;> exact ⟨rfl, rfl, rfl, rfl⟩

theorem openIsland?_kept {x : Lexeme} (h : l.openIsland? = some (x, l')) : Kept l l' := by
  obtain ⟨_, _, rfl⟩ := openIsland?_eq_some h
  exact ⟨rfl, rfl, rfl, rfl⟩

theorem deliverStretch_kept (l : Lexer) (kind : String → TokenKind) (s : Scan.Stretch) :
    Kept l (l.deliverStretch kind s).2 := by
  unfold deliverStretch
  split <;> exact ⟨rfl, rfl, rfl, rfl⟩

theorem afterTemplate_kept (l : Lexer) (next : Option Lexeme) : Kept l (l.afterTemplate next) := by
  obtain ⟨ms, same⟩ := l.afterTemplate_eq next
  rw [same]
  exact ⟨rfl, rfl, rfl, rfl⟩

theorem Scanned.kept {r : Result Lexeme} (h : l.Scanned r) : Kept l r.2 := by
  cases h with
  | unexpected | unended | word | quoted | free | behindRaw => exact kept_refl l
  | island | backtick | raw => exact ⟨rfl, rfl, rfl, rfl⟩
  | sign => exact (settle_settled l _).kept
  | @template s => exact (afterTemplate_kept l s.next).trans ⟨rfl, rfl, rfl, rfl⟩
  | @behindTemplate _ x => exact afterTemplate_kept l (some x)

theorem scan_kept (l : Lexer) : Kept l.skipSpace l.scan.2 := by
  rcases l.scan_outcome with ⟨_, _, scanned⟩ | ⟨_, _, scanned⟩ | ⟨_, scanned⟩
  · rw [scanned]
    exact kept_refl _
  · rw [scanned]
    exact kept_refl _
  · exact scanned.kept

end Kept

/-- What stands in an island, a hole, a block or a filter. -/
def scanInside (l : Lexer) : Result Lexeme :=
  match l.openIsland? with
  | some (x, l) => (.ok x, l)
  | none => l.scanExpression

variable {p q : Position} {l l' : Lexer} {x : Lexeme}

def placed (q : Position) (l : Lexer) : Lexer := { l with position := q }

structure Shifted (p : Position) (l l' : Lexer) : Prop where
  counted : l.position.Counted
  eq : l' = l.placed (p.behind l.position)

def Result.Shifted (p : Position) (r r' : Result Lexeme) : Prop :=
  r'.1 = r.1.mapError (LexError.behind p) ∧ Lexer.Shifted p r.2 r'.2

theorem unexpected_placed (h : l.position.Counted) (n : Nat) :
    (l.placed (p.behind l.position)).unexpected n = (l.unexpected n).behind p := by
  have place : (p.behind l.position).advance (l.rest.take n) =
      p.behind (l.position.advance (l.rest.take n)) := Position.behind_advance h _
  exact congrArg (LexError.unexpectedChar _) place

namespace Result.Shifted

/-- A lexeme, and the state changed by what leaves the place alone. -/
theorem found {m : Lexer} (h : l.position.Counted) (same : m.position = l.position) :
    Result.Shifted p (.ok x, m) (.ok x, m.placed (p.behind l.position)) := by
  refine ⟨rfl, ?_, ?_⟩
  · rw [same]
    exact h
  · rw [same]

theorem failed (h : l.position.Counted) (e : LexError) :
    Result.Shifted p (.error e, l) (.error (e.behind p), l.placed (p.behind l.position)) :=
  ⟨rfl, h, rfl⟩

theorem unexpected (h : l.position.Counted) (n : Nat) :
    Result.Shifted p (.error (l.unexpected n), l)
      (.error ((l.placed (p.behind l.position)).unexpected n),
        l.placed (p.behind l.position)) := by
  rw [unexpected_placed h]
  exact failed h _

theorem settle (h : l.position.Counted) (x : Lexeme) :
    Result.Shifted p (l.settle x) ((l.placed (p.behind l.position)).settle x) := by
  obtain ⟨y, ms, settles⟩ := settle_settles l x
  have here := settles l ⟨rfl, rfl, rfl⟩
  have there := settles (l.placed (p.behind l.position)) ⟨rfl, rfl, rfl⟩
  dsimp only at here there
  rw [here, there]
  cases y with
  | some y => exact found h rfl
  | none => exact unexpected (l := { l with modes := ms }) h 0

theorem scanExpression (h : l.position.Counted) :
    Result.Shifted p l.scanExpression (l.placed (p.behind l.position)).scanExpression := by
  have rest_eq : (l.placed (p.behind l.position)).rest = l.rest := rfl
  have word_eq : (l.placed (p.behind l.position)).word? = l.word? := rfl
  unfold Lexer.scanExpression
  rw [word_eq, rest_eq]
  cases l.word? with
  | some x => exact settle h x
  | none =>
    dsimp only
    rcases Scan.quoted? l.rest with (_ | n) | (_ | x)
    · exact failed h _
    · exact unexpected h n
    · cases Scan.punctuator? l.rest with
      | some x => exact settle h x
      | none =>
        dsimp only
        by_cases tick : l.rest.head? = some Scan.backtick
        · rw [if_pos tick, if_pos tick]
          exact found h rfl
        · rw [if_neg tick, if_neg tick]
          by_cases filter : l.mode = .filter
          · have filter' : (l.placed (p.behind l.position)).mode = .filter := filter
            rw [if_pos filter, if_pos filter']
            cases Scan.freeChar? l.rest with
            | some x => exact settle h x
            | none => exact unexpected h 0
          · have filter' : ¬ (l.placed (p.behind l.position)).mode = .filter := filter
            rw [if_neg filter, if_neg filter']
            exact unexpected h 0
    · exact settle h x

end Result.Shifted

theorem deliverStretch_placed (q : Position) (l : Lexer) (kind : String → TokenKind)
    (s : Scan.Stretch) :
    (l.placed q).deliverStretch kind s =
      ((l.deliverStretch kind s).1, (l.deliverStretch kind s).2.placed q) := by
  unfold deliverStretch
  split <;> rfl

theorem afterTemplate_placed (q : Position) (l : Lexer) (next : Option Lexeme) :
    (l.placed q).afterTemplate next = (l.afterTemplate next).placed q := by
  unfold afterTemplate
  split
  · split <;> rfl
  · rfl

theorem openIsland?_placed (q : Position) (l : Lexer) :
    (l.placed q).openIsland? = l.openIsland?.map fun r => (r.1, r.2.placed q) := by
  have rest_eq : (l.placed q).rest = l.rest := rfl
  unfold openIsland?
  rw [rest_eq]
  split <;> rfl

theorem Result.Shifted.scanRaw (h : l.position.Counted) :
    Result.Shifted p l.scanRaw (l.placed (p.behind l.position)).scanRaw := by
  have rest_eq : (l.placed (p.behind l.position)).rest = l.rest := rfl
  unfold Lexer.scanRaw
  rw [rest_eq]
  cases Scan.rawStretch 0 l.rest with
  | error n => exact .unexpected h n
  | ok s =>
    have place := (deliverStretch_kept l .raw s).position
    dsimp only
    rw [deliverStretch_placed]
    generalize delivered : l.deliverStretch .raw s = r at place
    obtain ⟨_ | x, m⟩ := r
    · have place : m.position = l.position := place
      rw [← place] at h ⊢
      dsimp only
      rw [openIsland?_placed]
      cases opened : m.openIsland? with
      | none => exact .unexpected h 0
      | some r => exact .found h (openIsland?_kept opened).position
    · exact .found h place

theorem Result.Shifted.scanTemplate (h : l.position.Counted) :
    Result.Shifted p l.scanTemplate (l.placed (p.behind l.position)).scanTemplate := by
  have rest_eq : (l.placed (p.behind l.position)).rest = l.rest := rfl
  unfold Lexer.scanTemplate
  rw [rest_eq]
  cases Scan.templateStretch 0 l.rest with
  | error n => exact .unexpected h n
  | ok s =>
    have place :=
      ((afterTemplate_kept l s.next).trans (deliverStretch_kept _ .templateRaw s)).position
    dsimp only
    rw [afterTemplate_placed, deliverStretch_placed]
    generalize (l.afterTemplate s.next).deliverStretch .templateRaw s = r at place
    obtain ⟨_ | x, m⟩ := r
    · have place : m.position = l.position := place
      rw [← place] at h ⊢
      exact .unexpected h 0
    · exact .found h place

theorem Result.Shifted.scanInside (h : l.position.Counted) :
    Result.Shifted p l.scanInside (l.placed (p.behind l.position)).scanInside := by
  unfold Lexer.scanInside
  rw [openIsland?_placed]
  cases opened : l.openIsland? with
  | none => exact .scanExpression h
  | some r => exact .found h (openIsland?_kept opened).position

theorem Shifted.skipSpace (h : l.Shifted p l') : l.skipSpace.Shifted p l'.skipSpace := by
  obtain ⟨counted, rfl⟩ := h
  have skips : (l.placed (p.behind l.position)).mode = l.mode := rfl
  unfold Lexer.skipSpace
  rw [skips]
  by_cases spaces : skipsSpace l.mode = true
  · rw [if_pos spaces, if_pos spaces]
    refine ⟨counted.advance _, ?_⟩
    simp only [placed, Position.behind_advance counted]
  · rw [if_neg spaces, if_neg spaces]
    exact ⟨counted, rfl⟩

theorem scan_shifted (h : l.Shifted p l') : Result.Shifted p l.scan l'.scan := by
  obtain ⟨counted, eq⟩ := h.skipSpace
  unfold scan
  rw [eq]
  generalize l.skipSpace = l at counted
  have rest_eq : (l.placed (p.behind l.position)).rest = l.rest := rfl
  have depth_eq : (l.placed (p.behind l.position)).depth = l.depth := rfl
  have base_eq : (l.placed (p.behind l.position)).baseDepth = l.baseDepth := rfl
  have mode_eq : (l.placed (p.behind l.position)).mode = l.mode := rfl
  dsimp only
  rw [rest_eq, depth_eq, base_eq, mode_eq]
  by_cases ended : l.rest.isEmpty = true
  · rw [if_pos ended, if_pos ended]
    by_cases base : l.depth = l.baseDepth
    · rw [if_pos base, if_pos base]
      exact .found counted rfl
    · rw [if_neg base, if_neg base]
      exact .failed counted _
  · rw [if_neg ended, if_neg ended]
    cases l.mode with
    | start => exact .scanRaw counted
    | template => exact .scanTemplate counted
    | _ => exact .scanInside counted

/-- The same token further on, or the same error. -/
inductive TokenShifted (p : Position) : Result Token → Result Token → Prop where
  | ok {t t' : Token} {l l' : Lexer} (tokens : t.Shifted p t') (states : l.Shifted p l') :
    TokenShifted p (.ok t, l) (.ok t', l')
  | error (e : LexError) {l l' : Lexer} (states : l.Shifted p l') :
    TokenShifted p (.error e, l) (.error (e.behind p), l')

theorem deliver_shifted (h : l.Shifted p l') (x : Lexeme) :
    TokenShifted p (.ok (l.deliver x).1, (l.deliver x).2)
      (.ok (l'.deliver x).1, (l'.deliver x).2) := by
  obtain ⟨counted, rfl⟩ := h
  refine .ok ⟨rfl, rfl, rfl⟩ ⟨counted.advance _, ?_⟩
  have stop : (p.behind l.position).advance (l.rest.take x.length) =
      p.behind (l.position.advance (l.rest.take x.length)) := Position.behind_advance counted _
  simp only [deliver, placed, mode, stop]

theorem nextToken_shifted (h : l.Shifted p l') : TokenShifted p l.nextToken l'.nextToken := by
  have scans := scan_shifted h
  have pending_eq : l'.pending = l.pending := by rw [h.eq]; rfl
  unfold nextToken
  rw [pending_eq]
  cases l.pending with
  | some x =>
    have idle : Shifted p { l with pending := none } { l' with pending := none } :=
      ⟨h.counted, by rw [h.eq]; rfl⟩
    exact deliver_shifted idle x
  | none =>
    dsimp only
    generalize l.scan = r at scans
    generalize l'.scan = r' at scans
    obtain ⟨a, m⟩ := r
    obtain ⟨a', m'⟩ := r'
    obtain ⟨same, states⟩ := scans
    cases same
    cases a with
    | error e => exact .error e states
    | ok x => exact deliver_shifted states x

/-- Token after token, a text behind another is read as it is alone. -/
theorem run_shifted (n : Nat) (h : l.Shifted p l') :
    List.Forall₂ (Token.Shifted p) ((run n l).1.map (·.1)) ((run n l').1.map (·.1)) ∧
      (run n l').2.1 = (run n l).2.1.map (LexError.behind p) := by
  induction n generalizing l l' with
  | zero => exact ⟨.nil, rfl⟩
  | succ n ih =>
    have next := nextToken_shifted h
    simp only [run]
    generalize l.nextToken = r at next
    generalize l'.nextToken = r' at next
    cases next with
    | error e _ => exact ⟨.nil, rfl⟩
    | @ok t t' m m' tokens states =>
      have eof_eq : t'.isEof = t.isEof := by rw [Token.isEof, Token.isEof, tokens.kind]
      dsimp only
      rw [eof_eq]
      by_cases ended : t.isEof = true
      · rw [if_pos ended, if_pos ended]
        exact ⟨.cons tokens .nil, rfl⟩
      · rw [if_neg ended, if_neg ended]
        obtain ⟨rest, failures⟩ := ih states
        exact ⟨.cons tokens rest, failures⟩

end Lexer

end TemplateFormula
