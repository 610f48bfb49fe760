import TemplateFormula.Proofs.Lexing.Progress
import TemplateFormula.Source.Lexer

/-!
# Brackets and the stack of modes

Islands, holes, braces and backtick templates are opened by one kind of token and closed by another.
A word of such marks is nested if every opening is closed by its own kind of closing. A word that is
not finished leaves a stack of brackets open, the innermost first.

However often tokens are pulled, also behind errors, the stack of modes stands on the modes that the
lexer started with, and a filter lies directly on an island. The end of the text is delivered on the
modes of the start only, and the brackets among the tokens before it are nested.
-/

namespace TemplateFormula

inductive Bracket where
  | island
  | hole
  | brace
  | backtick
deriving Repr, DecidableEq

inductive Mark where
  | opening (b : Bracket)
  | closing (b : Bracket)
deriving Repr, DecidableEq

/-- The mark that a token sets. Both ends of a backtick template look alike; behind the opening one
the lexer is inside the template. -/
def TokenKind.mark? (behind : Mode) : TokenKind → Option Mark
  | .openIsland => some (.opening .island)
  | .closeIsland => some (.closing .island)
  | .openHole => some (.opening .hole)
  | .closeHole => some (.closing .hole)
  | .punctuator s =>
    if s = "\x7b" then some (.opening .brace)
    else if s = "\x7d" then some (.closing .brace)
    else if s = String.singleton Scan.backtick then
      if behind = .template then some (.opening .backtick) else some (.closing .backtick)
    else none
  | _ => none

namespace Mark

inductive Nested : List Mark → Prop where
  | nil : Nested []
  | wrap (b : Bracket) {u v : List Mark} (inner : Nested u) (behind : Nested v) :
      Nested (opening b :: u ++ closing b :: v)

theorem Nested.append {u v : List Mark} (hu : Nested u) (hv : Nested v) : Nested (u ++ v) := by
  induction hu with
  | nil => exact hv
  | @wrap b u w inner _ _ ih =>
    have h := Nested.wrap b inner ih
    simpa only [List.cons_append, List.append_assoc] using h

/-- The word has the brackets of a stack open, and everything else in it is nested. -/
def Unclosed : List Bracket → List Mark → Prop
  | [], w => Nested w
  | b :: s, w => ∃ u v, w = u ++ opening b :: v ∧ Unclosed s u ∧ Nested v

theorem Unclosed.append {s : List Bracket} {u v : List Mark} (hu : Unclosed s u)
    (hv : Nested v) : Unclosed s (u ++ v) := by
  cases s with
  | nil => exact Nested.append hu hv
  | cons b s =>
    obtain ⟨x, y, rfl, hx, hy⟩ := hu
    exact ⟨x, y ++ v, by simp, hx, hy.append hv⟩

theorem Unclosed.push {s : List Bracket} {w : List Mark} (h : Unclosed s w) (b : Bracket) :
    Unclosed (b :: s) (w ++ [opening b]) :=
  ⟨w, [], rfl, h, .nil⟩

theorem Unclosed.pop {b : Bracket} {s : List Bracket} {w : List Mark}
    (h : Unclosed (b :: s) w) : Unclosed s (w ++ [closing b]) := by
  obtain ⟨u, v, rfl, hu, hv⟩ := h
  have hw : Nested (opening b :: v ++ [closing b]) := Nested.wrap b hv .nil
  simpa only [List.cons_append, List.append_assoc] using hu.append hw

/-- What one token does to the stack of open brackets. -/
inductive Turns : Option Mark → List Bracket → List Bracket → Prop where
  | stay (s : List Bracket) : Turns none s s
  | push (b : Bracket) (s : List Bracket) : Turns (some (opening b)) s (b :: s)
  | pop (b : Bracket) (s : List Bracket) : Turns (some (closing b)) (b :: s) s

theorem Unclosed.turn {m : Option Mark} {s t : List Bracket} {w : List Mark}
    (h : Unclosed s w) (turn : Turns m s t) : Unclosed t (w ++ m.toList) := by
  cases turn with
  | stay => simpa using h
  | push b => exact h.push b
  | pop b => exact h.pop

end Mark

end TemplateFormula

namespace TemplateFormula

open Mark

/-- The modes above a base and the brackets that they hold open, innermost first. A filter has no
bracket of its own, and the other modes say what they may stand in. -/
inductive Mode.Holds (base : List Mode) : List Mode → List Bracket → Prop where
  | base : Holds base base []
  | script {ms : List Mode} {s : List Bracket} (h : Holds base ms s)
      (inside : ms.headD .start ≠ .template) : Holds base (.script :: ms) (.island :: s)
  | block {ms : List Mode} {s : List Bracket} (h : Holds base ms s)
      (inside : ms.headD .start ≠ .template) : Holds base (.block :: ms) (.brace :: s)
  | template {ms : List Mode} {s : List Bracket} (h : Holds base ms s)
      (inside : ms.headD .start ≠ .template) : Holds base (.template :: ms) (.backtick :: s)
  | expression {ms : List Mode} {s : List Bracket} (h : Holds base (.template :: ms) s) :
      Holds base (.expression :: .template :: ms) (.hole :: s)
  | filter {ms : List Mode} {s : List Bracket} (h : Holds base (.script :: ms) s) :
      Holds base (.filter :: .script :: ms) s

namespace Mode.Holds

variable {base ms : List Mode} {s : List Bracket}

theorem suffix (h : Holds base ms s) : base <:+ ms := by
  induction h with
  | base => exact List.suffix_rfl
  | script _ _ ih | block _ _ ih | template _ _ ih | expression _ ih | filter _ ih =>
    exact ih.trans (List.suffix_cons _ _)

theorem length_le (h : Holds base ms s) : base.length ≤ ms.length := h.suffix.length_le

/-- At the depth of the base nothing is open. -/
theorem eq_base (h : Holds base ms s) (hd : ms.length = base.length) : ms = base ∧ s = [] := by
  cases h with
  | base => exact ⟨rfl, rfl⟩
  | script h | block h | template h | expression h | filter h =>
    have := h.length_le
    simp only [List.length_cons] at this hd
    omega

theorem filter_on_script (h : Holds base ms s) (hb : Mode.filter ∉ base) (us vs : List Mode)
    (hms : ms = us ++ .filter :: vs) : vs.head? = some .script := by
  induction h generalizing us with
  | base => simp [hms] at hb
  | filter h ih =>
    cases us with
    | nil =>
      obtain rfl := (List.cons.inj hms).2
      rfl
    | cons u us => exact ih us (List.cons.inj hms).2
  | script h _ ih | block h _ ih | template h _ ih | expression h ih =>
    cases us with
    | nil => cases (List.cons.inj hms).1
    | cons u us => exact ih us (List.cons.inj hms).2

theorem of_script (h : Holds base (.script :: ms) s) (hb : Mode.script ∉ base) :
    ∃ t, s = .island :: t ∧ Holds base ms t := by
  cases h with
  | base => simp at hb
  | script h => exact ⟨_, rfl, h⟩

theorem of_template (h : Holds base (.template :: ms) s) (hb : Mode.template ∉ base) :
    ∃ t, s = .backtick :: t ∧ Holds base ms t ∧ ms.headD .start ≠ .template := by
  cases h with
  | base => simp at hb
  | template h inside => exact ⟨_, rfl, h, inside⟩

end Mode.Holds

namespace TokenKind

theorem mark?_of_isUnmarked {k : TokenKind} (h : k.isUnmarked) (m : Mode) : k.mark? m = none := by
  cases k <;> simp_all [isUnmarked, mark?]

end TokenKind

namespace Scan

theorem rawStretch_next_kind {n : Nat} {cs : List Char} {s : Stretch}
    (h : rawStretch n cs = .ok s) {x : Lexeme} (hx : s.next = some x) :
    ∃ path, x.kind = .variable path := by
  fun_induction rawStretch n cs with
  | case1 | case5 => cases h; cases hx
  | case2 | case4 => cases h
  | case6 | case8 => cases h; cases hx; exact ⟨_, rfl⟩
  | case3 _ _ _ _ ih | case7 _ _ _ _ _ _ ih | case9 _ _ _ _ _ _ ih => exact ih h

theorem templateStretch_next_kind {n : Nat} {cs : List Char} {s : Stretch}
    (h : templateStretch n cs = .ok s) {x : Lexeme} (hx : s.next = some x) :
    x.kind = .openHole ∨ x.kind = .punctuator (String.singleton backtick) := by
  fun_induction templateStretch n cs with
  | case1 | case2 => cases h; cases hx
  | case4 => cases h
  | case5 => cases h; cases hx; exact .inl rfl
  | case6 => cases h; cases hx; exact .inr rfl
  | case3 _ _ _ _ ih | case7 _ _ _ _ _ _ _ ih => exact ih h

end Scan

namespace Lexer

/-- The brackets that the delivered tokens have left open. A hole is entered before the token that
opens it is delivered, and a template is left before the one that closes it. -/
inductive Holds (base : List Mode) : List Mode → Option Lexeme → List Bracket → Prop where
  | idle {ms : List Mode} {s : List Bracket} (h : Mode.Holds base ms s) : Holds base ms none s
  | path {ms : List Mode} {s : List Bracket} {x : Lexeme} (h : Mode.Holds base ms s)
      (hx : ∃ path, x.kind = .variable path) : Holds base ms (some x) s
  | hole {ms : List Mode} {s : List Bracket} {x : Lexeme} (h : Mode.Holds base (.template :: ms) s)
      (hx : x.kind = .openHole) : Holds base (.expression :: .template :: ms) (some x) s
  | backtick {ms : List Mode} {s : List Bracket} {x : Lexeme} (h : Mode.Holds base ms s)
      (outside : ms.headD .start ≠ .template)
      (hx : x.kind = .punctuator (String.singleton Scan.backtick)) :
      Holds base ms (some x) (.backtick :: s)

/-- The outcome of a scan or a pull keeps to the brackets that were open before it. -/
def Result.Keeps (base : List Mode) (s : List Bracket) : Result Lexeme → Prop
  | (.ok x, l) => l.baseDepth = base.length ∧
      ∃ t, Holds base l.modes l.pending t ∧ Turns (x.kind.mark? l.mode) s t
  | (.error _, l) => l.baseDepth = base.length ∧ Holds base l.modes l.pending s

variable {base : List Mode} {l : Lexer} {s : List Bracket} {x : Lexeme}

theorem keeps_same (hd : l.baseDepth = base.length) (hp : l.pending = none)
    (h : Mode.Holds base l.modes s) (hx : x.kind.mark? l.mode = none) :
    Result.Keeps base s (.ok x, l) := by
  refine ⟨hd, s, ?_, ?_⟩
  · rw [hp]
    exact .idle h
  · rw [hx]
    exact .stay s

theorem keeps_error (hd : l.baseDepth = base.length) (hp : l.pending = none)
    (h : Mode.Holds base l.modes s) (e : LexError) : Result.Keeps base s (.error e, l) := by
  refine ⟨hd, ?_⟩
  rw [hp]
  exact .idle h

theorem keeps_unmarked (hd : l.baseDepth = base.length) (hp : l.pending = none)
    (h : Mode.Holds base l.modes s) (hx : x.kind.isUnmarked) : Result.Keeps base s (.ok x, l) :=
  keeps_same hd hp h (TokenKind.mark?_of_isUnmarked hx _)

/-- The kind of a closing brace in a mode. -/
def closingKind : Mode → TokenKind
  | .script => .closeIsland
  | .expression => .closeHole
  | _ => .punctuator "\x7d"

theorem closeBrace_above (hx : x.kind = .punctuator "\x7d") {m : Mode} {ms : List Mode}
    (hms : l.modes = m :: ms) (hm : m ≠ .filter) (hd : l.baseDepth ≤ ms.length) :
    l.closeBrace x = (.ok { x with kind := closingKind m }, { l with modes := ms }) := by
  have hmode : l.mode = m := by simp [mode, hms]
  have hdepth : ¬ l.depth ≤ l.baseDepth := by
    simp only [depth, hms, List.length_cons]
    omega
  have hpop : l.pop = { l with modes := ms } := by simp [pop, hms]
  simp only [closeBrace, hmode, if_neg hm, if_neg hdepth, hpop, hx]
  cases m <;> rfl

theorem closeBrace_in_filter {ms : List Mode} (hms : l.modes = .filter :: .script :: ms) :
    l.closeBrace x = { l with modes := .script :: ms }.closeBrace x := by
  simp [closeBrace, mode, hms, pop]

theorem closeBrace_at_base (hm : l.mode ≠ .filter) (hd : l.depth ≤ l.baseDepth) :
    l.closeBrace x = (.error (l.unexpected 0), l) := by
  simp only [closeBrace, if_neg hm, if_pos hd]

theorem closeBrace_keeps {b : Bool} (hd : l.baseDepth = (baseModes b).length)
    (hp : l.pending = none) (h : Mode.Holds (baseModes b) l.modes s)
    (hx : x.kind = .punctuator "\x7d") (hm : l.mode ≠ .template) :
    Result.Keeps (baseModes b) s (l.closeBrace x) := by
  generalize hms : l.modes = ms at h
  cases h with
  | base =>
    have hfilter : l.mode ≠ .filter := by cases b <;> simp [mode, hms, baseModes]
    rw [closeBrace_at_base hfilter (by simp [depth, hms, hd])]
    exact keeps_error hd hp (hms ▸ .base) _
  | script h _ =>
    rw [closeBrace_above hx hms (by simp) (hd ▸ h.length_le)]
    exact ⟨hd, _, hp ▸ .idle h, .pop .island _⟩
  | block h _ =>
    rw [closeBrace_above hx hms (by simp) (hd ▸ h.length_le)]
    exact ⟨hd, _, hp ▸ .idle h, .pop .brace _⟩
  | template h _ => simp [mode, hms] at hm
  | expression h =>
    rw [closeBrace_above hx hms (by simp) (hd ▸ h.length_le)]
    exact ⟨hd, _, hp ▸ .idle h, .pop .hole _⟩
  | filter h =>
    obtain ⟨t, rfl, h'⟩ := h.of_script (by cases b <;> simp [baseModes])
    rw [closeBrace_in_filter hms,
      closeBrace_above hx (l := { l with modes := _ }) rfl (by simp) (hd ▸ h'.length_le)]
    exact ⟨hd, _, hp ▸ .idle h', .pop .island _⟩

theorem settle_bar_keeps (hd : l.baseDepth = base.length) (hp : l.pending = none)
    (h : Mode.Holds base l.modes s) (hx : x.kind = .punctuator "|") :
    Result.Keeps base s (l.settle x) := by
  have hmark : TokenKind.mark? l.mode (.punctuator "|") = none := rfl
  simp only [settle, hx, TokenKind.isPunctuator]
  by_cases hs : l.mode = .script ∧ l.allowFilter
  · generalize hms : l.modes = ms at h
    cases ms with
    | nil => simp [mode, hms] at hs
    | cons m ms =>
      obtain rfl : m = .script := by simpa [mode, hms] using hs.1
      simp only [if_pos hs]
      refine ⟨hd, s, ?_, .stay s⟩
      simp only [push, hp, hms]
      exact .idle (.filter h)
  · by_cases hf : l.mode = .filter
    · simp only [if_neg hs, if_pos hf]
      exact keeps_same hd hp h rfl
    · simp only [if_neg hs, if_neg hf]
      exact keeps_same hd hp h (by rw [hx]; exact hmark)

theorem settle_keeps {b : Bool} {p : String} (hd : l.baseDepth = (baseModes b).length)
    (hp : l.pending = none) (h : Mode.Holds (baseModes b) l.modes s)
    (hx : x.kind = .punctuator p) (hmem : p ∈ Scan.punctuators) (hm : l.mode ≠ .template) :
    Result.Keeps (baseModes b) s (l.settle x) := by
  by_cases hopen : p = "\x7b"
  · subst hopen
    simp only [settle, hx, TokenKind.isPunctuator]
    refine ⟨hd, _, ?_, by rw [hx]; exact .push .brace s⟩
    simp only [push, hp]
    exact .idle (.block h hm)
  by_cases hclose : p = "\x7d"
  · subst hclose
    have hsettle : l.settle x = l.closeBrace x := by
      simp [settle, hx, TokenKind.isPunctuator]
    rw [hsettle]
    exact closeBrace_keeps hd hp h hx hm
  by_cases hbar : p = "|"
  · subst hbar
    exact settle_bar_keeps hd hp h hx
  have hsettle : l.settle x = (.ok x, l) := by
    simp [settle, hx, TokenKind.isPunctuator, hopen, hclose, hbar]
  have htick : p ≠ String.singleton Scan.backtick := by
    rintro rfl
    exact absurd hmem (by decide)
  rw [hsettle]
  exact keeps_same hd hp h (by simp [hx, TokenKind.mark?, hopen, hclose, htick])

theorem afterTemplate_of_openHole (hx : x.kind = .openHole) :
    l.afterTemplate (some x) = l.push .expression := by
  simp only [afterTemplate, hx]
  rfl

theorem afterTemplate_of_backtick (hx : x.kind = .punctuator (String.singleton Scan.backtick)) :
    l.afterTemplate (some x) = l.pop := by
  simp only [afterTemplate, hx]
  rfl

section Template

variable {ms : List Mode} {st : Scan.Stretch}

theorem exists_modes_of_template (hm : l.mode = .template) : ∃ ms, l.modes = .template :: ms := by
  cases hms : l.modes with
  | nil => simp [mode, hms] at hm
  | cons m ms =>
    obtain rfl : m = .template := by simpa [mode, hms] using hm
    exact ⟨ms, rfl⟩

/-- What is found behind template text has its effect on the modes before the text is delivered. -/
theorem template_keeps (hd : l.baseDepth = base.length) (hms : l.modes = .template :: ms)
    (h : Mode.Holds base (.template :: ms) s) (hb : Mode.template ∉ base)
    (hst : Scan.templateStretch 0 l.rest = .ok st) (text : String) (raw : Option String) :
    Result.Keeps base s (.ok ⟨.templateRaw text, raw, st.length⟩,
      { l.afterTemplate st.next with pending := st.next }) := by
  obtain ⟨t, rfl, h', outside⟩ := h.of_template hb
  cases hn : st.next with
  | none =>
    refine ⟨hd, _, ?_, .stay _⟩
    simp only [afterTemplate, hms]
    exact .idle h
  | some x =>
    rcases Scan.templateStretch_next_kind hst hn with hx | hx
    · rw [afterTemplate_of_openHole hx]
      refine ⟨hd, .backtick :: t, ?_, .stay _⟩
      simp only [push, hms]
      exact .hole h hx
    · rw [afterTemplate_of_backtick hx]
      refine ⟨hd, .backtick :: t, ?_, .stay _⟩
      simp only [pop, hms, List.tail_cons]
      exact .backtick h' outside hx

theorem behindTemplate_keeps (hd : l.baseDepth = base.length) (hp : l.pending = none)
    (hms : l.modes = .template :: ms) (h : Mode.Holds base (.template :: ms) s)
    (hb : Mode.template ∉ base)
    (hx : x.kind = .openHole ∨ x.kind = .punctuator (String.singleton Scan.backtick)) :
    Result.Keeps base s (.ok x, l.afterTemplate (some x)) := by
  obtain ⟨t, rfl, h', outside⟩ := h.of_template hb
  rcases hx with hx | hx
  · rw [afterTemplate_of_openHole hx]
    refine ⟨hd, .hole :: .backtick :: t, ?_, by rw [hx]; exact .push .hole _⟩
    simp only [push, hms, hp]
    exact .idle (.expression h)
  · have hmark : x.kind.mark? l.pop.mode = some (.closing .backtick) := by
      rw [hx]
      simp only [mode, pop, hms, List.tail_cons, TokenKind.mark?, if_neg outside]
      rfl
    rw [afterTemplate_of_backtick hx]
    refine ⟨hd, t, ?_, by rw [hmark]; exact .pop .backtick t⟩
    simp only [pop, hms, hp, List.tail_cons]
    exact .idle h'

end Template

theorem Scanned.keeps {b : Bool} {r : Result Lexeme} (scanned : l.Scanned r)
    (hd : l.baseDepth = (baseModes b).length) (hp : l.pending = none)
    (h : Mode.Holds (baseModes b) l.modes s) : r.Keeps (baseModes b) s := by
  have hb : Mode.template ∉ baseModes b := by cases b <;> simp [baseModes]
  cases scanned with
  | unexpected | unended => exact keeps_error hd hp h _
  | island outside =>
    refine ⟨hd, .island :: s, ?_, .push .island s⟩
    simp only [push, hp]
    exact .idle (.script h outside)
  | word found => exact keeps_unmarked hd hp h (word?_isUnmarked found)
  | quoted found => exact keeps_unmarked hd hp h (Scan.quoted?_isUnmarked found)
  | free _ found => exact keeps_unmarked hd hp h (Scan.freeChar?_isUnmarked found)
  | sign outside found =>
    obtain ⟨p, member, _, rfl⟩ := Scan.punctuator?_eq_some found
    exact settle_keeps hd hp h rfl member outside
  | backtick outside =>
    refine ⟨hd, .backtick :: s, ?_, .push .backtick s⟩
    simp only [push, hp]
    exact .idle (.template h outside)
  | @raw st stretch =>
    refine ⟨hd, s, ?_, .stay s⟩
    cases next : st.next with
    | none => exact .idle h
    | some x => exact .path h (Scan.rawStretch_next_kind stretch next)
  | behindRaw stretch _ next =>
    obtain ⟨path, hx⟩ := Scan.rawStretch_next_kind stretch next
    exact keeps_same hd hp h (by rw [hx]; rfl)
  | template inside stretch =>
    obtain ⟨ms, hms⟩ := exists_modes_of_template inside
    exact template_keeps hd hms (hms ▸ h) hb stretch _ _
  | behindTemplate inside stretch _ next =>
    obtain ⟨ms, hms⟩ := exists_modes_of_template inside
    exact behindTemplate_keeps hd hp hms (hms ▸ h) hb (Scan.templateStretch_next_kind stretch next)

theorem scan_keeps {b : Bool} (hd : l.baseDepth = (baseModes b).length) (hp : l.pending = none)
    (h : Mode.Holds (baseModes b) l.modes s) : Result.Keeps (baseModes b) s l.scan := by
  rw [← skipSpace_baseDepth] at hd
  rw [← skipSpace_pending] at hp
  rw [← skipSpace_modes] at h
  rcases l.scan_outcome with ⟨_, _, scanned⟩ | ⟨_, _, scanned⟩ | ⟨_, scanned⟩
  · rw [scanned]
    exact keeps_same hd hp h rfl
  · rw [scanned]
    exact keeps_error hd hp h _
  · exact scanned.keeps hd hp h

/-- The mark of the token that a call returned, if it returned one. -/
def Result.mark? : Result Token → Option Mark
  | (.ok t, l) => t.kind.mark? l.mode
  | (.error _, _) => none

theorem nextToken_holds {b : Bool} (hd : l.baseDepth = (baseModes b).length)
    (h : Holds (baseModes b) l.modes l.pending s) :
    l.nextToken.2.baseDepth = (baseModes b).length ∧
      ∃ t, Holds (baseModes b) l.nextToken.2.modes l.nextToken.2.pending t ∧
        Turns (Result.mark? l.nextToken) s t := by
  generalize hms : l.modes = ms at h
  generalize hp : l.pending = p at h
  cases h with
  | idle h =>
    have hscan := scan_keeps hd hp (hms ▸ h)
    rcases scanned : l.scan with ⟨e | x, l'⟩
    · rw [scanned] at hscan
      rw [nextToken_of_failed hp scanned]
      obtain ⟨hd', h'⟩ := hscan
      exact ⟨hd', s, h', .stay s⟩
    · rw [scanned] at hscan
      rw [nextToken_of_found hp scanned]
      exact hscan
  | @path _ _ x h hx =>
    obtain ⟨path, hx⟩ := hx
    rw [nextToken_of_waiting hp]
    refine ⟨hd, s, .idle (hms ▸ h), ?_⟩
    simp only [Result.mark?, deliver, hx]
    exact .stay s
  | @hole _ _ x h hx =>
    rw [nextToken_of_waiting hp]
    refine ⟨hd, .hole :: s, .idle (hms ▸ .expression h), ?_⟩
    simp only [Result.mark?, deliver, hx]
    exact .push .hole s
  | @backtick _ s x h outside hx =>
    rw [nextToken_of_waiting hp]
    refine ⟨hd, s, .idle (hms ▸ h), ?_⟩
    have hmark : x.kind.mark? l.mode = some (.closing .backtick) := by
      rw [hx]
      simp only [mode, hms, TokenKind.mark?, if_neg outside]
      rfl
    simp only [Result.mark?, deliver, mode] at hmark ⊢
    rw [hmark]
    exact .pop .backtick s

/-- The lexer behind a number of calls, whatever they returned. -/
def after : Nat → Lexer → Lexer
  | 0, l => l
  | n + 1, l => after n l.nextToken.2

/-- What a number of calls returned, with the state behind each. -/
def pulls : Nat → Lexer → List (Result Token)
  | 0, _ => []
  | n + 1, l => l.nextToken :: pulls n l.nextToken.2

/-- The brackets among the tokens that a number of calls returned. -/
def marks (n : Nat) (l : Lexer) : List Mark := (l.pulls n).filterMap Result.mark?

theorem marks_succ (n : Nat) (l : Lexer) :
    l.marks (n + 1) = (Result.mark? l.nextToken).toList ++ l.nextToken.2.marks n := by
  simp only [marks, pulls, List.filterMap_cons]
  cases Result.mark? l.nextToken <;> rfl

theorem after_holds {b : Bool} {w : List Mark} (n : Nat) (hd : l.baseDepth = (baseModes b).length)
    (h : Holds (baseModes b) l.modes l.pending s) (hw : Unclosed s w) :
    (l.after n).baseDepth = (baseModes b).length ∧
      ∃ t, Holds (baseModes b) (l.after n).modes (l.after n).pending t ∧
        Unclosed t (w ++ l.marks n) := by
  induction n generalizing l s w with
  | zero =>
    refine ⟨hd, s, h, ?_⟩
    simpa only [marks, pulls, List.filterMap_nil, List.append_nil] using hw
  | succ n ih =>
    obtain ⟨hd', t, ht, turn⟩ := nextToken_holds hd h
    rw [marks_succ, ← List.append_assoc]
    exact ih hd' ht (hw.turn turn)

/-- The modes that a waiting token stands on are above those of the start. -/
theorem Holds.modes {base ms : List Mode} {p : Option Lexeme} (h : Holds base ms p s) :
    ∃ t, Mode.Holds base ms t := by
  cases h with
  | idle h => exact ⟨_, h⟩
  | path h _ => exact ⟨_, h⟩
  | hole h _ => exact ⟨_, .expression h⟩
  | backtick h _ _ => exact ⟨_, h⟩

theorem Holds.of_none {ms : List Mode} (h : Holds base ms none s) : Mode.Holds base ms s := by
  cases h with
  | idle h => exact h

theorem Holds.pending_kind {ms : List Mode} (h : Holds base ms (some x) s) :
    (∃ path, x.kind = .variable path) ∨ x.kind = .openHole ∨
      x.kind = .punctuator (String.singleton Scan.backtick) := by
  cases h with
  | path _ hx => exact .inl hx
  | hole _ hx => exact .inr (.inl hx)
  | backtick _ _ hx => exact .inr (.inr hx)

theorem Holds.pending_ne_eof {ms : List Mode} (h : Holds base ms (some x) s) : x.kind ≠ .eof := by
  rcases h.pending_kind with ⟨path, hx⟩ | hx | hx
  all_goals
    rw [hx]
    exact TokenKind.noConfusion

theorem nextToken_eof (hd : l.baseDepth = base.length) (h : Holds base l.modes l.pending s)
    {t : Token} {l' : Lexer} (ht : l.nextToken = (.ok t, l')) (hk : t.kind = .eof) :
    l.modes = base ∧ l'.modes = base ∧ s = [] := by
  cases pulled_of_eq ht with
  | waiting hx =>
    rw [hx] at h
    exact absurd hk h.pending_ne_eof
  | found hp hscan =>
    obtain ⟨hdepth, rfl, _⟩ := scan_eof hp hscan hk
    rw [hp] at h
    obtain ⟨hmodes, hs⟩ := h.of_none.eq_base (hdepth.trans hd)
    exact ⟨hmodes, (skipSpace_modes l).trans hmodes, hs⟩

theorem ofSource_holds (source : List Char) (options : LexerOptions) :
    Holds (baseModes options.bareExpression) (ofSource source options).modes
      (ofSource source options).pending [] := .idle .base

/-- After any number of calls the modes of the start are at the bottom of the stack and every filter
lies on an island. A call that returns the end of the text finds the modes of the start and leaves
them, and the brackets among the tokens before it are nested. -/
theorem modes_nested (source : List Char) (options : LexerOptions) (n : Nat) :
    let start := ofSource source options
    let l := start.after n
    baseModes options.bareExpression <:+ l.modes ∧
    (∀ us vs, l.modes = us ++ .filter :: vs → vs.head? = some .script) ∧
    (∀ t l', l.nextToken = (.ok t, l') → t.kind = .eof →
      l.modes = baseModes options.bareExpression ∧ l'.modes = baseModes options.bareExpression ∧
        Nested (start.marks n)) := by
  intro start l
  obtain ⟨hd, s, h, hw⟩ :=
    after_holds (w := []) n (l := start) rfl (ofSource_holds source options) .nil
  obtain ⟨t, hmodes⟩ := h.modes
  refine ⟨hmodes.suffix, hmodes.filter_on_script ?_, fun t l' ht hk => ?_⟩
  · cases options.bareExpression <;> simp [baseModes]
  · obtain ⟨hl, hl', rfl⟩ := nextToken_eof hd h ht hk
    exact ⟨hl, hl', hw⟩

theorem modes_nested_of_filtered_template :
    let start := ofSource ['$', '\x7b', '\x60', '$', '\x7b', '1', '\x7d', '\x60', '|', 'f', '\x7d']
      ⟨false, true⟩
    (start.after 9).nextToken.1.toOption.map Token.isEof = some true ∧ Nested (start.marks 9) ∧
      start.marks 9 = [.opening .island, .opening .backtick, .opening .hole, .closing .hole,
        .closing .backtick, .closing .island] :=
  ⟨rfl, ((modes_nested _ ⟨false, true⟩ 9).2.2 _ _ rfl rfl).2.2, rfl⟩

end Lexer

end TemplateFormula
