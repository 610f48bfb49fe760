import TemplateFormula.Proofs.Lexing.Enclosing
import TemplateFormula.Proofs.Resolving.Words

/-!
# From spot to spot

Where the lexer stands in a template is told by the constructs that are open there, by whether an
operand ends there, and by the text ahead. From one such spot it reads its way to the next word by
word: into an island and out of it, past names, numerals and signs, into a filter and along its free
text. A way to the end of the text gives a cursor on the words.
-/

namespace TemplateFormula

theorem Scan.ascii_of_isAlphanum {c : Char} (h : c.isAlphanum = true) : c.toNat < 128 := by
  simp only [Char.isAlphanum, Char.isAlpha, Char.isUpper, Char.isLower, Char.isDigit,
    Bool.or_eq_true, Bool.and_eq_true, decide_eq_true_eq, UInt32.le_iff_toNat_le] at h
  have upper : c.val.toNat ≤ 122 := by
    rcases h with (⟨-, h⟩ | ⟨-, h⟩) | ⟨-, h⟩ <;> exact h.trans (by decide)
  exact Nat.lt_of_le_of_lt upper (by decide)

/-- A place in a template. -/
structure Spot where
  modes : List Mode
  /-- An operand ends here. -/
  behind : Bool
  rest : List Char

namespace Spot

def mode (s : Spot) : Mode := s.modes.headD .start

/-- The text from the next word on. -/
def ahead (s : Spot) : List Char :=
  if Lexer.skipsSpace s.mode then s.rest.dropWhile Lexer.isSpace else s.rest

theorem ahead_inked {s : Spot} {d : Char} {cs : List Char} (rest_eq : s.rest = d :: cs)
    (inked : Lexer.isSpace d = false) : s.ahead = d :: cs := by
  have stays : ¬ Lexer.isSpace d = true := by rw [inked]; exact Bool.false_ne_true
  rw [ahead, rest_eq, List.dropWhile_cons_of_neg stays, ite_self]

/-- The spot behind white space. -/
def skipped (s : Spot) : Spot := { s with rest := s.ahead }

end Spot

namespace Lexer

/-- The lexer of a template is at the spot. -/
structure OnSpot (allow : Bool) (s : Spot) (l : Lexer) : Prop where
  rest : l.rest = s.rest
  modes : l.modes = s.modes
  afterOperand : l.afterOperand = s.behind
  pending : l.pending = none
  baseDepth : l.baseDepth = (baseModes false).length
  allowFilter : l.allowFilter = allow

/-- From the first spot the words are read up to the second. -/
def Leads (allow : Bool) (s : Spot) (ws : List Word) (s' : Spot) : Prop :=
  ∀ l, OnSpot allow s l → ∃ ts l', l.Pulls ts l' ∧ ts.map Token.word = ws ∧ OnSpot allow s' l'

variable {allow : Bool} {s s₁ s₂ : Spot} {ws vs : List Word} {us rest : List Char} {x : Lexeme}
  {k : TokenKind} {ms : List Mode} {l : Lexer}

theorem OnSpot.mode_eq (h : OnSpot allow s l) : l.mode = s.mode := by
  rw [mode, h.modes, Spot.mode]

theorem OnSpot.with_modes (h : OnSpot allow s l) : { l with modes := s.modes } = l := by
  rw [← h.modes]

theorem OnSpot.skipSpace (h : OnSpot allow s l) : OnSpot allow s.skipped l.skipSpace := by
  unfold Lexer.skipSpace Spot.skipped Spot.ahead
  rw [h.mode_eq, h.rest]
  split
  · exact ⟨rfl, h.modes, h.afterOperand, h.pending, h.baseDepth, h.allowFilter⟩
  · exact h

namespace Leads

theorem refl (s : Spot) : Leads allow s [] s := fun l h => ⟨[], l, .nil l, rfl, h⟩

theorem trans (first : Leads allow s ws s₁) (last : Leads allow s₁ vs s₂) :
    Leads allow s (ws ++ vs) s₂ := by
  intro l h
  obtain ⟨ts, l₁, pulls, words, h₁⟩ := first l h
  obtain ⟨us, l₂, pulls', words', h₂⟩ := last l₁ h₁
  exact ⟨ts ++ us, l₂, pulls.append pulls', by rw [List.map_append, words, words'], h₂⟩

theorem cons {w : Word} (first : Leads allow s [w] s₁) (last : Leads allow s₁ ws s₂) :
    Leads allow s (w :: ws) s₂ := first.trans last

/-- What is scanned behind white space is the next word. -/
theorem of_scan (ahead : s.ahead = us ++ rest) (some_ : us ≠ [])
    (found : ∀ l, OnSpot allow { s with rest := us ++ rest } l →
      l.scanOn = (.ok x, { l with modes := ms }))
    (spelled : x.raw.getD x.kind.spelling = String.ofList us) (length : x.length = us.length)
    (inked : x.kind ≠ .eof) :
    Leads allow s [(x.kind, us)] ⟨ms, endsOperand (ms.headD .start) x.kind, rest⟩ := by
  intro l h
  have here : OnSpot allow { s with rest := us ++ rest } l.skipSpace := by
    rw [← ahead]
    exact h.skipSpace
  have goes : ¬ l.skipSpace.rest.isEmpty = true := by
    rw [here.rest, List.isEmpty_iff]
    exact List.append_ne_nil_of_left_ne_nil some_ _
  have scanned : l.scan = (.ok x, { l.skipSpace with modes := ms }) := by
    change (if l.skipSpace.rest.isEmpty then _ else l.skipSpace.scanOn) = _
    rw [if_neg goes, found _ here]
  refine ⟨_, _, .cons (nextToken_of_found h.pending scanned) inked (.nil _), ?_, ?_, rfl, rfl,
    here.pending, here.baseDepth, here.allowFilter⟩
  · refine congrArg (fun w => [w]) (Prod.ext rfl ?_)
    change (x.raw.getD x.kind.spelling).toList = us
    rw [spelled, String.toList_ofList]
  · change l.skipSpace.rest.drop x.length = rest
    rw [here.rest, length, List.drop_left]

end Leads

/-! ### Outside of islands -/

theorem leads_open {b : Bool} :
    Leads allow ⟨baseModes false, b, '$' :: '\x7b' :: rest⟩ [(.openIsland, ['$', '\x7b'])]
      ⟨.script :: baseModes false, false, rest⟩ := by
  refine Leads.of_scan (x := ⟨.openIsland, none, 2⟩) rfl (List.cons_ne_nil '$' ['\x7b'])
    (fun l h => ?_) rfl rfl TokenKind.noConfusion
  obtain ⟨text, position, modes, depth, pending, allowed, after⟩ := l
  obtain ⟨rfl, rfl, -, -, -, -⟩ := h
  rfl

/-- A path behind a dollar sign is one word. -/
theorem leads_dollar {b : Bool} (island : us.head? ≠ some '\x7b') (pair : us.head? ≠ some '$')
    (some_ : us ≠ []) (whole : Scan.dollarPath us = us) :
    Leads allow ⟨baseModes false, b, '$' :: us⟩ [(.variable (String.ofList us), '$' :: us)]
      ⟨baseModes false, false, []⟩ := by
  refine Leads.of_scan
    (x := ⟨.variable (String.ofList us), some (String.ofList ('$' :: us)), us.length + 1⟩)
    (List.append_nil _).symm (List.cons_ne_nil '$' us) (fun l h => ?_) rfl rfl
    TokenKind.noConfusion
  have more : ¬ us.isEmpty = true := by rwa [List.isEmpty_iff]
  have stretch := Scan.rawStretch_dollar island pair 0
  rw [whole, if_neg more] at stretch
  have rest_eq : l.rest = '$' :: us := h.rest.trans (List.append_nil _)
  have modes : { l with modes := baseModes false } = l := h.with_modes
  have raw : l.scanOn = l.scanRaw := by
    rw [scanOn, h.mode_eq]
    rfl
  rw [modes, raw, scanRaw, rest_eq, stretch]
  rfl

/-! ### Inside of islands -/

section Inside

/-- Neither in literal text nor in that of a template. -/
def Inside (s : Spot) : Prop := s.mode ≠ .start ∧ s.mode ≠ .template

theorem inside_script {b : Bool} : Inside ⟨.script :: ms, b, us⟩ :=
  ⟨Mode.noConfusion, Mode.noConfusion⟩

theorem inside_filter {b : Bool} : Inside ⟨.filter :: ms, b, us⟩ :=
  ⟨Mode.noConfusion, Mode.noConfusion⟩

theorem Leads.of_scanExpression (inside : Inside s) (ahead : s.ahead = us ++ rest)
    (some_ : us ≠ []) (island : ∀ r, us ++ rest ≠ '$' :: '\x7b' :: r)
    (found : ∀ l, OnSpot allow { s with rest := us ++ rest } l →
      l.scanExpression = (.ok x, { l with modes := ms }))
    (spelled : x.raw.getD x.kind.spelling = String.ofList us) (length : x.length = us.length)
    (inked : x.kind ≠ .eof) :
    Leads allow s [(x.kind, us)] ⟨ms, endsOperand (ms.headD .start) x.kind, rest⟩ := by
  refine Leads.of_scan ahead some_ (fun l h => ?_) spelled length inked
  have closed : l.openIsland? = none := by
    unfold openIsland?
    split
    · next r eq => exact absurd (h.rest.symm.trans eq) (island r)
    · rfl
  have mode_eq : l.mode = s.mode := h.mode_eq
  rw [scanOn_of_inside (by rw [mode_eq]; exact inside.1) (by rw [mode_eq]; exact inside.2),
    scanInside, closed]
  exact found l h

/-- A word of the lexer leaves the open constructs as they are. -/
theorem leads_of_word? (raw : Option String) (inside : Inside s) (ahead : s.ahead = us ++ rest)
    (some_ : us ≠ []) (island : ∀ r, us ++ rest ≠ '$' :: '\x7b' :: r)
    (found : ∀ l : Lexer, l.rest = us ++ rest → l.afterOperand = s.behind →
      l.word? = some ⟨k, raw, us.length⟩)
    (inked : k ≠ .eof) (free : ∀ c, k ≠ .char c) :
    Leads allow s [(k, us)] ⟨s.modes, endsOperand s.mode k, rest⟩ := by
  have spelled : raw.getD k.spelling = String.ofList us := by
    let l₀ : Lexer := ⟨us ++ rest, .start, [], 0, none, false, s.behind⟩
    have text := (word?_spells (found l₀ rfl rfl)).text_eq free
    rwa [List.take_left] at text
  refine Leads.of_scanExpression (x := ⟨k, raw, us.length⟩) inside ahead some_ island
    (fun l h => ?_) spelled rfl inked
  have word := found l h.rest h.afterOperand
  have modes : { l with modes := s.modes } = l := h.with_modes
  rw [modes]
  exact scanExpression_of_word word

theorem endsOperand_wordKind (m : Mode) (name : String) : endsOperand m (wordKind name) = true := by
  rcases Scan.wordKind_cases name with kind | ⟨v, kind⟩ <;> rw [kind]
  · rfl
  · cases v <;> rfl

/-- A name is read as one word, keywords among them. -/
theorem leads_name {name : String} (word : Scan.IsWord name) (inside : Inside s)
    (ahead : s.ahead = name.toList ++ rest)
    (ends : ∀ c ∈ rest.head?, Scan.isIdentifierPart c = false ∧ c ≠ '\x7b') :
    Leads allow s [(wordKind name, name.toList)] ⟨s.modes, true, rest⟩ := by
  obtain ⟨raw, found⟩ := Scan.keyword_or_identifier word fun c head => (ends c head).1
  obtain ⟨d, ds, split, -, others⟩ := word
  obtain ⟨-, inked, free⟩ := Scan.wordKind_plain name
  have some_ : name.toList ≠ [] := by
    rw [split]
    exact List.cons_ne_nil _ _
  rw [← endsOperand_wordKind s.mode name]
  refine leads_of_word? raw inside ahead some_ (fun r island => ?_) (fun l hr _ => ?_)
    inked free
  · rw [split] at island
    obtain ⟨rfl, behind⟩ := List.cons.inj island
    cases ds with
    | nil => exact (ends '\x7b' (congrArg List.head? behind)).2 rfl
    | cons c ds =>
      have part := others c List.mem_cons_self
      rw [(List.cons.inj behind).1] at part
      cases part
  · simp only [Option.orElse_eq_orElse, Option.orElse_eq_or] at found
    simp only [word?, hr, Option.orElse_eq_orElse, Option.orElse_eq_or, ← Option.or_assoc, found,
      Option.some_or]

theorem leads_numeral {x : Float} {d : Char} {ds : List Char} (inside : Inside s)
    (ahead : s.ahead = d :: ds ++ rest) (start : Scan.isIdentifierStart d = false)
    (found : Scan.number? s.behind (d :: ds ++ rest) =
      some ⟨.number x, some (String.ofList (d :: ds)), (d :: ds).length⟩) :
    Leads allow s [(.number x, d :: ds)] ⟨s.modes, true, rest⟩ := by
  refine leads_of_word? (String.ofList (d :: ds)) inside ahead (List.cons_ne_nil _ _)
    (fun r island => ?_) (fun l hr after => ?_) TokenKind.noConfusion
    fun _ => TokenKind.noConfusion
  · rw [(List.cons.inj island).1] at start
    cases start
  · have keyword : Scan.keyword? (d :: ds ++ rest) = none := Scan.keyword?_eq_none start
    have identifier : Scan.identifier? (d :: ds ++ rest) = none := Scan.identifier?_eq_none start
    simp only [word?, hr, after, keyword, identifier, found]
    rfl

/-- A sign is found as itself, whatever it opens or closes. -/
structure SignAt (behind : Bool) (p : String) (rest : List Char) : Prop where
  head : ∃ d ds, p.toList = d :: ds ∧ Scan.isIdentifierStart d = false ∧ d ≠ '"' ∧ d ≠ '\''
  no_numeral : Scan.numeralChars behind (p.toList ++ rest) = []
  longest : Scan.punctuator? (p.toList ++ rest) = some ⟨.punctuator p, none, p.toList.length⟩

theorem SignAt.of_punctuates {p : String} (h : Punctuates p rest) (b : Bool) : SignAt b p rest := by
  obtain ⟨d, ds, split, start, -, quotes⟩ := h.head
  exact ⟨⟨d, ds, split, start, quotes⟩, h.no_numeral b, h.longest⟩

theorem SignAt.scanExpression {p : String} (h : SignAt l.afterOperand p rest)
    (rest_eq : l.rest = p.toList ++ rest) :
    l.scanExpression = l.settle ⟨.punctuator p, none, p.toList.length⟩ := by
  obtain ⟨d, ds, split, start, double, single⟩ := h.head
  have spread : p.toList ++ rest = d :: (ds ++ rest) := by rw [split, List.cons_append]
  refine scanExpression_of_sign (word?_eq_none (rest_eq.trans spread) start ?_) ?_ ?_
  · rw [← spread]
    exact h.no_numeral
  · simp [rest_eq, spread, Scan.quoted?, double, single]
  · rw [rest_eq]
    exact h.longest

theorem leads_sign {p : String} (inside : Inside s) (ahead : s.ahead = p.toList ++ rest)
    (sign : SignAt s.behind p rest)
    (settles : ∀ l, OnSpot allow { s with rest := p.toList ++ rest } l →
      l.settle ⟨.punctuator p, none, p.toList.length⟩ =
        (.ok ⟨k, none, p.toList.length⟩, { l with modes := ms }))
    (spelled : k.spelling = p) (inked : k ≠ .eof) :
    Leads allow s [(k, p.toList)] ⟨ms, endsOperand (ms.headD .start) k, rest⟩ := by
  obtain ⟨d, ds, split, start, -⟩ := sign.head
  have some_ : p.toList ≠ [] := by
    rw [split]
    exact List.cons_ne_nil _ _
  refine Leads.of_scanExpression (x := ⟨k, none, p.toList.length⟩) inside ahead some_
    (fun r island => ?_) (fun l h => ?_) (spelled.trans String.ofList_toList.symm) rfl inked
  · rw [split] at island
    rw [(List.cons.inj island).1] at start
    cases start
  · rw [← h.afterOperand] at sign
    rw [sign.scanExpression h.rest]
    exact settles l h

/-- Signs that open and close nothing. -/
def IsPlainSign (p : String) : Prop := p ≠ "\x7b" ∧ p ≠ "\x7d" ∧ p ≠ "|"

theorem leads_plain {p : String} (plain : IsPlainSign p) (inside : Inside s)
    (ahead : s.ahead = p.toList ++ rest) (sign : SignAt s.behind p rest) :
    Leads allow s [(.punctuator p, p.toList)]
      ⟨s.modes, endsOperand s.mode (.punctuator p), rest⟩ := by
  refine leads_sign inside ahead sign (fun l h => ?_) rfl TokenKind.noConfusion
  obtain ⟨opens, closes, bar⟩ := plain
  have modes : { l with modes := s.modes } = l := h.with_modes
  rw [modes]
  simp only [settle, TokenKind.isPunctuator, beq_iff_eq, if_neg opens, if_neg closes, if_neg bar]

/-- A closing brace leads out of an island, also from a filter. -/
theorem leads_close {b : Bool} (on : ms = [.script] ∨ ms = [.filter, .script])
    (ahead : Spot.ahead ⟨ms ++ baseModes false, b, us⟩ = '\x7d' :: rest) :
    Leads allow ⟨ms ++ baseModes false, b, us⟩ [(.closeIsland, ['\x7d'])]
      ⟨baseModes false, false, rest⟩ := by
  have inside : Inside ⟨ms ++ baseModes false, b, us⟩ := by
    rcases on with rfl | rfl
    · exact inside_script
    · exact inside_filter
  have sign : SignAt b "\x7d" rest :=
    ⟨⟨'\x7d', [], rfl, by decide⟩, by cases b <;> rfl, rfl⟩
  refine leads_sign (p := "\x7d") inside ahead sign (fun l h => ?_) rfl TokenKind.noConfusion
  have base : l.baseDepth ≤ (baseModes false).length := Nat.le_of_eq h.baseDepth
  change l.closeBrace _ = _
  rcases on with rfl | rfl
  · exact closeBrace_above rfl h.modes (by decide) base
  · have below := closeBrace_above (l := { l with modes := .script :: baseModes false })
      (x := ⟨.punctuator "\x7d", none, 1⟩) rfl rfl (by decide) base
    exact (closeBrace_in_filter h.modes).trans below

end Inside

/-! ### Filters -/

theorem leads_bar {b : Bool} (ahead : us.dropWhile isSpace = '|' :: ' ' :: rest) :
    Leads true ⟨.script :: baseModes false, b, us⟩ [(.openFilter, ['|'])]
      ⟨.filter :: .script :: baseModes false, false, ' ' :: rest⟩ := by
  have sign : SignAt b "|" (' ' :: rest) :=
    ⟨⟨'|', [], rfl, by decide⟩, by cases b <;> rfl, rfl⟩
  refine leads_sign (p := "|") inside_script ahead sign (fun l h => ?_) rfl TokenKind.noConfusion
  have script : l.mode = .script := h.mode_eq
  change (if l.mode = .script ∧ l.allowFilter = true then (Except.ok _, l.push .filter) else _) = _
  rw [if_pos ⟨script, h.allowFilter⟩, push, h.modes]

/-- A space in a filter is free text. -/
theorem leads_space {b : Bool} :
    Leads allow ⟨.filter :: ms, b, ' ' :: rest⟩ [(.char ' ', [' '])]
      ⟨.filter :: ms, false, rest⟩ := by
  refine Leads.of_scanExpression (x := ⟨.char ' ', none, 1⟩) inside_filter rfl
    (List.cons_ne_nil ' ' []) (by simp) (fun l h => ?_) rfl rfl TokenKind.noConfusion
  obtain ⟨text, position, modes, depth, pending, allowed, after⟩ := l
  obtain ⟨rfl, rfl, -, -, -, -⟩ := h
  cases after <;> rfl

/-! ### The end of the text -/

theorem ofSource_onSpot (source : List Char) (allow : Bool) :
    OnSpot allow ⟨baseModes false, false, source⟩ (ofSource source ⟨false, allow⟩) :=
  ⟨rfl, rfl, rfl, rfl, rfl, rfl⟩

theorem OnSpot.next_eof {b : Bool} (h : OnSpot allow ⟨baseModes false, b, []⟩ l) :
    ∃ t l', l.nextToken = (.ok t, l') ∧ t.kind = .eof := by
  obtain ⟨text, position, modes, depth, pending, allowed, after⟩ := l
  obtain ⟨rfl, rfl, -, rfl, rfl, -⟩ := h
  exact ⟨_, _, rfl, rfl⟩

/-- A way through the whole text gives a cursor on its words. -/
theorem Leads.cursor {b : Bool} {source : List Char} {w : Word}
    (h : Leads allow ⟨baseModes false, false, source⟩ (w :: ws) ⟨baseModes false, b, []⟩) :
    ∃ t ts stop, Cursor.ofSource source ⟨false, allow⟩ = .ok ⟨t, ts ++ [stop], none⟩ ∧
      (t :: ts).map Token.word = w :: ws ∧ stop.kind = .eof := by
  obtain ⟨ts, l, pulls, words, at_⟩ := h _ (ofSource_onSpot source allow)
  obtain ⟨stop, l', next, ends⟩ := at_.next_eof
  obtain ⟨tokens, failures⟩ := tokens_of_pulls (ofSource_ready _ _) pulls
  obtain ⟨last, fails⟩ := tokens_eof next ends
  cases ts with
  | nil => cases words
  | cons t ts =>
    refine ⟨t, ts, stop, ?_, words, ends⟩
    rw [Cursor.ofSource_eq, tokens, failures, last, fails]
    rfl

end Lexer

end TemplateFormula
