import TemplateFormula.Proofs.Continuing.Sources
import TemplateFormula.Proofs.Lexing.Literals

/-!
# A minus sign behind an expression

Behind an expression a minus sign with a numeral subtracts it, with or without white space, if the
lexer knows the last token of the expression as the end of an operand.
-/

namespace TemplateFormula

namespace Scan

theorem parting_minus : Parting '-' := by
  constructor <;> decide

theorem punctuators_minus : ∀ symbol ∈ punctuators,
    '-' ∉ symbol.toList ∨ symbol.toList = ['-'] ∨ symbol.toList = ['-', '-'] := by decide

/-- A minus sign makes a longer punctuator only of another one. -/
theorem isPrefixOf_minus {symbol : String} (member : symbol ∈ punctuators) {p u : List Char}
    (some_ : p ≠ []) (other : p ≠ ['-']) :
    symbol.toList.isPrefixOf (p ++ '-' :: u) = symbol.toList.isPrefixOf p := by
  obtain ⟨c, p, rfl⟩ := List.exists_cons_of_ne_nil some_
  rcases punctuators_minus symbol member with absent | single | double
  · exact isPrefixOf_closing absent (c :: p) u
  · rw [single]
    simp only [List.cons_append, List.isPrefixOf]
  · rw [double]
    cases p with
    | nil =>
      have differs : c ≠ '-' := by
        rintro rfl
        exact other rfl
      simp [List.isPrefixOf, Ne.symm differs]
    | cons d p => simp only [List.cons_append, List.isPrefixOf]

theorem punctuator?_minus {p u : List Char} (some_ : p ≠ []) (more : p ≠ ['-']) :
    punctuator? (p ++ '-' :: u) = punctuator? p := by
  have found : punctuators.find? (fun s => s.toList.isPrefixOf (p ++ '-' :: u)) =
      punctuators.find? fun s => s.toList.isPrefixOf p :=
    List.find?_congr fun symbol member => isPrefixOf_minus member some_ more
  rw [punctuator?, punctuator?, found]

/-- A single minus sign is a punctuator of its own. -/
theorem punctuator?_sign {u : List Char} (single : u.head? ≠ some '-') :
    punctuator? ('-' :: u) = some ⟨.punctuator "-", none, 1⟩ := by
  have found : punctuators.find? (fun s => s.toList.isPrefixOf ('-' :: u)) =
      punctuators.find? fun s => s.toList.isPrefixOf ['-'] := by
    refine List.find?_congr fun symbol member => ?_
    rcases punctuators_minus symbol member with absent | alone | double
    · cases spelled : symbol.toList with
      | nil => rfl
      | cons c cs =>
        have differs : (c == '-') = false :=
          beq_false_of_ne fun same => absent (by rw [spelled, same]; exact List.mem_cons_self)
        simp only [List.isPrefixOf, differs, Bool.false_and]
    · rw [alone]
      rfl
    · rw [double]
      cases u with
      | nil => rfl
      | cons d u =>
        have differs : d ≠ '-' := fun same => single (by rw [same]; rfl)
        simp [List.isPrefixOf, Ne.symm differs]
  rw [punctuator?, found]
  rfl

/-- No numeral begins with a sign behind an operand or in front of a space. -/
theorem numeralChars_sign {u : List Char} :
    numeralChars true ('-' :: u) = [] ∧ numeralChars false ('-' :: ' ' :: u) = [] :=
  ⟨rfl, rfl⟩

end Scan

namespace Lexer

variable {l m : Lexer} {x : Lexeme} {t : Token} {c : Char} {cs : List Char}

/-- With nothing left of an expression its end is the only token. -/
theorem Sound.tokens_last (h : l.Sound) (idle : l.pending = none) (empty : l.rest = []) :
    ∃ s, l.tokens = [s] := by
  have none_ : l.skipSpace.rest = [] := by
    have shorter := skipSpace_length_le l
    rw [empty] at shorter
    exact List.eq_nil_of_length_eq_zero (Nat.le_zero.1 shorter)
  rcases scan_cases idle with ⟨-, -, ended⟩ | ⟨-, -, failed⟩ | ⟨some_, -⟩
  · exact ⟨_, (tokens_eof (nextToken_of_found idle ended) rfl).1⟩
  · have bad := h.good
    rw [failure?_of_error (nextToken_of_failed idle failed)] at bad
    cases bad
  · exact absurd none_ some_

/-- Where neither literal text nor a template is read, words and signs are looked for. -/
theorem scan_inside (start : l.mode ≠ .start) (template : l.mode ≠ .template)
    (rest_eq : l.skipSpace.rest = c :: cs) (island : c ≠ '$') :
    l.scan = l.skipSpace.scanExpression := by
  have mode_eq : l.skipSpace.mode = l.mode := by rw [mode, skipSpace_modes, mode]
  have closed : l.skipSpace.openIsland? = none := by
    rw [openIsland?_eq, rest_eq, if_neg]
    simp [List.isPrefixOf, Ne.symm island]
  have goes : ¬ l.skipSpace.rest.isEmpty = true := by
    rw [rest_eq, List.isEmpty_cons]
    exact Bool.false_ne_true
  change (if l.skipSpace.rest.isEmpty then _ else l.skipSpace.scanOn) = _
  rw [if_neg goes, scanOn_of_inside (by rwa [mode_eq]) (by rwa [mode_eq]), scanInside, closed]

/-- The token of a lexeme that opens and closes nothing, and the state behind it. -/
theorem Sound.tokens_found (h : l.Sound) (idle : l.pending = none)
    (found : l.scan = (.ok x, l.skipSpace)) (inked : x.kind ≠ .eof) :
    ∃ t, ∃ m : Lexer, t.kind = x.kind ∧ l.tokens = t :: m.tokens ∧ m.Sound ∧ m.pending = none ∧
      m.mode = l.mode ∧ m.rest = l.skipSpace.rest.drop x.length := by
  have pulled := nextToken_of_found idle found
  refine ⟨_, _, rfl, (tokens_next h.ready pulled inked).1, h.next pulled inked,
    (skipSpace_pending l).trans idle, ?_, rfl⟩
  change l.skipSpace.mode = l.mode
  rw [mode, skipSpace_modes, mode]

section Marks

variable (h : l.Sound) (idle : l.pending = none) (template : l.mode ≠ .template)
include h idle template

/-- A minus sign at the end of an expression is its last token. -/
theorem Sound.tokens_minus (rest_eq : l.skipSpace.rest = ['-']) :
    ∃ t s, l.tokens = [t, s] ∧ t.kind = .punctuator "-" := by
  have sign : l.skipSpace.scanExpression = (.ok ⟨.punctuator "-", none, 1⟩, l.skipSpace) := by
    have word : l.skipSpace.word? = none := by
      unfold word?
      rw [rest_eq]
      cases l.skipSpace.afterOperand <;> rfl
    have quoted : Scan.quoted? l.skipSpace.rest = .ok none := by
      rw [rest_eq]
      rfl
    have punctuator : Scan.punctuator? l.skipSpace.rest = some ⟨.punctuator "-", none, 1⟩ := by
      rw [rest_eq]
      rfl
    exact scanExpression_of_sign word quoted punctuator
  have found := (scan_inside (h.inside idle).1 template rest_eq (by decide)).trans sign
  obtain ⟨t, m, kind_eq, tokens, sound, idle_m, -, left⟩ :=
    h.tokens_found idle found TokenKind.noConfusion
  obtain ⟨s, last⟩ := sound.tokens_last idle_m (by rw [left, rest_eq]; rfl)
  exact ⟨t, s, by rw [tokens, last], kind_eq⟩

omit h idle template in
/-- A numeral is the word that stands where it begins. -/
theorem word?_numeral (some_ : Scan.numeralChars l.afterOperand l.rest ≠ []) :
    ∃ x, l.word? = some ⟨.number x, some (String.ofList (Scan.numeralChars l.afterOperand l.rest)),
      (Scan.numeralChars l.afterOperand l.rest).length⟩ := by
  obtain ⟨c, cs, rest_eq, first⟩ := Scan.numeral_head some_
  have start : Scan.isIdentifierStart c = false := by
    rcases first with rfl | digit
    · rfl
    · exact Scan.isIdentifierStart_of_isDigit digit
  obtain ⟨x, -, number⟩ := Scan.number?_literal some_
  refine ⟨x, ?_⟩
  unfold word?
  rw [number, rest_eq, Scan.keyword?_eq_none start, Scan.identifier?_eq_none start]
  rfl

omit h idle template in
/-- The mark of an exponent is a name. -/
theorem word?_mark {cs : List Char} (mark : Scan.IsMark cs) (rest_eq : l.rest = cs) :
    ∃ name, l.word? = some ⟨.identifier name, none, 1⟩ := by
  unfold word?
  rw [rest_eq]
  rcases mark with rfl | rfl
  · exact ⟨"e", rfl⟩
  · exact ⟨"E", rfl⟩

/-- Where a word is found, it is the next token. -/
theorem Sound.tokens_word (rest_eq : l.skipSpace.rest = c :: cs) (island : c ≠ '$')
    (word : l.skipSpace.word? = some x) :
    ∃ t, ∃ m : Lexer, t.kind = x.kind ∧ l.tokens = t :: m.tokens ∧ m.Sound ∧ m.pending = none ∧
      m.mode = l.mode ∧ m.rest = l.skipSpace.rest.drop x.length :=
  h.tokens_found idle
    ((scan_inside (h.inside idle).1 template rest_eq island).trans (scanExpression_of_word word))
    (TokenKind.ne_of_isUnmarked (word?_isUnmarked word) rfl)

/-- The mark of an exponent without digits is a name of its own. -/
theorem Sound.tokens_mark
    (open_ : Scan.EndsOpen (Scan.numeralChars l.skipSpace.afterOperand l.skipSpace.rest)
      l.skipSpace.rest) : ∃ t u s, l.tokens = [t, u, s] ∧ t.Abut u := by
  obtain ⟨some_, mark⟩ := open_
  obtain ⟨c, cs, rest_eq, first⟩ := Scan.numeral_head some_
  have island : c ≠ '$' := by
    rintro rfl
    rcases first with minus | digit
    · exact absurd minus (by decide)
    · cases digit
  obtain ⟨x, word⟩ := word?_numeral some_
  obtain ⟨t, m, number, tokens, sound, idle_m, mode_m, left⟩ :=
    h.tokens_word idle template rest_eq island word
  rw [← left] at mark
  have stays : ∃ d, m.rest = [d] ∧ isSpace d = false ∧ d ≠ '$' := by
    rcases mark with rest_m | rest_m
    · exact ⟨'e', rest_m, by decide, by decide⟩
    · exact ⟨'E', rest_m, by decide, by decide⟩
  obtain ⟨d, rest_m, black, island_d⟩ := stays
  have skipped : m.skipSpace = m := skipSpace_inked rest_m black
  obtain ⟨name, word_m⟩ := word?_mark mark rfl
  obtain ⟨u, z, identifier, tokens_m, sound_z, idle_z, -, left_z⟩ :=
    sound.tokens_word idle_m (by rwa [mode_m]) (by rw [skipped, rest_m]) island_d
      (by rw [skipped, word_m])
  obtain ⟨s, last⟩ := sound_z.tokens_last idle_z (by rw [left_z, skipped, rest_m]; rfl)
  exact ⟨t, u, s, by rw [tokens, tokens_m, last], x, name, number, identifier⟩

end Marks

/-- The last tokens of a list, told by their kinds. -/
theorem suffix_kinds {ts vs : List Token} (h : vs.map (·.kind) <:+ ts.map (·.kind)) :
    ∃ us ws, ts = us ++ ws ∧ ws.map (·.kind) = vs.map (·.kind) := by
  obtain ⟨ks, whole⟩ := h
  obtain ⟨us, ws, split, -, same⟩ := List.map_eq_append_iff.1 whole.symm
  exact ⟨us, ws, split, same⟩

/-- In front of a minus sign an expression is read as it is read alone. -/
theorem partedIn_minus {ts : List Token} {u : List Char} (finished : Finished ts) :
    PartedIn ('-' :: u) (ts.map (·.kind)) := by
  intro vs s z sound tokens _ suffix idle some_ template
  obtain ⟨us, ws, rfl, same⟩ := suffix_kinds suffix
  have apart : ¬ Scan.EndsOpen (Scan.numeralChars z.skipSpace.afterOperand z.skipSpace.rest)
      z.skipSpace.rest := by
    intro open_
    obtain ⟨t, t', s', found, x, name, number, identifier⟩ :=
      sound.tokens_mark idle template open_
    obtain ⟨rfl, -⟩ := List.append_inj' (tokens.symm.trans found : vs ++ [s] = [t, t'] ++ [s']) rfl
    obtain ⟨w, ws, rfl, kind_eq, last⟩ := List.map_eq_cons_iff.1 same
    obtain ⟨w', rfl, kind_eq'⟩ := List.map_eq_singleton_iff.1 last
    exact finished.apart us w w' rfl ⟨x, name, kind_eq.trans number, kind_eq'.trans identifier⟩
  have other : z.skipSpace.rest ≠ ['-'] := by
    intro sign
    obtain ⟨t, s', found, minus⟩ := sound.tokens_minus idle template sign
    obtain ⟨rfl, -⟩ := List.append_inj' (tokens.symm.trans found : vs ++ [s] = [t] ++ [s']) rfl
    obtain ⟨w, rfl, kind_eq⟩ := List.map_eq_singleton_iff.1 same
    obtain ⟨vs, last, split, final⟩ := finished.last
    obtain ⟨-, only⟩ := List.append_inj' split rfl
    obtain ⟨rfl, -⟩ := List.cons.inj only
    rw [kind_eq.trans minus] at final
    rcases final with operand | andSign | island
    · exact absurd operand (by decide)
    · exact absurd (TokenKind.punctuator.inj andSign) (by decide)
    · cases island
  exact
    { some_ := some_
      island := Scan.isPrefixOf_closing (by decide) _ _
      keyword := Scan.keyword?_closing Scan.parting_minus _ _
      identifier := Scan.identifier?_closing Scan.parting_minus _ _
      number := Scan.number?_closing Scan.parting_minus (fun _ => some_) (fun _ => apart)
      punctuator := Scan.punctuator?_minus some_ other
      free := fun x found => Scan.freeChar?_append found _ }

section Subtrahend

variable {ms : List Mode} {base : Nat} {after : Bool} {u n : List Char}

/-- A minus sign that begins no numeral is pulled as a sign. -/
theorem At.pull_sign (here : At base ms ('-' :: u) after l) (inside : InExpression ms)
    (sign : Scan.numeralChars after ('-' :: u) = []) (single : u.head? ≠ some '-') :
    ∃ t m, l.nextToken = (.ok t, m) ∧ t.kind = .punctuator "-" ∧ t.raw = none ∧
      At base ms u false m := by
  have scanned (l₀ : Lexer) (rest_eq : l₀.rest = '-' :: u)
      (at_ : At base ms ('-' :: u) after l₀) :
      l₀.scanExpression = (.ok ⟨.punctuator "-", none, 1⟩, { l₀ with modes := ms }) := by
    have word : l₀.word? = none :=
      word?_eq_none rest_eq (by decide) (by rw [at_.afterOperand]; exact sign)
    have quoted : Scan.quoted? l₀.rest = .ok none := by
      rw [rest_eq]
      rfl
    have punctuator : Scan.punctuator? l₀.rest = some ⟨.punctuator "-", none, 1⟩ := by
      rw [rest_eq, Scan.punctuator?_sign single]
    have inside₀ : InExpression l₀.modes := by rwa [at_.modes]
    have other : ("-" : String) ≠ "\x7b" ∧ ("-" : String) ≠ "\x7d" := by decide
    rw [scanExpression_of_sign word quoted punctuator, ← at_.modes]
    exact settle_of_plain inside₀ other.1 other.2
  obtain ⟨t, m, pulled, kind_eq, raw, there⟩ := here.pull inside rfl (by decide) (by simp) scanned
  have operand : endsOperand (ms.headD .start) (.punctuator "-") = false := rfl
  exact ⟨t, m, pulled, kind_eq, raw, operand ▸ there⟩

/-- A numeral at the end of the text is pulled as a number. -/
theorem At.pull_numeral (here : At base ms n after l) (inside : InExpression ms)
    (numeral : Scan.IsNumeral n) :
    ∃ t m, l.nextToken = (.ok t, m) ∧ t.kind = .number (Number.value numeral) ∧
      t.raw = some (String.ofList n) ∧ At base ms [] true m := by
  obtain ⟨c, cs, whole, digit⟩ := Number.IsNumeral.head numeral
  have start := Scan.isIdentifierStart_of_isDigit digit
  have scanned (l₀ : Lexer) (rest_eq : l₀.rest = n) (at_ : At base ms n after l₀) :
      l₀.scanExpression =
        (.ok ⟨.number (Number.value numeral), some (String.ofList n), n.length⟩,
          { l₀ with modes := ms }) := by
    have keyword : Scan.keyword? n = none := by rw [whole, Scan.keyword?_eq_none start]
    have identifier : Scan.identifier? n = none := by rw [whole, Scan.identifier?_eq_none start]
    have number : Scan.number? l₀.afterOperand (n ++ []) = _ :=
      Number.number?_numeral numeral l₀.afterOperand (by simp [Scan.EndsNumeral])
    have word : l₀.word? =
        some ⟨.number (Number.value numeral), some (String.ofList n), n.length⟩ := by
      rw [List.append_nil] at number
      unfold word?
      rw [rest_eq, number, keyword, identifier]
      rfl
    rw [scanExpression_of_word word, ← at_.modes]
  have island (r : List Char) : n ≠ '$' :: '\x7b' :: r := by
    intro same
    rw [whole] at same
    rw [(List.cons.inj same).1] at digit
    cases digit
  obtain ⟨t, m, pulled, kind_eq, raw, there⟩ :=
    here.pull inside (by rw [whole]; rfl) (isSpace_of_isDigit digit) island scanned
  rw [List.drop_length] at there
  exact ⟨t, m, pulled, kind_eq, raw, there⟩

end Subtrahend

end Lexer

namespace Parser

variable {o : ParseOptions} {src text : String} {a : Expr} {ts : List Token} {t stop : Token}

/-- A minus sign, the numeral behind it and the end of the text. -/
structure Subtracts (x : Float) (spelling : String) (v w stop : Token) : Prop where
  sign : v.kind = .punctuator "-" ∧ v.raw = none
  operand : w.kind = .number x ∧ w.raw = some spelling
  stops : stop.kind = .eof ∧ stop.raw = none

/-- Where a minus sign stands between spaces, or behind a token that ends an operand, it is pulled
behind the tokens of the expression, and the numeral is a number without a sign. -/
theorem Sourced.pulls_minus (h : Sourced src o a ts t stop) (form : o.form = .expression)
    {n : List Char} (numeral : Scan.IsNumeral n) {gap : List Char}
    (apart : gap = [' '] ∨ gap = [] ∧ Lexer.endsOperand .expression t.kind = true)
    (whole : text.toList = src.toList ++ (gap ++ '-' :: (gap ++ n))) :
    ∃ us v w stop', List.Forall₂ Token.Alike (ts ++ [t]) us ∧
      Subtracts (Number.value numeral) (String.ofList n) v w stop' ∧
      ∀ c b, Shows stop' [] none (us ++ [v, w]) c →
        (parse text o = .ok b ↔ ∃ c₁, expression (nestedGoal o.namespaces o.maxDepth) c =
          .ok (b, c₁) ∧ c₁.current.kind = .eof) := by
  obtain ⟨d, ds, begins, digit⟩ := Number.IsNumeral.head numeral
  have single : (gap ++ n).head? ≠ some '-' := by
    rcases apart with rfl | ⟨rfl, -⟩
    · simp
    · rw [List.nil_append, begins, List.head?_cons]
      rintro ⟨⟩
      cases digit
  have parted : Lexer.PartedIn (gap ++ '-' :: (gap ++ n)) ((ts ++ [t]).map (·.kind)) := by
    rcases apart with rfl | ⟨rfl, -⟩
    · exact Lexer.partedIn_space _
    · exact Lexer.partedIn_minus h.finished
  have blank : Lexer.IsGap gap := by
    rcases apart with rfl | ⟨rfl, -⟩
    · exact Lexer.isGap_space
    · exact Lexer.isGap_nil
  have sign :
      Scan.numeralChars (Lexer.endsOperand .expression t.kind) ('-' :: (gap ++ n)) = [] := by
    rcases apart with rfl | ⟨rfl, operand⟩
    · cases Lexer.endsOperand .expression t.kind
      · exact Scan.numeralChars_sign.2
      · exact Scan.numeralChars_sign.1
    · rw [operand]
      exact Scan.numeralChars_sign.1
  have here : Lexer.At 2 (Lexer.baseModes true) (src.toList ++ (gap ++ '-' :: (gap ++ n))) false
      (Lexer.ofSource text.toList ⟨true, o.allowFilter⟩) := ⟨by rw [whole]; rfl, rfl, rfl, rfl, rfl⟩
  have inside : Lexer.InExpression (Lexer.baseModes true) := .inl rfl
  obtain ⟨us, l, pulls, alike, behind, -⟩ := here.pulls h.tokens h.good parted rfl
  obtain ⟨v, l₁, pulled, sign_kind, sign_raw, behind₁⟩ :=
    (behind.behind_gap blank).pull_sign inside sign single
  obtain ⟨w, l₂, pulled₁, kind_eq, raw, last⟩ :=
    (behind₁.behind_gap blank).pull_numeral inside numeral
  have inked : v.kind ≠ .eof := by rw [sign_kind]; exact TokenKind.noConfusion
  have inked₁ : w.kind ≠ .eof := by rw [kind_eq]; exact TokenKind.noConfusion
  obtain ⟨stop', stops, stop_raw, parses⟩ := parse_of_pulls form
    (pulls.append (.cons pulled inked (.cons pulled₁ inked₁ (.nil l₂)))) last (by simp)
  exact ⟨us, v, w, stop', alike, ⟨⟨sign_kind, sign_raw⟩, ⟨kind_eq, raw⟩, ⟨stops, stop_raw⟩⟩, parses⟩

/-- The tokens of the expression, a minus sign and a number make an expression. -/
theorem Sourced.parses_minus (h : Sourced src o a ts t stop) {x : Float} {spelling : String}
    {us : List Token} {v w stop' : Token} (alike : List.Forall₂ Token.Alike (ts ++ [t]) us)
    (subtracts : Subtracts x spelling v w stop') {c : Cursor}
    (shows : Shows stop' [] none (us ++ [v, w]) c) :
    ∃ b c₁, expression (nestedGoal o.namespaces o.maxDepth) c = .ok (b, c₁) ∧
      c₁.current.kind = .eof := by
  have stops : Stop v [w, stop'] :=
    .minus subtracts.sign.1 subtracts.operand.1 subtracts.stops.1
  have shows' : Shows v [w, stop'] none us c :=
    ⟨by rw [shows.tokens, List.append_assoc]; rfl, shows.failure⟩
  have clear : v.kind = .punctuator ":" →
      endsBare o.namespaces ((ts ++ [t]).reverse.map (·.kind)) = false := fun colon =>
    absurd (TokenKind.punctuator.inj (subtracts.sign.1.symm.trans colon)) (by decide)
  obtain ⟨b, c₁, outcome, rest⟩ := h.goes_on stops clear (Nat.le_refl _) alike shows'
  refine ⟨b, c₁, outcome, ?_⟩
  rcases rest with ⟨-, -, tight⟩ | gone
  · exact absurd (tight subtracts.sign.1) (by decide)
  · exact gone.kind

theorem Subtracts.alike {x : Float} {spelling : String} {v w stop v' w' stop' : Token}
    (h : Subtracts x spelling v w stop) (h' : Subtracts x spelling v' w' stop') :
    List.Forall₂ Token.Alike [v, w, stop] [v', w', stop'] :=
  .cons ⟨h'.sign.1.trans h.sign.1.symm, h'.sign.2.trans h.sign.2.symm⟩
    (.cons ⟨h'.operand.1.trans h.operand.1.symm, h'.operand.2.trans h.operand.2.symm⟩
      (.cons ⟨h'.stops.1.trans h.stops.1.symm, h'.stops.2.trans h.stops.2.symm⟩ .nil))

/-- On tokens that differ in their places at most expressions are the same. -/
theorem expression_same {c c' c₁ : Cursor} (same : Same c c') {names : List String} {d : Nat}
    (outcome : expression (nestedGoal names d) c = .ok (a, c₁)) (ended : c₁.current.kind = .eof) :
    ∃ c₁', expression (nestedGoal names d) c' = .ok (a, c₁') ∧ c₁'.current.kind = .eof := by
  have keeps : alike.Keeps False (c.rest.length + 1) (expression (nestedGoal names d))
      (expression (nestedGoal names d)) := expression_keeps (nestedGoal_keeps names d)
  have agrees := keeps 0 c c' same (Nat.lt_succ_self _) False.elim
  rw [outcome] at agrees
  obtain ⟨c₁', outcome', related, -⟩ := agrees.eq_ok
  exact ⟨c₁', outcome', (Same.current related).kind.trans ended⟩

/-- A minus sign with a numeral subtracts it from the expression it stands behind. Without white
space it is read in the same way, unless the expression ends with the name of the whole data or with
an island, which the lexer does not know as the end of an operand. -/
theorem parse_minus (form : o.form = .expression) (parsed : parse src o = .ok a)
    (inked : ∃ c ∈ src.toList, Lexer.isSpace c = false) {n : List Char}
    (numeral : Scan.IsNumeral n) :
    ∃ b, parse (src ++ " - " ++ String.ofList n) o = .ok b ∧
      ((kindsFromEnd src o).head? ≠ some (.punctuator "&") →
        (kindsFromEnd src o).head? ≠ some .closeIsland →
        parse (src ++ "-" ++ String.ofList n) o = .ok b) := by
  obtain ⟨ts, t, stop, sourced⟩ := exists_sourced form parsed inked
  have apart : (src ++ " - " ++ String.ofList n).toList =
      src.toList ++ ([' '] ++ '-' :: ([' '] ++ n)) := by simp
  have glued : (src ++ "-" ++ String.ofList n).toList = src.toList ++ ([] ++ '-' :: ([] ++ n)) := by
    simp
  obtain ⟨us, v, w, stop₁, alike₁, subtracts, parses⟩ :=
    sourced.pulls_minus form numeral (.inl rfl) apart
  obtain ⟨c, -, shows, -⟩ := ofTokens_shows stop₁ [] none (us ++ [v, w])
  obtain ⟨b, c₁, outcome, ended⟩ := sourced.parses_minus alike₁ subtracts shows
  refine ⟨b, (parses c b shows).2 ⟨c₁, outcome, ended⟩, fun name island => ?_⟩
  rw [sourced.kindsFromEnd_eq form, List.reverse_concat] at name island
  have operand : Lexer.endsOperand .expression t.kind = true := by
    obtain ⟨vs, last, split, final⟩ := sourced.finished.last
    obtain ⟨-, only⟩ := List.append_inj' split rfl
    obtain ⟨rfl, -⟩ := List.cons.inj only
    rcases final with operand | named | closed
    · exact operand
    · exact absurd (congrArg some named) name
    · exact absurd (congrArg some closed) island
  obtain ⟨us', v', w', stop', alike', subtracts', parses'⟩ :=
    sourced.pulls_minus form numeral (.inr ⟨rfl, operand⟩) glued
  obtain ⟨c', -, shows', -⟩ := ofTokens_shows stop' [] none (us' ++ [v', w'])
  have same : Same c c' := by
    refine ⟨?_, ⟨shows.failure, shows'.failure⟩, stop₁, ?_, subtracts.stops.1⟩
    · rw [shows.tokens, shows'.tokens, List.append_assoc, List.append_assoc]
      exact List.rel_append (alike_compose alike₁ alike') (subtracts.alike subtracts')
    · rw [shows.tokens, List.getLast?_concat]
  exact (parses' c' b shows').2 (expression_same same outcome ended)

theorem parse_minus_behindCall :
    let o : ParseOptions := .expression
    o.form = .expression ∧ parse "max(x)" o = .ok (.call "max" [.variable "x"]) ∧
      (∃ c ∈ "max(x)".toList, Lexer.isSpace c = false) ∧ Scan.IsNumeral ['2', '.', '5'] ∧
      (kindsFromEnd "max(x)" o).head? ≠ some (.punctuator "&") ∧
      (kindsFromEnd "max(x)" o).head? ≠ some .closeIsland ∧
      ∃ b, parse "max(x) - 2.5" o = .ok b ∧ parse "max(x)-2.5" o = .ok b := by
  intro o
  have alone : parse "max(x)" o = .ok (.call "max" [.variable "x"]) := by cbv
  have inked : ∃ c ∈ "max(x)".toList, Lexer.isSpace c = false := ⟨'m', by decide, by decide⟩
  have numeral : Scan.IsNumeral ['2', '.', '5'] :=
    ⟨['2'], ['.', '5'], [], rfl, .inr ⟨⟨by simp, by simp⟩, by simp⟩,
      .inr ⟨['5'], rfl, by simp, by simp⟩, .inl rfl⟩
  have last : (kindsFromEnd "max(x)" o).head? = some (.punctuator ")") := by cbv
  have name : (kindsFromEnd "max(x)" o).head? ≠ some (.punctuator "&") := by
    rw [last]
    simp
  have island : (kindsFromEnd "max(x)" o).head? ≠ some .closeIsland := by
    rw [last]
    simp
  obtain ⟨b, apart, glued⟩ := parse_minus (o := o) rfl alone inked numeral
  exact ⟨rfl, alone, inked, numeral, name, island, b, apart, glued name island⟩

/-- An expression that is the name of the whole data ends in front of a number. -/
theorem expression_data {t u v : Token} {x : Float} (names : List String)
    (name : t.kind = .punctuator "&") (number : u.kind = .number x) (ends : v.kind = .eof) :
    expression (nestedGoal names 64) ⟨t, [u, v], none⟩ =
      .ok (.variable "&", ⟨u, [v], none⟩) := by
  obtain ⟨_, raw, start, stop⟩ := t
  obtain ⟨_, raw', start', stop'⟩ := u
  obtain ⟨_, raw₁, start₁, stop₁⟩ := v
  obtain rfl : _ = _ := name
  obtain rfl : _ = _ := number
  obtain rfl : _ = _ := ends
  cbv

/-- Directly behind the name of the whole data a minus sign belongs to the numeral, and a second
operand is out of place. -/
theorem parse_data_minus :
    parse "&" .expression = .ok (.variable "&") ∧
      parse "& - 0" .expression = .ok (.binary .minus (.variable "&") (.number 0)) ∧
      ∀ b, parse "&-0" .expression ≠ .ok b := by
  refine ⟨by cbv, by cbv, fun b parsed => ?_⟩
  have inside : Lexer.InExpression (Lexer.baseModes true) := .inl rfl
  have name : Lexer.Punctuates "&" ['-', '0'] :=
    ⟨⟨_, _, rfl, by decide⟩, fun after => by cases after <;> rfl, rfl⟩
  obtain ⟨x, -, number⟩ :=
    Scan.number?_literal (show Scan.numeralChars false ['-', '0'] ≠ [] by decide)
  have sign : Lexer.Spells 2 (Lexer.baseModes true) false ['&'] [.punctuator "&"] false
      ['-', '0'] := Lexer.spells_punct inside name (by decide) (by decide) (by decide)
  have operand : Lexer.Spells 2 (Lexer.baseModes true) false ['-', '0'] [.number x] true [] :=
    Lexer.spells_of_number? inside rfl rfl rfl number
  obtain ⟨l, ⟨us, pulls, kinds⟩, last⟩ :=
    sign.append operand (Lexer.ofSource "&-0".toList ⟨true, true⟩) ⟨rfl, rfl, rfl, rfl, rfl⟩
  obtain ⟨t, vs, rfl, kind_t, others⟩ := List.map_eq_cons_iff.1 kinds
  obtain ⟨u, rfl, kind_u⟩ := List.map_eq_singleton_iff.1 others
  obtain ⟨v, kind_v, -, parses⟩ := parse_of_pulls (o := .expression) rfl pulls last (by simp)
  have shows : Shows v [] none [t, u] ⟨t, [u, v], none⟩ := ⟨rfl, rfl⟩
  obtain ⟨c₁, outcome, ended⟩ := (parses _ b shows).1 parsed
  have stays := outcome.symm.trans (expression_data _ kind_t kind_u kind_v)
  cases stays
  exact TokenKind.noConfusion (ended.symm.trans kind_u)

end Parser

end TemplateFormula
