import TemplateFormula.Proofs.Lexing.Enclosing
import TemplateFormula.Proofs.Printing.Lexing

/-!
# Expressions in front of more text

An expression that is read without an error is read token by token in the same way with more text
behind it, if no word and no sign at its end goes on there. What is open where the expression ends
would be an error, so neither a template nor a quotation takes any of what follows.
-/

namespace TemplateFormula.Lexer

variable {l m : Lexer} {x y : Lexeme} {t : Token} {ts : List Token} {u : List Char}

/-- The lexer in an expression that it comes through without an error. -/
structure Sound (l : Lexer) : Prop where
  ready : l.Ready
  depth : l.baseDepth = (baseModes true).length
  holds : ∃ s, Holds (baseModes true) l.modes l.pending s
  good : l.failure? = none

theorem Sound.next (h : l.Sound) (pulled : l.nextToken = (.ok t, m)) (inked : t.kind ≠ .eof) :
    m.Sound := by
  obtain ⟨s, holds⟩ := h.holds
  obtain ⟨depth, s', holds', -⟩ := nextToken_holds h.depth holds
  rw [pulled] at depth holds'
  refine ⟨?_, depth, ⟨s', holds'⟩, ?_⟩
  · simpa only [pulled] using nextToken_ready l
  · rw [← (tokens_next h.ready pulled inked).2]
    exact h.good

theorem Sound.pulls (h : l.Sound) (pulls : l.Pulls ts m) : m.Sound := by
  induction pulls with
  | nil l => exact h
  | cons pulled inked _ ih => exact ih (h.next pulled inked)

theorem ofSource_sound {source : List Char} {allow : Bool}
    (good : (ofSource source ⟨true, allow⟩).failure? = none) :
    (ofSource source ⟨true, allow⟩).Sound :=
  ⟨ofSource_ready _ _, rfl, ⟨[], ofSource_holds source ⟨true, allow⟩⟩, good⟩

/-- Expressions are read outside of literal text, and templates in them are open. -/
theorem Sound.inside (h : l.Sound) (idle : l.pending = none) :
    l.mode ≠ .start ∧ (l.mode = .template → l.baseDepth < l.depth) := by
  obtain ⟨s, holds⟩ := h.holds
  rw [idle] at holds
  rw [h.depth, mode, Lexer.depth]
  have holds := holds.of_none
  generalize l.modes = ms at holds
  cases holds with
  | base => exact ⟨by decide, fun h => absurd h (by decide)⟩
  | script below | block below | template below | expression below | filter below =>
    exact ⟨by simp, fun _ => Nat.lt_succ_of_le below.length_le⟩

section Steps

theorem scanTemplate_continued (open_ : l.baseDepth < l.depth) (some_ : l.rest ≠ [])
    (found : l.scanTemplate = (.ok y, m)) (alive : ¬ Result.Doomed l.scanTemplate)
    (u : List Char) : (l.followed u).scanTemplate = (.ok y, m.followed u) := by
  obtain ⟨s, stretch_eq, outcome⟩ := scanTemplate_found found
  cases ended : s.next with
  | none =>
    refine absurd (scanTemplate_doomed open_ some_ fun s' stretch_eq' => ?_) alive
    rw [stretch_eq] at stretch_eq'
    exact Except.ok.inj stretch_eq' ▸ ended
  | some z =>
    have longer : Scan.templateStretch 0 (l.followed u).rest = .ok s :=
      Scan.templateStretch_ended stretch_eq ended u
    have fits : s.length ≤ (l.afterTemplate s.next).rest.length := by
      rw [afterTemplate_rest]
      simpa using (Scan.templateStretch_fits stretch_eq).2.1
    unfold scanTemplate
    rw [longer]
    dsimp only
    rw [afterTemplate_followed, deliverStretch_followed u fits, outcome]

/-- A lexeme that is found in an expression is found with more text behind it, unless the rest of
the expression is lost with it. -/
theorem scan_continued (inside : l.mode ≠ .start)
    (open_ : l.mode = .template → l.baseDepth < l.depth) (idle : l.pending = none)
    (found : l.scan = (.ok y, m)) (inked : y.kind ≠ .eof) (alive : ¬ Result.Doomed l.scan)
    (parts : l.skipSpace.rest ≠ [] → l.mode ≠ .template →
      Scan.Parts l.skipSpace.afterOperand l.skipSpace.rest u) :
    (l.followed u).scan = (.ok y, m.followed u) := by
  have some_ : l.skipSpace.rest ≠ [] := by
    rcases scan_cases idle with ⟨-, -, ended⟩ | ⟨-, -, failed⟩ | ⟨some_, -⟩
    · rw [ended] at found
      cases found
      exact absurd rfl inked
    · rw [failed] at found
      cases found
    · exact some_
  have mode_eq : l.skipSpace.mode = l.mode := by rw [mode, skipSpace_modes, mode]
  have depth_eq : l.skipSpace.depth = l.depth := by rw [depth, skipSpace_modes, depth]
  have base_eq := skipSpace_baseDepth l
  have more := parts some_
  unfold scan at found alive ⊢
  rw [skipSpace_followed some_ u]
  rw [← mode_eq] at inside open_ more
  rw [← depth_eq, ← base_eq] at open_
  generalize l.skipSpace = l at found alive some_ inside open_ more
  have goes : ¬ l.rest.isEmpty = true := fun empty => some_ (List.isEmpty_iff.mp empty)
  have goes' : ¬ (l.followed u).rest.isEmpty = true := by
    rw [List.isEmpty_iff, followed]
    exact List.append_ne_nil_of_left_ne_nil some_ u
  have mode_eq : (l.followed u).mode = l.mode := rfl
  dsimp only at found alive ⊢
  rw [if_neg goes] at found alive
  rw [if_neg goes', mode_eq]
  cases mode : l.mode with
  | start => exact absurd mode inside
  | template =>
    rw [mode] at found alive
    exact scanTemplate_continued (open_ mode) some_ found alive u
  | _ =>
    rw [mode] at found
    exact scanInside_followed (more (by rw [mode]; decide)) found

/-- What has to be known of the places where tokens are looked for. -/
def PartedFrom (u : List Char) (l : Lexer) : Prop :=
  l.pending = none → l.skipSpace.rest ≠ [] → l.mode ≠ .template →
    Scan.Parts l.skipSpace.afterOperand l.skipSpace.rest u

theorem not_doomed (h : l.Sound) (idle : l.pending = none) : ¬ Result.Doomed l.scan :=
  fun doomed => (fails_of_doomed idle doomed).failure? h.ready h.good

theorem Sound.next_continued (h : l.Sound) (pulled : l.nextToken = (.ok t, m))
    (inked : t.kind ≠ .eof) (parted : l.PartedFrom u) :
    (l.followed u).nextToken = (.ok t, m.followed u) := by
  have pending_eq : (l.followed u).pending = l.pending := rfl
  cases pulled_of_eq pulled with
  | @waiting x waits =>
    have fits : x.length ≤ { l with pending := none }.rest.length := (h.ready x waits).length_le
    rw [nextToken_of_waiting (pending_eq.trans waits)]
    exact congrArg (fun r => (Except.ok r.1, r.2)) (deliver_followed fits u)
  | @found x m₀ idle scanned =>
    obtain ⟨inside, open_⟩ := h.inside idle
    have there := scan_continued inside open_ idle scanned inked (not_doomed h idle) (parted idle)
    rw [nextToken_of_found (pending_eq.trans idle) there,
      deliver_followed (scan_fits idle scanned inked) u]

theorem Sound.pulls_continued (h : l.Sound) (pulls : l.Pulls ts m)
    (parted : ∀ us vs (z : Lexer), ts = us ++ vs → vs ≠ [] → z.Sound → z.Pulls vs m →
      z.PartedFrom u) :
    (l.followed u).Pulls ts (m.followed u) := by
  induction pulls with
  | nil l => exact .nil _
  | @cons l l' m t ts pulled inked more ih =>
    have here : l.PartedFrom u :=
      parted [] (t :: ts) l rfl (List.cons_ne_nil t ts) h (.cons pulled inked more)
    refine .cons (h.next_continued pulled inked here) inked (ih (h.next pulled inked) ?_)
    rintro us vs z rfl
    exact parted (t :: us) vs z rfl

end Steps

section Spaces

theorem skipSpace_inked {c : Char} {cs : List Char} (rest_eq : l.rest = c :: cs)
    (inked : isSpace c = false) : l.skipSpace = l := by
  have stays : ¬ isSpace c = true := by rw [inked]; exact Bool.false_ne_true
  unfold skipSpace
  rw [rest_eq, List.dropWhile_cons_of_neg stays, List.takeWhile_cons_of_neg stays,
    Position.advance_nil, ← rest_eq, ite_self]

/-- White space in front of a token plays no part in it. -/
theorem nextToken_spaced {l' : Lexer} (idle : l.pending = none) (idle' : l'.pending = none)
    (same : l'.skipSpace = l.skipSpace) : l'.nextToken = l.nextToken := by
  have scans : l'.scan = l.scan := by
    unfold scan
    rw [same]
  unfold nextToken
  rw [idle, idle', scans]

theorem tokens_spaced {l' : Lexer} (ready : l.Ready) (ready' : l'.Ready)
    (same : l'.nextToken = l.nextToken) : l'.tokens = l.tokens ∧ l'.failure? = l.failure? := by
  rcases pulled : l.nextToken with ⟨e | t, m⟩
  · rw [pulled] at same
    rw [failure?_of_error pulled, failure?_of_error same]
    simp only [tokens, trace, run, pulled, same, List.map_nil, and_self]
  · rw [pulled] at same
    by_cases ends : t.kind = .eof
    · rw [(tokens_eof pulled ends).1, (tokens_eof pulled ends).2, (tokens_eof same ends).1,
        (tokens_eof same ends).2]
      exact ⟨rfl, rfl⟩
    · obtain ⟨tokens, failures⟩ := tokens_next ready pulled ends
      obtain ⟨tokens', failures'⟩ := tokens_next ready' same ends
      exact ⟨tokens'.trans tokens.symm, failures'.trans failures.symm⟩

theorem Pulls.shifted {p : Position} {l' : Lexer} (states : l.Shifted p l') (pulls : l.Pulls ts m) :
    ∃ ts' m', l'.Pulls ts' m' ∧ List.Forall₂ (Token.Shifted p) ts ts' ∧ m.Shifted p m' := by
  induction pulls generalizing l' with
  | nil l => exact ⟨[], l', .nil l', .nil, states⟩
  | @cons l l₁ m t ts pulled inked _ ih =>
    have next := nextToken_shifted states
    rw [pulled] at next
    rcases pulled' : l'.nextToken with ⟨r, l₁'⟩
    rw [pulled'] at next
    cases next with
    | @ok _ t' _ _ tokens states₁ =>
      obtain ⟨ts', m', pulls', rest, ended⟩ := ih states₁
      have inked' : t'.kind ≠ .eof := by rw [tokens.kind]; exact inked
      exact ⟨t' :: ts', m', .cons pulled' inked' pulls', .cons tokens rest, ended⟩

/-- The first token is pulled where white space has been skipped. -/
theorem Pulls.spaced {l' : Lexer} (same : l'.nextToken = l.nextToken) (some_ : ts ≠ [])
    (pulls : l.Pulls ts m) : l'.Pulls ts m := by
  cases pulls with
  | nil => exact absurd rfl some_
  | cons pulled inked more => exact .cons (same.trans pulled) inked more

end Spaces

section Ends

/-- The last token says whether an operand stands before what follows. -/
theorem nextToken_afterOperand (pulled : l.nextToken = (.ok t, m)) :
    m.afterOperand = endsOperand m.mode t.kind := by
  cases pulled_of_eq pulled <;> rfl

theorem Pulls.afterOperand (pulls : l.Pulls (ts ++ [t]) m) :
    m.afterOperand = endsOperand m.mode t.kind := by
  generalize whole : ts ++ [t] = us at pulls
  induction pulls generalizing ts with
  | nil => simp at whole
  | cons pulled _ more ih =>
    cases ts with
    | nil =>
      obtain ⟨rfl, rfl⟩ := List.cons.inj whole
      cases more
      exact nextToken_afterOperand pulled
    | cons u ts => exact ih (List.cons.inj whole).2

/-- Where an expression ends, nothing is open and nothing but white space is left. -/
structure Spent (l : Lexer) : Prop where
  modes : l.modes = baseModes true
  idle : l.pending = none
  blank : l.rest.dropWhile isSpace = []

theorem Sound.spent (h : l.Sound) (pulled : l.nextToken = (.ok t, m)) (ends : t.kind = .eof) :
    l.Spent := by
  obtain ⟨s, holds⟩ := h.holds
  obtain ⟨modes, -, -⟩ := nextToken_eof h.depth holds pulled ends
  cases pulled_of_eq pulled with
  | waiting waits =>
    rw [waits] at holds
    exact absurd ends holds.pending_ne_eof
  | found idle scanned =>
    obtain ⟨-, rfl, empty⟩ := scan_eof idle scanned ends
    refine ⟨modes, idle, ?_⟩
    have skips : skipsSpace l.mode = true := by
      rw [mode, modes]
      rfl
    simpa only [skipSpace, if_pos skips] using empty

/-- The end of the text is spelled by nothing. -/
theorem raw_eof (idle : l.pending = none) (pulled : l.nextToken = (.ok t, m))
    (ends : t.kind = .eof) : t.raw = none := by
  cases pulled_of_eq pulled with
  | waiting waits =>
    rw [idle] at waits
    cases waits
  | found _ scanned =>
    obtain ⟨rfl, _⟩ | ⟨_, takes, _⟩ := scan_found idle scanned
    · rfl
    · exact absurd ends takes.kind_ne

end Ends

section Sources

variable {source cs : List Char} {allow : Bool} {c : Char} {stop : Token}

theorem shifted_placed (begins : l.position = .start) (p : Position) :
    l.Shifted p (l.placed p) := by
  refine ⟨?_, ?_⟩
  · rw [begins]
    exact Position.counted_start
  · rw [begins, Position.behind_start]

/-- Between white space an expression has tokens of the same kinds. -/
theorem tokens_trimmed (inked : source.dropWhile isSpace = c :: cs) (black : isSpace c = false) :
    ∃ p, List.Forall₂ (Token.Shifted p) (ofSource (c :: cs) ⟨true, allow⟩).tokens
        (ofSource source ⟨true, allow⟩).tokens ∧
      (ofSource source ⟨true, allow⟩).failure? =
        (ofSource (c :: cs) ⟨true, allow⟩).failure?.map (LexError.behind p) := by
  let p := (ofSource source ⟨true, allow⟩).skipSpace.position
  have skipped : (ofSource source ⟨true, allow⟩).skipSpace =
      (ofSource (c :: cs) ⟨true, allow⟩).placed p := by
    rw [← inked]
    rfl
  have stays : ((ofSource (c :: cs) ⟨true, allow⟩).placed p).skipSpace = _ :=
    skipSpace_inked rfl black
  obtain ⟨tokens, failure⟩ := tokens_spaced (.of_none rfl) (ofSource_ready _ _)
    (nextToken_spaced rfl rfl (skipped.trans stays.symm))
  have shifted : (ofSource (c :: cs) ⟨true, allow⟩).Shifted p _ := shifted_placed rfl p
  obtain ⟨shift, failure'⟩ := tokens_shifted shifted
  exact ⟨p, by rw [tokens]; exact shift, by rw [failure]; exact failure'⟩

/-- White space alone has no tokens. -/
theorem tokens_blank (blank : source.dropWhile isSpace = []) :
    ∃ t, (ofSource source ⟨true, allow⟩).tokens = [t] := by
  have empty : (ofSource source ⟨true, allow⟩).skipSpace.rest = [] := blank
  rcases scan_cases (l := ofSource source ⟨true, allow⟩) rfl with ⟨-, -, ended⟩ | ⟨-, open_, -⟩ |
    ⟨some_, -⟩
  · exact ⟨_, (tokens_eof (nextToken_of_found rfl ended) rfl).1⟩
  · exact absurd rfl open_
  · exact absurd empty some_

theorem forall₂_concat {α β : Type} {R : α → β → Prop} {us : List α} {vs : List β} {v : β}
    (h : List.Forall₂ R us (vs ++ [v])) :
    ∃ us' u, us = us' ++ [u] ∧ List.Forall₂ R us' vs ∧ R u v := by
  have reversed := List.forall₂_reverse_iff.2 h
  rw [List.reverse_concat] at reversed
  generalize back : us.reverse = ws at reversed
  cases reversed with
  | @cons u _ ws' _ last others =>
    refine ⟨ws'.reverse, u, ?_, ?_, last⟩
    · rw [← List.reverse_reverse us, back, List.reverse_cons]
    · rw [← List.forall₂_reverse_iff, List.reverse_reverse]
      exact others

/-- What has to be known of the places in an expression for reading it in front of more text. -/
def PartedIn (u : List Char) (ks : List TokenKind) : Prop :=
  ∀ (vs : List Token) (s : Token) (z : Lexer), z.Sound → z.tokens = vs ++ [s] → vs ≠ [] →
    vs.map (·.kind) <:+ ks → z.PartedFrom u

/-- In front of more text the tokens of an expression are pulled one after another, and only white
space is left in front of that text. -/
theorem Sound.pulls_end (h : l.Sound) {stop : Token} (tokens : l.tokens = (ts ++ [t]) ++ [stop])
    (parted : PartedIn u ((ts ++ [t]).map (·.kind))) :
    ∃ m : Lexer, (l.followed u).Pulls (ts ++ [t]) (m.followed u) ∧ m.Sound ∧ m.Spent ∧
      m.afterOperand = endsOperand .expression t.kind ∧ m.allowFilter = l.allowFilter := by
  have stops : stop.kind = .eof := by
    obtain ⟨us, last, whole, ends⟩ := tokens_end h.ready h.good
    obtain ⟨-, same⟩ := List.append_inj' (tokens.symm.trans whole) rfl
    obtain ⟨rfl, -⟩ := List.cons.inj same
    exact ends
  obtain ⟨m, pulls, left⟩ := pulls_of_tokens h.ready tokens (List.cons_ne_nil stop [])
  obtain ⟨m', pulled⟩ := next_of_tokens left
  have sound := h.pulls pulls
  have spent := sound.spent pulled stops
  refine ⟨m, h.pulls_continued pulls ?_, sound, spent, ?_, pulls.allowFilter⟩
  · intro us vs z split some_ sound_z pulls_z
    refine parted vs stop z sound_z ?_ some_ ?_
    · rw [(tokens_of_pulls sound_z.ready pulls_z).1, left]
    · rw [split, List.map_append]
      exact List.suffix_append _ _
  · have mode_eq : m.mode = .expression := by
      rw [mode, spent.modes]
      rfl
    rw [pulls.afterOperand, mode_eq]

/-- An expression is more than white space, and without that in front it has the same tokens. -/
theorem exists_trimmed (tokens : (ofSource source ⟨true, allow⟩).tokens = ts ++ [t, stop])
    (good : (ofSource source ⟨true, allow⟩).failure? = none) :
    ∃ c cs us u s, source.dropWhile isSpace = c :: cs ∧ isSpace c = false ∧
      (ofSource (c :: cs) ⟨true, allow⟩).Sound ∧
      (ofSource (c :: cs) ⟨true, allow⟩).tokens = (us ++ [u]) ++ [s] ∧
      List.Forall₂ Token.Alike (us ++ [u]) (ts ++ [t]) ∧ t.kind = u.kind := by
  cases inked : source.dropWhile isSpace with
  | nil =>
    obtain ⟨only, alone⟩ : ∃ s, (ofSource source ⟨true, allow⟩).tokens = [s] := tokens_blank inked
    have lengths := congrArg List.length (alone.symm.trans tokens)
    simp at lengths
  | cons c cs =>
    have black : isSpace c = false := by
      have stays := List.head?_dropWhile_not isSpace source
      rw [inked] at stays
      simpa using stays
    obtain ⟨p, shift, failure⟩ := tokens_trimmed inked black
    have spread : ts ++ [t, stop] = (ts ++ [t]) ++ [stop] := by simp
    rw [tokens, spread] at shift
    rw [good] at failure
    obtain ⟨us, s, tokens', front, -⟩ := forall₂_concat shift
    obtain ⟨us, u, rfl, -, last⟩ := forall₂_concat front
    exact ⟨c, cs, us, u, s, rfl, black, ofSource_sound (Option.map_eq_none_iff.1 failure.symm),
      tokens', front.imp fun _ _ => Token.Shifted.alike, last.kind⟩

theorem At.skipSpace_eq (here : At 2 (baseModes true) (source ++ u) false l)
    (inked : source.dropWhile isSpace = c :: cs) (allows : l.allowFilter = allow) :
    l.skipSpace = ((ofSource (c :: cs) ⟨true, allow⟩).followed u).placed l.skipSpace.position := by
  have skips : skipsSpace l.mode = true := by
    rw [mode, here.modes]
    rfl
  have dropped : l.rest.dropWhile isSpace = (c :: cs) ++ u := by
    rw [here.rest, List.dropWhile_append, inked, List.isEmpty_cons, if_neg Bool.false_ne_true]
  obtain ⟨-, modes, pending, operand, depth⟩ := here
  unfold skipSpace
  rw [if_pos skips, dropped]
  cases l
  simp only [followed, ofSource, placed] at *
  simp only [mk.injEq, modes, pending, operand, depth, allows, true_and, and_true]
  rfl

/-- What is read from the start of a text is read further on too. -/
theorem At.pulls_further {us : List Token} (here : At 2 (baseModes true) (source ++ u) false l)
    (inked : source.dropWhile isSpace = c :: cs) (black : isSpace c = false)
    (allows : l.allowFilter = allow) (some_ : us ≠ [])
    (pulls : ((ofSource (c :: cs) ⟨true, allow⟩).followed u).Pulls us m) :
    ∃ p us' m', l.Pulls us' m' ∧ List.Forall₂ (Token.Shifted p) us us' ∧ m.Shifted p m' := by
  let p := l.skipSpace.position
  have stays : (((ofSource (c :: cs) ⟨true, allow⟩).followed u).placed p).skipSpace = _ :=
    skipSpace_inked rfl black
  have same := nextToken_spaced rfl here.pending
    ((here.skipSpace_eq inked allows).trans stays.symm)
  obtain ⟨us', m', pulls', shift, shifted⟩ := pulls.shifted (shifted_placed rfl p)
  have some_' : us' ≠ [] := by
    rintro rfl
    cases shift
    exact some_ rfl
  exact ⟨p, us', m', pulls'.spaced same some_', shift, shifted⟩

/-- In front of more text an expression is read as it is read alone, if no word and no sign at its
end goes on there. -/
theorem At.pulls (tokens : (ofSource source ⟨true, allow⟩).tokens = ts ++ [t, stop])
    (good : (ofSource source ⟨true, allow⟩).failure? = none)
    (parted : PartedIn u ((ts ++ [t]).map (·.kind)))
    (here : At 2 (baseModes true) (source ++ u) false l) (allows : l.allowFilter = allow) :
    ∃ ts' m', l.Pulls ts' m' ∧ List.Forall₂ Token.Alike (ts ++ [t]) ts' ∧
      At 2 (baseModes true) u (endsOperand .expression t.kind) m' ∧ m'.allowFilter = allow := by
  obtain ⟨c, cs, us, t₁, stop₁, inked, black, sound, tokens₁, alike, last⟩ :=
    exists_trimmed tokens good
  obtain ⟨m, pulls, sound_m, spent, operand, allow_m⟩ :=
    sound.pulls_end tokens₁ (by rw [kinds_alike alike]; exact parted)
  obtain ⟨p, ts', m', pulls', shift, states⟩ :=
    here.pulls_further inked black allows (by simp) pulls
  refine ⟨ts', m', pulls', alike_compose alike (shift.imp fun _ _ => Token.Shifted.alike), ?_, ?_⟩
  · rw [states.eq]
    refine ⟨?_, spent.modes, spent.idle, ?_, sound_m.depth⟩
    · change (m.rest ++ u).dropWhile isSpace = u.dropWhile isSpace
      rw [List.dropWhile_append, spent.blank]
      rfl
    · rw [last]
      exact operand
  · rw [states.eq]
    exact allow_m

section Signs

variable {base : Nat} {ms : List Mode} {a b : Bool} {cs : List Char} {k : TokenKind}

theorem At.behind_gap {gap : List Char} (here : At base ms (gap ++ u) a l) (blank : IsGap gap) :
    At base ms u a l :=
  ⟨here.rest.trans (List.dropWhile_append_of_pos blank), here.modes, here.pending,
    here.afterOperand, here.baseDepth⟩

/-- What spells a single token is pulled as one. -/
theorem Spells.pull (h : Spells base ms a cs [k] b u) (here : At base ms (cs ++ u) a l) :
    ∃ t m, l.Pulls [t] m ∧ t.kind = k ∧ At base ms u b m ∧ m.allowFilter = l.allowFilter := by
  obtain ⟨m, ⟨us, pulls, kinds⟩, there⟩ := h l here
  obtain ⟨t, rfl, kind_eq⟩ := List.map_eq_singleton_iff.1 kinds
  exact ⟨t, m, pulls, kind_eq, there, pulls.allowFilter⟩

end Signs

/-- At the end of the text nothing goes on. -/
theorem partedIn_nil (ks : List TokenKind) : PartedIn [] ks := by
  intro vs s z _ _ _ _ _ some_ _
  refine ⟨some_, ?_, ?_, ?_, ?_, ?_, fun x found => by rw [List.append_nil]; exact found⟩ <;>
    rw [List.append_nil]

/-- Nothing goes on in front of a character that is in no word and in no longer sign. -/
theorem partedIn_lone {d : Char} (parting : Scan.Parting d) (lone : Scan.Lone d)
    (unsigned : ¬ Scan.IsSign d) (island : d ∉ ['$', '\x7b']) (ks : List TokenKind) :
    PartedIn (d :: u) ks := by
  intro vs s z _ _ _ _ _ some_ _
  exact
    { some_ := some_
      island := Scan.isPrefixOf_closing island _ _
      keyword := Scan.keyword?_closing parting _ _
      identifier := Scan.identifier?_closing parting _ _
      number := Scan.number?_closing parting (absurd · unsigned) (absurd · unsigned)
      punctuator := Scan.punctuator?_enclosed lone some_
      free := fun x found => Scan.freeChar?_append found _ }

theorem partedIn_space (ks : List TokenKind) : PartedIn (' ' :: u) ks :=
  partedIn_lone (by constructor <;> decide) (by decide)
    (by rintro (h | h) <;> exact absurd h (by decide)) (by decide) ks

theorem partedIn_parenthesis (ks : List TokenKind) : PartedIn (')' :: u) ks :=
  partedIn_lone (by constructor <;> decide) (by decide)
    (by rintro (h | h) <;> exact absurd h (by decide)) (by decide) ks

end Sources

end TemplateFormula.Lexer
