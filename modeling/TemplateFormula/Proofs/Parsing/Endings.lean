import TemplateFormula.Proofs.Lexing.Tiling
import TemplateFormula.Proofs.Parsing.Enclosing

/-!
# The last token of an expression

A parser that succeeds takes tokens from the front of those that are left. What an expression takes
ends with the last token of an operand, which is one that the lexer knows as such, the name of the
whole data, or the brace behind an island; and a name that an expression ends with never stands
directly behind a numeral.
-/

namespace TemplateFormula

/-- No failure waits behind the tokens, and the last of them is the end of the text. -/
structure Cursor.Complete (c : Cursor) : Prop where
  good : c.failure = none
  stops : ∃ t, c.tokens.getLast? = some t ∧ t.kind = .eof

/-- Another token stands behind one that does not end the text. -/
theorem Cursor.Complete.advance {c : Cursor} (h : c.Complete) (inked : c.current.kind ≠ .eof) :
    ∃ c₁, c.advance = .ok c₁ ∧ c₁.Complete ∧ c.tokens = c.current :: c₁.tokens := by
  obtain ⟨t, us, failure⟩ := c
  obtain ⟨rfl, last, ends, stops⟩ := h
  cases us with
  | nil =>
    cases ends
    exact absurd stops inked
  | cons u us => exact ⟨⟨u, us, none⟩, rfl, ⟨rfl, last, ends, stops⟩, rfl⟩

/-- Kinds of tokens that an operand may end with. -/
def TokenKind.Final (k : TokenKind) : Prop :=
  Lexer.endsOperand .expression k = true ∨ k = .punctuator "&" ∨ k = .closeIsland

/-- A numeral with a name behind it. -/
def Token.Abut (t u : Token) : Prop := ∃ x name, t.kind = .number x ∧ u.kind = .identifier name

/-- These tokens end like an expression. -/
structure Finished (ts : List Token) : Prop where
  last : ∃ us t, ts = us ++ [t] ∧ t.kind.Final
  apart : ∀ us t u, ts = us ++ [t, u] → ¬ t.Abut u

/-- Nothing, or tokens that go on behind an operand and end like an expression. -/
def Tail (ts : List Token) : Prop :=
  ts = [] ∨ ∃ t us, ts = t :: us ∧ (∃ symbol, t.kind = .punctuator symbol) ∧ Finished us

/-- The last of these tokens is of this kind. -/
def EndsWith (k : TokenKind) (ts : List Token) : Prop := ∃ us t, ts = us ++ [t] ∧ t.kind = k

section Tokens

variable {ts us vs : List Token} {t u : Token} {k : TokenKind} {symbol : String}

theorem Token.not_abut_of_punctuator (plain : t.kind = .punctuator symbol) : ¬ t.Abut u := by
  rintro ⟨x, name, number, -⟩
  exact TokenKind.noConfusion (plain.symm.trans number)

theorem finished_single (final : t.kind.Final) : Finished [t] := by
  refine ⟨⟨[], t, rfl, final⟩, fun us u v split => ?_⟩
  have lengths := congrArg List.length split
  simp at lengths

/-- Behind a punctuator tokens end as they do alone. -/
theorem Finished.behind (h : Finished vs) (plain : t.kind = .punctuator symbol) (us : List Token) :
    Finished (us ++ t :: vs) := by
  obtain ⟨⟨ws, last, rfl, final⟩, apart⟩ := h
  refine ⟨⟨us ++ t :: ws, last, by simp, final⟩, fun xs u v split => ?_⟩
  rcases List.eq_nil_or_concat ws with rfl | ⟨ws, w, rfl⟩
  · -- The last token stands alone behind the punctuator.
    have pair : us ++ [t, last] = xs ++ [u, v] := by simpa using split
    obtain ⟨-, same⟩ := List.append_inj' pair rfl
    obtain ⟨rfl, -⟩ := List.cons.inj same
    exact Token.not_abut_of_punctuator plain
  · have pair : (us ++ t :: ws) ++ [w, last] = xs ++ [u, v] := by simpa using split
    obtain ⟨-, same⟩ := List.append_inj' pair rfl
    have found := apart ws w last (by simp)
    simp only [List.cons.injEq, and_true] at same
    obtain ⟨rfl, rfl⟩ := same
    exact found

theorem Finished.tail (h : Finished us) (more : Tail vs) : Finished (us ++ vs) := by
  rcases more with rfl | ⟨t, vs, rfl, ⟨symbol, plain⟩, finished⟩
  · rwa [List.append_nil]
  · exact finished.behind plain us

theorem Finished.tail_cons (h : Finished us) (more : Tail vs)
    (plain : t.kind = .punctuator symbol) :
    Tail (t :: us ++ vs) :=
  .inr ⟨t, us ++ vs, rfl, ⟨symbol, plain⟩, h.tail more⟩

theorem EndsWith.append (h : EndsWith k vs) (us : List Token) : EndsWith k (us ++ vs) := by
  obtain ⟨ws, t, rfl, kind_eq⟩ := h
  exact ⟨us ++ ws, t, (List.append_assoc us ws [t]).symm, kind_eq⟩

theorem EndsWith.cons (h : EndsWith k vs) (t : Token) : EndsWith k (t :: vs) := h.append [t]

theorem endsWith_single (kind_eq : t.kind = k) : EndsWith k [t] := ⟨[], t, rfl, kind_eq⟩

/-- A closing token that is not a name ends an expression whatever stands in front of it. -/
theorem EndsWith.finished (h : EndsWith k ts) (final : k.Final) (other : ∀ s, k ≠ .identifier s) :
    Finished ts := by
  obtain ⟨us, t, rfl, rfl⟩ := h
  refine ⟨⟨us, t, rfl, final⟩, ?_⟩
  rintro xs u v split ⟨x, name, -, named⟩
  have pair : us ++ [t] = (xs ++ [u]) ++ [v] := by simpa using split
  obtain ⟨-, same⟩ := List.append_inj' pair rfl
  obtain ⟨rfl, -⟩ := List.cons.inj same
  exact other name named

end Tokens

namespace Parser

variable {α β : Type}

/-- Where the current token is of such a kind, a success of the parser takes such tokens. -/
def Consumes (K : TokenKind → Prop) (R : α → List Token → Prop) (p : Parser α) : Prop :=
  ∀ c a c₁, c.Complete → K c.current.kind → p c = .ok (a, c₁) →
    c₁.Complete ∧ ∃ ts, c.tokens = ts ++ c₁.tokens ∧ R a ts

/-- Without a match nothing is taken. -/
def Taking (S : List Token → Prop) : Option α → List Token → Prop
  | none, ts => ts = []
  | some _, ts => S ts

namespace Consumes

variable {K : TokenKind → Prop} {Q : α → List Token → Prop} {R : β → List Token → Prop}
  {S S' : List Token → Prop}

theorem mono {R' : α → List Token → Prop} {p : Parser α} (h : Consumes K Q p)
    (less : ∀ a ts, Q a ts → R' a ts) : Consumes K R' p := by
  intro c a c₁ complete known outcome
  obtain ⟨complete₁, ts, split, taken⟩ := h c a c₁ complete known outcome
  exact ⟨complete₁, ts, split, less a ts taken⟩

theorem known {K' : TokenKind → Prop} {p : Parser α} (h : Consumes K Q p)
    (less : ∀ k, K' k → K k) : Consumes K' Q p :=
  fun c a c₁ complete known outcome => h c a c₁ complete (less _ known) outcome

theorem result {b : β} (none_ : R b []) : Consumes K R (pure b) := by
  rintro c _ _ complete - ⟨⟩
  exact ⟨complete, [], rfl, none_⟩

theorem fails : Consumes K R fatal := by
  rintro c _ _ - - ⟨⟩

theorem bind {p : Parser α} {f : α → Parser β} (h : Consumes K Q p)
    (next : ∀ a ts, Q a ts → Consumes (fun _ => True) (fun b us => R b (ts ++ us)) (f a)) :
    Consumes K R (p >>= f) := by
  intro c b c₂ complete known outcome
  rw [bind_apply] at outcome
  rcases first : p c with e | ⟨a, c₁⟩
  · rw [first] at outcome
    cases outcome
  · rw [first] at outcome
    obtain ⟨complete₁, ts, split, taken⟩ := h c a c₁ complete known first
    obtain ⟨complete₂, us, split', taken'⟩ := next a ts taken c₁ b c₂ complete₁ trivial outcome
    exact ⟨complete₂, ts ++ us, by rw [split, split', List.append_assoc], taken'⟩

theorem map {g : α → β} {p : Parser α} (h : Consumes K Q p) (goes : ∀ a ts, Q a ts → R (g a) ts) :
    Consumes K R (do return g (← p)) :=
  h.bind fun a ts taken => .result (by rw [List.append_nil]; exact goes a ts taken)

theorem bind_kind {f : TokenKind → Parser β} (next : ∀ k, K k → Consumes (· = k) R (f k)) :
    Consumes K R (kind >>= f) :=
  fun c b c₁ complete known outcome => next c.current.kind known c b c₁ complete rfl outcome

theorem bind_current {f : Token → Parser β}
    (next : ∀ t : Token, K t.kind → Consumes (· = t.kind) R (f t)) :
    Consumes K R (current >>= f) :=
  fun c b c₁ complete known outcome => next c.current known c b c₁ complete rfl outcome

theorem branch {symbol : String} {q r : Parser β} (hit : Consumes (· = .punctuator symbol) R q)
    (miss : Consumes K R r) :
    Consumes K R (check symbol >>= fun b => if b then q else r) := by
  intro c b c₁ complete known outcome
  change (if c.current.kind.isPunctuator symbol then q else r) c = _ at outcome
  by_cases here : c.current.kind.isPunctuator symbol = true
  · rw [if_pos here] at outcome
    exact hit c b c₁ complete (Lexer.punctuator_of_isPunctuator here) outcome
  · rw [if_neg here] at outcome
    exact miss c b c₁ complete known outcome

/-- A token that does not end the text is taken. -/
theorem take {f : PUnit → Parser β} (inked : ∀ k, K k → k ≠ .eof)
    (next : ∀ t : Token, K t.kind → Consumes (fun _ => True) (fun b us => R b (t :: us)) (f ⟨⟩)) :
    Consumes K R (advance >>= f) := by
  intro c b c₂ complete known outcome
  obtain ⟨c₁, moved, complete₁, split⟩ := complete.advance (inked _ known)
  have moves : advance c = .ok (⟨⟩, c₁) := by
    rw [advance, moved]
    rfl
  rw [bind_of_ok moves] at outcome
  obtain ⟨complete₂, vs, split', taken⟩ := next _ known c₁ b c₂ complete₁ trivial outcome
  exact ⟨complete₂, c.current :: vs, by rw [split, split', List.cons_append], taken⟩

theorem advances {symbol : String} {R : PUnit → List Token → Prop}
    (taken : ∀ t : Token, t.kind = .punctuator symbol → R ⟨⟩ [t]) :
    Consumes (· = .punctuator symbol) R advance := by
  have step : Consumes (· = .punctuator symbol) R (advance >>= pure) := by
    refine take ?_ fun t known => .result (taken t known)
    rintro _ rfl
    exact TokenKind.noConfusion
  intro c a c₁ complete known outcome
  refine step c a c₁ complete known ?_
  rw [bind_apply, outcome]
  rfl

theorem take_symbol {symbol : String} {f : PUnit → Parser β}
    (next : ∀ t : Token, t.kind = .punctuator symbol →
      Consumes (fun _ => True) (fun b us => R b (t :: us)) (f ⟨⟩)) :
    Consumes (· = .punctuator symbol) R (advance >>= f) :=
  take (by rintro _ rfl; exact TokenKind.noConfusion) next

theorem bind_check {symbol : String} {f : Bool → Parser β}
    (next : ∀ b, Consumes K R (f b)) : Consumes K R (check symbol >>= f) :=
  fun c b c₁ complete known outcome => next _ c b c₁ complete known outcome

theorem expects {symbol : String} {f : PUnit → Parser β}
    (next : ∀ t : Token, t.kind = .punctuator symbol →
      Consumes (fun _ => True) (fun b us => R b (t :: us)) (f ⟨⟩)) :
    Consumes K R (expect symbol >>= f) := by
  have taken : Consumes K (fun _ ts => ∃ t, ts = [t] ∧ t.kind = .punctuator symbol)
      (expect symbol) :=
    .branch (.advances fun t kind_eq => ⟨t, rfl, kind_eq⟩) .fails
  refine taken.bind ?_
  rintro _ _ ⟨t, rfl, kind_eq⟩
  exact next t kind_eq

/-- A loop that counts down from the number of tokens left does not run out of them. -/
theorem bind_remaining {f : Nat → Parser β}
    (next : ∀ n, Consumes K (fun b ts => ts.length < n → R b ts) (f n)) :
    Consumes K R (remaining >>= f) := by
  intro c b c₁ complete known outcome
  obtain ⟨complete₁, ts, split, taken⟩ := next c.remaining c b c₁ complete known outcome
  refine ⟨complete₁, ts, split, taken ?_⟩
  have lengths := congrArg List.length split
  simp only [Cursor.tokens, List.length_append, List.length_cons] at lengths
  rw [Cursor.remaining]
  omega

theorem required {p : Parser (Option α)} (h : Consumes K (Taking S) p) :
    Consumes K (fun _ => S) (required p) := by
  refine h.bind fun a ts taken => ?_
  cases a with
  | none => exact .fails
  | some a => exact .result (by rw [List.append_nil]; exact taken)

theorem backtrack {p : Parser (Option α)} (h : Consumes K (fun a ts => a ≠ none → S ts) p) :
    Consumes K (Taking S) (attempt p) := by
  intro c a c₁ complete known outcome
  rw [attempt_apply] at outcome
  rcases first : p c with e | ⟨_ | a, c₂⟩ <;> rw [first] at outcome <;> cases outcome
  · exact ⟨complete, [], rfl, rfl⟩
  · obtain ⟨complete₁, ts, split, taken⟩ := h c _ c₁ complete known first
    exact ⟨complete₁, ts, split, taken (Option.some_ne_none a)⟩

theorem firstOf {ps : List (Parser (Option Expr))}
    (each : ∀ p ∈ ps, Consumes (fun _ => True) (Taking S) p) :
    Consumes (fun _ => True) (Taking S) (firstOf ps) := by
  induction ps with
  | nil => exact .result rfl
  | cons p ps ih =>
    obtain ⟨first, others⟩ := List.forall_mem_cons.1 each
    refine first.bind fun a ts taken => ?_
    cases a with
    | none =>
      obtain rfl : ts = [] := taken
      exact ih others
    | some e => exact .result (by rw [List.append_nil]; exact taken)

end Consumes

/-- A cursor with the front of its tokens taken. -/
structure Within (c c' : Cursor) : Prop where
  complete : c'.Complete
  suffix : c'.tokens <:+ c.tokens

theorem Within.step {c c' : Cursor} (h : Within c c') (inked : c'.current.kind ≠ .eof) :
    Step (fun d d' => d = d' ∧ Within c d) (fun _ _ => True) c'.rest.length c'.advance
      c'.advance := by
  obtain ⟨c₁, moved, complete, split⟩ := h.complete.advance inked
  have suffix := h.suffix
  have shorter := congrArg List.length split
  rw [split] at suffix
  simp only [Cursor.tokens, List.length_cons] at shorter
  rw [moved]
  exact .ok ⟨rfl, complete, (List.suffix_cons _ _).trans suffix⟩ (by omega)

/-- A cursor beside itself, within the tokens of another. -/
def within (c : Cursor) : Pairing where
  Related _ d d' := d = d' ∧ Within c d
  Fails _ _ := True
  exact := True
  meets := by
    rintro d c' _ ⟨rfl, -⟩
    exact .same rfl rfl
  unexpected _ := trivial
  runsOut _ := trivial
  remaining_lt := by
    rintro d c' _ ⟨rfl, -⟩
    exact Nat.lt_succ_self _
  filter _ _ := trivial
  inner := by
    rintro d c' _ ⟨rfl, inside⟩ inner
    exact inside.step (isInner_ne_eof inner)
  opening := by
    rintro d c' _ ⟨rfl, inside⟩ opens
    exact inside.step (by rw [opens]; exact TokenKind.noConfusion)
  closing := by
    rintro d c' _ ⟨rfl, inside⟩ closes
    exact inside.step (by rw [closes]; exact TokenKind.noConfusion)

/-- A parser takes tokens from the front of those that are left. -/
theorem taken_of_keeps {p : Parser α} {c c₁ : Cursor} {a : α} {n : Nat}
    (h : (within c).Keeps False n p p) (complete : c.Complete) (short : c.rest.length < n)
    (outcome : p c = .ok (a, c₁)) : c₁.Complete ∧ ∃ ts, c.tokens = ts ++ c₁.tokens := by
  have agrees := h 0 c c ⟨rfl, complete, List.suffix_rfl⟩ short False.elim
  rw [outcome] at agrees
  obtain ⟨_, -, ⟨rfl, complete₁, ts, split⟩, -⟩ := agrees.eq_ok
  exact ⟨complete₁, ts, split.symm⟩

theorem consumes_of_keeps {p : Parser α} (h : ∀ (P : Pairing) n, P.Keeps False n p p) :
    Consumes (fun _ => True) (fun _ _ => True) p := by
  intro c a c₁ complete _ outcome
  obtain ⟨complete₁, ts, split⟩ :=
    taken_of_keeps (h _ _) complete (Nat.lt_succ_self c.rest.length) outcome
  exact ⟨complete₁, ts, split, trivial⟩

section Operands

variable {nested : Nested} {names : List String}

theorem EndsWith.closed {symbol : String} {ts : List Token} (h : EndsWith (.punctuator symbol) ts)
    (final : (TokenKind.punctuator symbol).Final) : Finished ts :=
  h.finished final fun _ => TokenKind.noConfusion

/-- A token alone is an operand. -/
theorem Consumes.single {k : TokenKind} {e : Expr} (final : k.Final) (inked : k ≠ .eof) :
    Consumes (· = k) (Taking Finished) (do advance; pure (some e)) :=
  .take (by rintro _ rfl; exact inked) fun t known =>
    .result (finished_single (by rw [known]; exact final))

theorem literal_consumes : Consumes (fun _ => True) (Taking Finished) literal := by
  refine .bind_kind fun k _ => ?_
  cases k with
  | boolean b => exact .single (.inl rfl) TokenKind.noConfusion
  | null => exact .single (.inl rfl) TokenKind.noConfusion
  | undefined => exact .single (.inl rfl) TokenKind.noConfusion
  | _ => exact .result rfl

theorem number_consumes : Consumes (fun _ => True) (Taking Finished) number := by
  refine .bind_kind fun k _ => ?_
  cases k with
  | number x => exact .single (.inl rfl) TokenKind.noConfusion
  | _ => exact .result rfl

theorem text_consumes : Consumes (fun _ => True) (Taking Finished) text := by
  refine .bind_kind fun k _ => ?_
  cases k with
  | text s => exact .single (.inl rfl) TokenKind.noConfusion
  | _ => exact .result rfl

theorem identifier_consumes : Consumes (fun _ => True) (Taking Finished) identifier := by
  refine .bind_current fun t _ => ?_
  cases t.kind with
  | identifier name => exact .single (.inl rfl) TokenKind.noConfusion
  | boolean b => exact .single (.inl rfl) TokenKind.noConfusion
  | null => exact .single (.inl rfl) TokenKind.noConfusion
  | undefined => exact .single (.inl rfl) TokenKind.noConfusion
  | _ => exact .result rfl

/-- What is parsed one level deeper ends like an expression. -/
structure Ending (nested : Nested) : Prop where
  consumes : ∀ g, Consumes (fun _ => True) (Taking Finished) (nested g)
  uniform : Uniform nested

section Lists

variable (deeper : Ending nested)
include deeper

theorem expression_consumes : Consumes (fun _ => True) (fun _ => Finished) (expression nested) :=
  (deeper.consumes .expression).required

theorem members_consumes (closing : String) (n : Nat) :
    Consumes (fun _ => True) (fun _ ts => ts.length < n → EndsWith (.punctuator closing) ts)
      (members nested closing n) := by
  induction n with
  | zero => exact .result fun none_ => absurd none_ (Nat.not_lt_zero _)
  | succ n ih =>
    rw [members]
    refine (expression_consumes deeper).bind fun e us _ => ?_
    apply Consumes.branch
    · refine .take_symbol fun t _ => ih.map fun es ts taken short => ?_
      simp only [List.length_append, List.length_cons] at short
      exact ((taken (by omega)).cons t).append us
    · refine .branch (.take_symbol fun t kind_eq => .result fun _ => ?_) .fails
      exact (endsWith_single kind_eq).append us

theorem list_consumes (opening closing : String) :
    Consumes (fun _ => True) (Taking (EndsWith (.punctuator closing)))
      (list nested opening closing) := by
  refine .branch (.take_symbol fun t _ => ?_) (.result rfl)
  apply Consumes.branch
  · exact .take_symbol fun u kind_eq => .result ((endsWith_single kind_eq).cons t)
  · apply Consumes.bind_remaining
    intro n
    exact (members_consumes deeper closing n).map fun es ts taken short => (taken short).cons t

theorem array_consumes : Consumes (fun _ => True) (Taking Finished) (array nested) := by
  refine (list_consumes deeper "[" "]").map fun es ts taken => ?_
  cases es with
  | none => exact taken
  | some es => exact EndsWith.closed taken (.inl rfl)

theorem parenthesized_consumes :
    Consumes (fun _ => True) (Taking Finished) (parenthesized nested) := by
  refine (list_consumes deeper "(" ")").bind fun es ts taken => ?_
  match es with
  | none => exact .result (by rw [List.append_nil]; exact taken)
  | some [] | some [e] | some (e :: e' :: es) =>
    exact .result (by rw [List.append_nil]; exact EndsWith.closed taken (.inl rfl))

theorem objectMembers_consumes (n : Nat) :
    Consumes (fun _ => True) (fun _ ts => ts.length < n → EndsWith (.punctuator "\x7d") ts)
      (objectMembers nested n) := by
  induction n with
  | zero => exact .result fun none_ => absurd none_ (Nat.not_lt_zero _)
  | succ n ih =>
    rw [objectMembers]
    have key : Consumes (fun _ => True) (fun _ _ => True) (objectKey nested) :=
      consumes_of_keeps fun P _ => objectKey_keeps (deeper.uniform P)
    refine key.bind fun _ us _ => .expects fun t _ => ?_
    refine (expression_consumes deeper).bind fun value vs _ => ?_
    apply Consumes.branch
    · refine .take_symbol fun u _ => ih.map fun ms ts taken short => ?_
      simp only [List.length_append, List.length_cons] at short
      exact ((((taken (by omega)).cons u).append vs).cons t).append us
    · refine .branch (.take_symbol fun u kind_eq => .result fun _ => ?_) .fails
      exact (((endsWith_single kind_eq).append vs).cons t).append us

theorem object_consumes : Consumes (fun _ => True) (Taking Finished) (object nested) := by
  refine .branch (.take_symbol fun t _ => ?_) (.result rfl)
  apply Consumes.branch
  · refine .take_symbol fun u kind_eq => .result ?_
    exact EndsWith.closed ((endsWith_single kind_eq).cons t) (.inl rfl)
  · apply Consumes.bind_remaining
    intro n
    refine (objectMembers_consumes deeper n).map fun ms ts taken short => ?_
    exact EndsWith.closed ((taken short).cons t) (.inl rfl)

theorem templateParts_consumes (n : Nat) :
    Consumes (fun _ => True) (fun _ ts => ts.length < n → EndsWith (.punctuator backtick) ts)
      (templateParts nested n) := by
  induction n with
  | zero => exact .result fun none_ => absurd none_ (Nat.not_lt_zero _)
  | succ n ih =>
    have later (us : List Token) (t : Token) (e : Expr) : Consumes (fun _ => True)
        (fun _ ts => (us ++ t :: ts).length < n + 1 →
          EndsWith (.punctuator backtick) (us ++ t :: ts))
        (do return e :: (← templateParts nested n)) := by
      refine ih.map fun es ts taken short => ?_
      simp only [List.length_append, List.length_cons] at short
      exact ((taken (by omega)).cons t).append us
    rw [templateParts]
    apply Consumes.branch
    · exact .take_symbol fun t kind_eq => .result fun _ => endsWith_single kind_eq
    · refine .bind_kind fun k _ => ?_
      cases k with
      | openHole =>
        refine .take (by rintro _ rfl; exact TokenKind.noConfusion) fun t _ => ?_
        refine (expression_consumes deeper).bind fun e us _ => ?_
        refine .bind_kind fun k _ => ?_
        by_cases closes : (k == .closeHole) = true
        · simp only [if_pos closes]
          refine .take ?_ fun u _ => later (t :: us) u e
          rintro _ rfl rfl
          cases closes
        · simp only [if_neg closes]
          exact .fails
      | templateRaw s =>
        exact .take (by rintro _ rfl; exact TokenKind.noConfusion) fun t _ => later [] t _
      | _ => exact .fails

theorem template_consumes : Consumes (fun _ => True) (Taking Finished) (template nested) := by
  refine .branch (.take_symbol fun t _ => ?_) (.result rfl)
  refine .bind_remaining fun n => (templateParts_consumes deeper n).map fun es ts taken short => ?_
  exact EndsWith.closed ((taken short).cons t) (.inl rfl)

theorem island_consumes : Consumes (fun _ => True) (Taking Finished) (island nested) := by
  intro c a c₃ complete _ outcome
  by_cases opens : c.current.kind = .openIsland
  · have inked : c.current.kind ≠ .eof := by rw [opens]; exact TokenKind.noConfusion
    obtain ⟨c₁, moved, complete₁, split⟩ := complete.advance inked
    rw [island_apply, opens] at outcome
    dsimp only at outcome
    rcases entered : enter nested c with e | ⟨e, c₃'⟩ <;> rw [entered] at outcome <;> cases outcome
    obtain ⟨body, c₂, inside, closed⟩ := (enter_eq_ok moved).1 entered
    obtain ⟨closes, -, moved'⟩ := close_eq_ok.1 closed
    have shorter := congrArg List.length split
    simp only [Cursor.tokens, List.length_cons] at shorter
    have keeps : (within c₁).Keeps False c.rest.length (contents nested c.rest.length)
        (contents nested c.rest.length) :=
      (piped_keeps (deeper.uniform _)
        (islandNested_takes (deeper.uniform _) (Nat.le_refl _) (Nat.le_refl _))).required
    obtain ⟨complete₂, us, split'⟩ := taken_of_keeps keeps complete₁ (by omega) inside
    obtain ⟨c₃', moved'', complete₃, split''⟩ :=
      complete₂.advance (by rw [closes]; exact TokenKind.noConfusion)
    obtain rfl := Except.ok.inj (moved'.symm.trans moved'')
    refine ⟨complete₃, c.current :: (us ++ [c₂.current]), ?_, ?_⟩
    · rw [split, split', split'']
      simp
    · have last : EndsWith .closeIsland (c.current :: (us ++ [c₂.current])) :=
        ((endsWith_single closes).append us).cons c.current
      exact last.finished (.inr (.inr rfl)) fun _ => TokenKind.noConfusion
  · have blank : island nested c = .ok (none, c) := by
      rw [island_apply]
      cases kind_eq : c.current.kind with
      | openIsland => exact absurd kind_eq opens
      | _ => rfl
    rw [blank] at outcome
    cases outcome
    exact ⟨complete, [], rfl, rfl⟩

end Lists

section Names

variable (deeper : Ending nested)
include deeper

theorem variableName_consumes :
    Consumes (fun _ => True) (Taking Finished) (variableName names nested) := by
  apply Consumes.branch
  · exact .take_symbol fun t kind_eq => .result (finished_single (.inr (.inl kind_eq)))
  · refine .bind_kind fun k _ => ?_
    cases k with
    | identifier name =>
      refine .take (by rintro _ rfl; exact TokenKind.noConfusion) fun t kind_eq => ?_
      have alone : Taking Finished (some (Expr.variable name)) [t] :=
        finished_single (.inl (by rw [kind_eq]; rfl))
      by_cases known : names.contains name = true
      · simp only [known, Bool.and_true]
        refine .branch (.take_symbol fun u plain => ?_) (.result alone)
        exact (deeper.consumes .operand).required.map fun e us finished =>
          finished.behind plain [t]
      · simp only [known, Bool.and_false]
        exact .bind_check fun _ => .result alone
    | _ => exact .result rfl

theorem call_consumes : Consumes (fun _ => True) (Taking Finished) (call nested) := by
  refine .backtrack (.bind_kind fun k _ => ?_)
  cases k with
  | identifier name =>
    refine .take (by rintro _ rfl; exact TokenKind.noConfusion) fun t _ => ?_
    refine (list_consumes deeper "(" ")").map fun es ts taken found => ?_
    cases es with
    | none => exact absurd rfl found
    | some es => exact EndsWith.closed (EndsWith.cons taken t) (.inl rfl)
  | _ => exact .result fun found => absurd rfl found

omit deeper in
theorem arrowSign_consumes (params : List String) :
    Consumes (fun _ => True) (fun a ts => a ≠ none → EndsWith (.punctuator ">") ts)
      (arrowSign params) := by
  refine .branch (.take_symbol fun t _ => ?_) (.result fun found => absurd rfl found)
  refine .branch (.take_symbol fun u kind_eq => .result fun _ => ?_)
    (.result fun found => absurd rfl found)
  exact (endsWith_single kind_eq).cons t

omit deeper in
theorem arrowHead_consumes :
    Consumes (fun _ => True) (Taking (EndsWith (.punctuator ">"))) arrowHead := by
  have signed (us : List Token) (params : List String) : Consumes (fun _ => True)
      (fun a ts => a ≠ none → EndsWith (.punctuator ">") (us ++ ts)) (arrowSign params) :=
    (arrowSign_consumes params).mono fun a ts ends found => (ends found).append us
  have listed : Consumes (fun _ => True) (fun _ _ => True) parameterList :=
    consumes_of_keeps fun _ _ => parameterList_keeps
  have named : Consumes (fun _ => True) (fun _ _ => True) parameter :=
    consumes_of_keeps fun _ _ => parameter_keeps
  apply Consumes.backtrack
  refine listed.bind fun params us _ => ?_
  cases params with
  | some params => exact signed us params
  | none =>
    refine named.bind fun params vs _ => ?_
    cases params with
    | none => exact .result fun found => absurd rfl found
    | some params =>
      refine (signed (us ++ vs) params).mono fun a ts ends => ?_
      rwa [← List.append_assoc]

theorem arrow_consumes : Consumes (fun _ => True) (Taking Finished) (arrow nested) := by
  refine arrowHead_consumes.bind fun params ts taken => ?_
  cases params with
  | none => exact .result (by rw [List.append_nil]; exact taken)
  | some params =>
    obtain ⟨us, t, rfl, plain⟩ := taken
    refine (expression_consumes deeper).map fun e vs finished => ?_
    rw [List.append_assoc]
    exact finished.behind plain us

theorem primary_consumes :
    Consumes (fun _ => True) (Taking Finished) (primary names nested) := by
  apply Consumes.firstOf
  simp only [List.forall_mem_cons]
  exact ⟨variableName_consumes deeper, literal_consumes, number_consumes, text_consumes,
    template_consumes deeper, array_consumes deeper, object_consumes deeper,
    parenthesized_consumes deeper, island_consumes deeper,
    fun _ none_ => absurd none_ List.not_mem_nil⟩

theorem operandHead_consumes :
    Consumes (fun _ => True) (Taking Finished) (operandHead names nested) := by
  apply Consumes.firstOf
  simp only [List.forall_mem_cons]
  exact ⟨call_consumes deeper, arrow_consumes deeper, primary_consumes deeper,
    fun _ none_ => absurd none_ List.not_mem_nil⟩

theorem memberKey_consumes :
    Consumes (fun _ => True) (fun _ => Finished) (memberKey nested) := by
  apply Consumes.required
  apply Consumes.firstOf
  simp only [List.forall_mem_cons]
  exact ⟨identifier_consumes, number_consumes, island_consumes deeper,
    fun _ none_ => absurd none_ List.not_mem_nil⟩

theorem membersOf_consumes (n : Nat) (host : Expr) :
    Consumes (fun _ => True) (fun _ => Tail) (membersOf nested n host) := by
  induction n generalizing host with
  | zero => exact .result (.inl rfl)
  | succ n ih =>
    rw [membersOf]
    apply Consumes.branch
    · refine .take_symbol fun t plain => (memberKey_consumes deeper).bind fun key us finished => ?_
      exact (ih (.getter host key)).mono fun e vs more => finished.tail_cons more plain
    · refine .branch (.take_symbol fun t plain => ?_) (.result (.inl rfl))
      refine (expression_consumes deeper).bind fun key us _ => .expects fun u kind_eq => ?_
      refine (ih (.getter host key)).mono fun e vs more => ?_
      have closed : Finished (us ++ [u]) :=
        EndsWith.closed ((endsWith_single kind_eq).append us) (.inl rfl)
      have spread : t :: (us ++ [u]) ++ vs = t :: (us ++ u :: vs) := by simp
      exact spread ▸ closed.tail_cons more plain

theorem withMembers_consumes {head : Parser (Option Expr)}
    (h : Consumes (fun _ => True) (Taking Finished) head) :
    Consumes (fun _ => True) (Taking Finished) (withMembers nested head) := by
  refine h.bind fun e us taken => ?_
  cases e with
  | none => exact .result (by rw [List.append_nil]; exact taken)
  | some e =>
    refine .bind_remaining fun n => (membersOf_consumes deeper n e).map fun e vs more _ => ?_
    exact Finished.tail taken more

theorem operand_consumes :
    Consumes (fun _ => True) (Taking Finished) (operand names nested) :=
  withMembers_consumes deeper (operandHead_consumes deeper)

end Names

section Operators

theorem unaryOps_consumes (n : Nat) :
    Consumes (fun _ => True) (fun ops ts => (ops = [] ∧ ts = []) ∨
      (ops ≠ [] ∧ ∃ symbol, EndsWith (.punctuator symbol) ts)) (unaryOps n) := by
  induction n with
  | zero => exact .result (.inl ⟨rfl, rfl⟩)
  | succ n ih =>
    rw [unaryOps]
    refine .bind_kind fun k _ => ?_
    cases k with
    | punctuator symbol =>
      dsimp only
      cases UnaryOp.ofSymbol? symbol with
      | none => exact .result (.inl ⟨rfl, rfl⟩)
      | some op =>
        refine .take_symbol fun t kind_eq => ih.map fun ops ts taken =>
          .inr ⟨List.cons_ne_nil op ops, ?_⟩
        rcases taken with ⟨-, rfl⟩ | ⟨-, symbol', ends⟩
        · exact ⟨symbol, endsWith_single kind_eq⟩
        · exact ⟨symbol', ends.cons t⟩
    | _ => exact .result (.inl ⟨rfl, rfl⟩)

theorem punctuator_of_binaryOp? {k : TokenKind} {op : BinaryOp} (h : binaryOp? k = some op) :
    ∃ symbol, k = .punctuator symbol := by
  cases k with
  | punctuator symbol => exact ⟨symbol, rfl⟩
  | _ => cases h

theorem climb_consumes {right : Nat → Parser (Option Expr)}
    (rights : ∀ b, Consumes (fun _ => True) (Taking Finished) (right b)) (bound n : Nat)
    (left : Expr) : Consumes (fun _ => True) (fun _ => Tail) (climb right bound n left) := by
  induction n generalizing left with
  | zero => exact .result (.inl rfl)
  | succ n ih =>
    rw [climb]
    refine .bind_kind fun k _ => ?_
    cases op_eq : binaryOp? k with
    | none => exact .result (.inl rfl)
    | some op =>
      obtain ⟨symbol, rfl⟩ := punctuator_of_binaryOp? op_eq
      by_cases weaker : op.precedence < bound
      · simp only [if_pos weaker]
        exact .result (.inl rfl)
      · simp only [if_neg weaker]
        refine .take_symbol fun t plain => (rights _).required.bind fun e us finished => ?_
        exact (ih (.binary op left e)).mono fun e vs more => finished.tail_cons more plain

variable (deeper : Ending nested)
include deeper

theorem unary_consumes : Consumes (fun _ => True) (Taking Finished) (unary names nested) := by
  refine .bind_remaining fun n => (unaryOps_consumes n).bind fun ops us before => ?_
  refine (operand_consumes deeper).bind fun e vs taken => ?_
  cases e with
  | some e =>
    refine .result fun _ => ?_
    rw [List.append_nil]
    rcases before with ⟨-, rfl⟩ | ⟨-, symbol, ws, t, rfl, plain⟩
    · exact taken
    · rw [List.append_assoc]
      exact Finished.behind taken plain ws
  | none =>
    obtain rfl : vs = [] := taken
    rcases before with ⟨rfl, rfl⟩ | ⟨some_, -⟩
    · exact .result fun _ => rfl
    · have more : ¬ ops.isEmpty = true := fun none_ => some_ (List.isEmpty_iff.1 none_)
      simp only [if_neg more]
      exact .fails

theorem binary_consumes (levels bound : Nat) :
    Consumes (fun _ => True) (Taking Finished) (binary names nested levels bound) := by
  induction levels generalizing bound with
  | zero => exact unary_consumes deeper
  | succ levels ih =>
    rw [binary]
    refine (unary_consumes deeper).bind fun left us taken => ?_
    cases left with
    | none => exact .result (by rw [List.append_nil]; exact taken)
    | some left =>
      refine .bind_remaining fun n => (climb_consumes ih bound n left).map fun e vs more _ => ?_
      exact Finished.tail taken more

theorem conditional_consumes :
    Consumes (fun _ => True) (Taking Finished) (conditional names nested) := by
  refine (binary_consumes deeper _ 1).bind fun test us taken => ?_
  cases test with
  | none => exact .result (by rw [List.append_nil]; exact taken)
  | some test =>
    refine .branch (.take_symbol fun t _ => ?_) (.result (by rw [List.append_nil]; exact taken))
    refine (expression_consumes deeper).bind fun consequent vs _ => .expects fun u plain => ?_
    refine (expression_consumes deeper).map fun alternate ws finished => ?_
    have spread : us ++ t :: (vs ++ u :: ws) = (us ++ t :: vs) ++ u :: ws := by simp
    exact spread ▸ finished.behind plain (us ++ t :: vs)

end Operators

end Operands

theorem ending_nestedGoal (names : List String) (d : Nat) : Ending (nestedGoal names d) := by
  refine ⟨?_, fun P => nestedGoal_keeps (P := P) names d⟩
  induction d with
  | zero => rintro g c a c₁ - - ⟨⟩
  | succ d ih =>
    have deeper : Ending (nestedGoal names d) := ⟨ih, fun P => nestedGoal_keeps (P := P) names d⟩
    intro g
    cases g with
    | expression => exact conditional_consumes deeper
    | operand => exact operand_consumes deeper

end Parser

end TemplateFormula
