import TemplateFormula.Proofs.Lexing.Joining
import TemplateFormula.Proofs.Parsing.Expressions

/-!
# Trees of joined texts

A parser inside an island cannot see what stands behind the brace that closes it. So the parts of a
template that ends in an island are parsed in the same way with more text behind them, and what
follows is parsed as it is alone.
-/

namespace TemplateFormula

/-- The tokens from the current one on. -/
def Cursor.tokens (c : Cursor) : List Token := c.current :: c.rest

namespace Parser

open Pairing

section Places

/-- The cursors stand on the same tokens, which are further on for the second. -/
structure FurtherOn (p : Position) (c c' : Cursor) : Prop where
  tokens : List.Forall₂ (Token.Shifted p) c.tokens c'.tokens
  failure : c'.failure = c.failure.map (LexError.behind p)
  stops : c.failure = none → ∃ t, c.tokens.getLast? = some t ∧ t.kind = .eof

variable {p : Position} {c c' : Cursor}

theorem FurtherOn.current (h : FurtherOn p c c') : c.current.Shifted p c'.current := by
  have first := h.tokens
  rw [Cursor.tokens, Cursor.tokens] at first
  cases first with
  | cons first _ => exact first

theorem FurtherOn.length_eq (h : FurtherOn p c c') : c'.rest.length = c.rest.length := by
  have same := h.tokens.length_eq
  simp only [Cursor.tokens, List.length_cons] at same
  omega

theorem FurtherOn.text_eq (h : FurtherOn p c c') : c'.current.text = c.current.text := by
  rw [Token.text, Token.text, h.current.kind, h.current.raw]

theorem FurtherOn.step (h : FurtherOn p c c') (inked : c.current.kind ≠ .eof) :
    Step (FurtherOn p) (fun e e' => e' = e.behind p) c.rest.length c.advance c'.advance := by
  obtain ⟨t, ts, f⟩ := c
  obtain ⟨t', ts', f'⟩ := c'
  obtain ⟨tokens, failure, stops⟩ := h
  cases failure
  cases tokens with
  | cons first others =>
  cases others with
  | nil =>
    cases f with
    | some e => exact .error rfl
    | none =>
      obtain ⟨last, only, ends⟩ := stops rfl
      cases only
      exact absurd ends inked
  | @cons u u' us us' second others =>
    refine .ok ⟨.cons second others, rfl, fun good => ?_⟩ (Nat.lt_succ_self _)
    obtain ⟨last, tail, ends⟩ := stops good
    exact ⟨last, tail, ends⟩

theorem isInner_ne_eof {k : TokenKind} (h : k.isInner) : k ≠ .eof := by
  rintro rfl
  cases h

/-- Places further on are related cursors of their own. -/
def furtherOn (p : Position) : Pairing where
  Related _ := FurtherOn p
  Fails e e' := e' = e.behind p
  exact := True
  meets h := .same h.current.kind h.text_eq
  unexpected h := by rw [ParseError.behind, h.text_eq, h.current.start]
  runsOut h := by rw [ParseError.behind, h.current.start]
  remaining_lt h := by
    rw [Cursor.remaining, h.length_eq]
    exact Nat.lt_succ_self _
  filter _ _ := trivial
  inner h inner := h.step (isInner_ne_eof inner)
  opening h opens := h.step (by rw [opens]; exact TokenKind.noConfusion)
  closing h closes := h.step (by rw [closes]; exact TokenKind.noConfusion)

end Places

section Islands

/-- The cursor stands on these tokens, with a brace and more behind them. -/
structure Shows (brace : Token) (more : List Token) (failure : Option LexError) (ts : List Token)
    (c : Cursor) : Prop where
  tokens : c.tokens = ts ++ brace :: more
  failure : c.failure = failure

/-- Tokens up to the brace that closes the outermost of so many islands. -/
structure Inside (d : Nat) (ts : List Token) : Prop where
  inked : ∀ t ∈ ts, t.kind ≠ .eof
  islands : Token.closed ts + 1 = Token.opened ts + d

variable {brace t : Token} {more : List Token} {failure : Option LexError} {ts : List Token}
  {c c' : Cursor} {d : Nat}

theorem Shows.advance (h : Shows brace more failure (t :: ts) c) :
    ∃ c₁, c.advance = .ok c₁ ∧ Shows brace more failure ts c₁ := by
  obtain ⟨current, rest, f⟩ := c
  obtain ⟨tokens, fails⟩ := h
  obtain ⟨rfl, rfl⟩ := List.cons.inj tokens
  cases ts with
  | nil => exact ⟨_, rfl, rfl, fails⟩
  | cons u ts => exact ⟨_, rfl, rfl, fails⟩

theorem Shows.current (h : Shows brace more failure (t :: ts) c) : c.current = t :=
  (List.cons.inj h.tokens).1

theorem Shows.at_brace (h : Shows brace more failure [] c) : c.current = brace :=
  (List.cons.inj h.tokens).1

theorem Shows.current_eq {more' : List Token} {failure' : Option LexError}
    (h : Shows brace more failure ts c) (h' : Shows brace more' failure' ts c') :
    c'.current = c.current := by
  cases ts with
  | nil => rw [h.at_brace, h'.at_brace]
  | cons t ts => rw [h.current, h'.current]

theorem Shows.length_eq (h : Shows brace more failure ts c) :
    c.rest.length = ts.length + more.length := by
  have same := congrArg List.length h.tokens
  simp only [Cursor.tokens, List.length_cons, List.length_append] at same
  omega

/-- What stands behind the brace is met when the brace is taken. -/
theorem Shows.advance_brace (h : Shows brace more failure [] c)
    (ended : more ≠ [] ∨ failure ≠ none) : c.advance = Cursor.ofTokens failure more := by
  obtain ⟨current, rest, f⟩ := c
  obtain ⟨tokens, rfl⟩ := h
  obtain ⟨-, rfl⟩ := List.cons.inj tokens
  cases rest with
  | cons u rest => rfl
  | nil =>
    cases f with
    | some e => rfl
    | none => exact absurd rfl (ended.resolve_left fun h => h rfl)

theorem Inside.other (h : Inside d (t :: ts)) (opened : t.kind.opened = 0)
    (closed : t.kind.closed = 0) : Inside d ts := by
  obtain ⟨inked, islands⟩ := h
  refine ⟨(List.forall_mem_cons.1 inked).2, ?_⟩
  simp only [Token.opened_cons, Token.closed_cons, opened, closed] at islands
  omega

theorem Inside.opening (h : Inside d (t :: ts)) (opens : t.kind = .openIsland) :
    Inside (d + 1) ts := by
  obtain ⟨inked, islands⟩ := h
  refine ⟨(List.forall_mem_cons.1 inked).2, ?_⟩
  simp only [Token.opened_cons, Token.closed_cons, opens, TokenKind.opened, TokenKind.closed]
    at islands
  omega

theorem Inside.closing (h : Inside (d + 1) (t :: ts)) (closes : t.kind = .closeIsland) :
    Inside d ts := by
  obtain ⟨inked, islands⟩ := h
  refine ⟨(List.forall_mem_cons.1 inked).2, ?_⟩
  simp only [Token.opened_cons, Token.closed_cons, closes, TokenKind.opened, TokenKind.closed]
    at islands
  omega

theorem counts_of_isInner {k : TokenKind} (h : k.isInner) : k.opened = 0 ∧ k.closed = 0 := by
  cases k with
  | openIsland | closeIsland => cases h
  | _ => exact ⟨rfl, rfl⟩

/-- Up to the brace of the outermost island the first cursor has all tokens, and the second has more
behind them. -/
def Fronts (brace : Token) (more : List Token) (failure : Option LexError) (d : Nat)
    (c c' : Cursor) : Prop :=
  ∃ ts, Shows brace [] none ts c ∧ Shows brace more failure ts c' ∧ Inside (d + 1) ts

theorem Shows.step {e : Nat} (h : Shows brace [] none (t :: ts) c)
    (h' : Shows brace more failure (t :: ts) c') (inside : Inside (e + 1) ts) :
    Step (Fronts brace more failure e) Eq c.rest.length c.advance c'.advance := by
  obtain ⟨c₁, moves, shows₁⟩ := h.advance
  obtain ⟨c₁', moves', shows₁'⟩ := h'.advance
  rw [moves, moves']
  refine .ok ⟨ts, shows₁, shows₁', inside⟩ ?_
  rw [shows₁.length_eq, h.length_eq]
  exact Nat.lt_succ_self _

/-- An island is parsed in the same way whatever stands behind the brace that closes it. -/
def fronts (brace : Token) (closes : brace.kind = .closeIsland) (more : List Token)
    (failure : Option LexError) : Pairing where
  Related := Fronts brace more failure
  Fails := Eq
  exact := True
  meets := by
    rintro d c c' ⟨ts, shows, shows', -⟩
    rw [shows.current_eq shows']
    exact .same rfl rfl
  unexpected := by
    rintro d c c' ⟨ts, shows, shows', -⟩
    rw [shows.current_eq shows']
  runsOut := by
    rintro d c c' ⟨ts, shows, shows', -⟩
    rw [shows.current_eq shows']
  remaining_lt := by
    rintro d c c' ⟨ts, shows, shows', -⟩
    rw [Cursor.remaining, shows.length_eq, shows'.length_eq, List.length_nil]
    omega
  filter _ _ := trivial
  inner := by
    rintro d c c' ⟨ts, shows, shows', inside⟩ inner
    cases ts with
    | nil =>
      rw [shows.at_brace, closes] at inner
      cases inner
    | cons t ts =>
      rw [shows.current] at inner
      obtain ⟨opened, closed⟩ := counts_of_isInner inner
      exact shows.step shows' (inside.other opened closed)
  opening := by
    rintro d c c' ⟨ts, shows, shows', inside⟩ opens
    cases ts with
    | nil =>
      rw [shows.at_brace, closes] at opens
      cases opens
    | cons t ts =>
      rw [shows.current] at opens
      exact shows.step shows' (inside.opening opens)
  closing := by
    rintro d c c' ⟨ts, shows, shows', inside⟩ closing
    cases ts with
    | nil =>
      have islands := inside.islands
      simp only [Token.closed_nil, Token.opened_nil] at islands
      omega
    | cons t ts =>
      rw [shows.current] at closing
      exact shows.step shows' (inside.closing closing)

end Islands

section Parts

variable (nested : Nested) (c : Cursor)

abbrev Outcome : Type := Except ParseError (Expr × Cursor)

/-- Takes the current token for an expression. -/
def take (e : Expr) (c : Cursor) : Outcome := do
  let c₁ ← c.advance
  return (e, c₁)

/-- What stands between the braces of an island, parsed with a bound on the islands in it. -/
def contents (n : Nat) : Parser Expr := required (piped nested (islandNested nested n))

/-- The brace behind the contents of an island. -/
def close (e : Expr) (c : Cursor) : Outcome :=
  if c.current.kind == .closeIsland then take (.island e) c
  else .error (.unexpectedToken c.current.text c.current.start)

/-- An island from the token that opens it on. -/
def enter : Outcome := do
  let c₁ ← c.advance
  let (e, c₂) ← contents nested c.rest.length c₁
  close e c₂

/-- The part of a document that the current token begins. -/
def part? : Option Outcome :=
  match c.current.kind with
  | .raw s => some (take (.raw s) c)
  | .openIsland => some (enter nested c)
  | .variable path => some (take (.island (DollarPath.expand path)) c)
  | _ => none

variable {nested c}

/-- An outcome of a parser that may match nothing. -/
def found (r : Outcome) : Except ParseError (Option Expr × Cursor) :=
  r.map fun x => (some x.1, x.2)

theorem firstOf_found {p : Parser (Option Expr)} {r : Outcome} (h : p c = found r)
    (ps : List (Parser (Option Expr))) : firstOf (p :: ps) c = found r := by
  rw [firstOf, bind_apply, h]
  cases r <;> rfl

theorem take_apply (e : Expr) (c : Cursor) :
    (do Parser.advance; return some e : Parser (Option Expr)) c = found (take e c) := by
  rw [bind_apply, Parser.advance, take]
  cases c.advance <;> rfl

theorem closed_eq (e : Expr) (c : Cursor) : closed e c = found (close e c) := by
  rw [closed_apply, close]
  by_cases closes : (c.current.kind == .closeIsland) = true
  · rw [if_pos closes, if_pos closes]
    exact take_apply (.island e) c
  · rw [if_neg closes, if_neg closes]
    rfl

theorem rawText_apply (c : Cursor) :
    rawText c = match c.current.kind with
      | .raw s => found (take (.raw s) c)
      | _ => .ok (none, c) := by
  have shown : kind c = .ok (c.current.kind, c) := rfl
  rw [rawText, bind_of_ok shown]
  cases c.current.kind with
  | raw s => exact take_apply (.raw s) c
  | _ => rfl

theorem dollarVariable_apply (c : Cursor) :
    dollarVariable c = match c.current.kind with
      | .variable path => found (take (.island (DollarPath.expand path)) c)
      | _ => .ok (none, c) := by
  have shown : kind c = .ok (c.current.kind, c) := rfl
  rw [dollarVariable, bind_of_ok shown]
  cases c.current.kind with
  | «variable» path => exact take_apply _ c
  | _ => rfl

theorem island_apply (c : Cursor) :
    island nested c = match c.current.kind with
      | .openIsland => found (enter nested c)
      | _ => .ok (none, c) := by
  have spread : island nested c = enclosed (contents nested c.rest.length) c := rfl
  rw [spread, enclosed_apply]
  cases c.current.kind with
  | openIsland =>
    have opens : (TokenKind.openIsland == TokenKind.openIsland) = true := rfl
    dsimp only
    rw [if_pos opens, bind_apply, Parser.advance, enter]
    cases c.advance with
    | error e => rfl
    | ok c₁ =>
      dsimp only [Except.map]
      rw [bind_apply]
      change _ = found (contents nested c.rest.length c₁ >>= fun x => close x.1 x.2)
      rcases contents nested c.rest.length c₁ with e | ⟨e, c₂⟩
      · rfl
      · exact closed_eq e c₂
  | _ => rfl

theorem firstPart_apply (c : Cursor) :
    firstOf [rawText, island nested, dollarVariable] c =
      match part? nested c with
      | some r => found r
      | none => .ok (none, c) := by
  have raw := rawText_apply c
  have islands : island nested c = _ := island_apply c
  have dollar := dollarVariable_apply c
  unfold part?
  cases kind_eq : c.current.kind with
  | raw s =>
    rw [kind_eq] at raw
    exact firstOf_found raw _
  | openIsland =>
    rw [kind_eq] at raw islands
    rw [firstOf_none raw]
    exact firstOf_found islands _
  | «variable» path =>
    rw [kind_eq] at raw islands dollar
    rw [firstOf_none raw, firstOf_none islands]
    exact firstOf_found dollar _
  | _ =>
    rw [kind_eq] at raw islands dollar
    rw [firstOf_none raw, firstOf_none islands, firstOf_none dollar]
    rfl

/-- The parts of a document are parsed one after another. -/
theorem documentParts_apply (n : Nat) (c : Cursor) :
    documentParts nested (n + 1) c =
      match part? nested c with
      | none => .ok ([], c)
      | some r => do
        let (e, c₁) ← r
        let (es, c₂) ← documentParts nested n c₁
        return (e :: es, c₂) := by
  rw [documentParts, bind_apply, firstPart_apply]
  cases part? nested c with
  | none => rfl
  | some r =>
    rcases r with e | ⟨e, c₁⟩
    · rfl
    · dsimp only [found, Except.map]
      rw [bind_apply]
      change _ = documentParts nested n c₁ >>= fun x => pure (e :: x.1, x.2)
      rcases documentParts nested n c₁ with e | ⟨es, c₂⟩ <;> rfl

end Parts

section Documents

/-- Moving on from the last token does not stay there. -/
def Ended (more : List Token) (failure : Option LexError) : Prop := more ≠ [] ∨ failure ≠ none

/-- The ways to parse a part of a document up to a brace, whatever stands behind it. -/
inductive Passes (brace : Token) (ts : List Token) (r : Cursor → Outcome) : Prop where
  | error (e : ParseError)
      (all : ∀ more failure c, Shows brace more failure ts c → r c = .error e)
  | before (e : Expr) (us : List Token) (shorter : us.length < ts.length) (inside : Inside 0 us)
      (all : ∀ more failure c, Shows brace more failure ts c →
        ∃ c₁, r c = .ok (e, c₁) ∧ Shows brace more failure us c₁)
  | behind (e : Expr)
      (all : ∀ more failure c, Ended more failure → Shows brace more failure ts c →
        r c = do
          let c₁ ← Cursor.ofTokens failure more
          return (e, c₁))

variable {nested : Nested} {brace t : Token} {ts us : List Token}

/-- Nested goals are parsed in the same way on related cursors, however they are related. -/
def Uniform (nested : Nested) : Prop :=
  ∀ (P : Pairing) (g : Goal) (live : Prop) (n : Nat), P.Keeps live n (nested g) (nested g)

theorem exists_shows (brace : Token) (ts : List Token) : ∃ c, Shows brace [] none ts c := by
  cases ts with
  | nil => exact ⟨⟨brace, [], none⟩, rfl, rfl⟩
  | cons t ts => exact ⟨⟨t, ts ++ [brace], none⟩, rfl, rfl⟩

theorem Passes.along {r r' : Cursor → Outcome} (h : Passes brace us r)
    (short : us.length ≤ ts.length) (leads : ∀ more failure c, Shows brace more failure ts c →
      ∃ c', r' c = r c' ∧ Shows brace more failure us c') : Passes brace ts r' := by
  cases h with
  | error e all =>
    refine .error e fun more failure c shows => ?_
    obtain ⟨c', same, shows'⟩ := leads more failure c shows
    rw [same, all more failure c' shows']
  | before e vs shorter inside all =>
    refine .before e vs (Nat.lt_of_lt_of_le shorter short) inside fun more failure c shows => ?_
    obtain ⟨c', same, shows'⟩ := leads more failure c shows
    rw [same]
    exact all more failure c' shows'
  | behind e all =>
    refine .behind e fun more failure c ended shows => ?_
    obtain ⟨c', same, shows'⟩ := leads more failure c shows
    rw [same, all more failure c' ended shows']

theorem take_passes (e : Expr) (inside : Inside 0 ts) : Passes brace (t :: ts) (take e) := by
  refine .before e ts (Nat.lt_succ_self _) inside fun more failure c shows => ?_
  obtain ⟨c₁, moves, shows₁⟩ := shows.advance
  refine ⟨c₁, ?_, shows₁⟩
  rw [take, moves]
  rfl

/-- The contents of an island end at the same token, whatever stands behind its brace. -/
theorem contents_passes (uniform : Uniform nested)
    (closes : brace.kind = .closeIsland) (inside : Inside 1 ts) :
    (∃ e, ∀ more failure c n, Shows brace more failure ts c → ts.length < n →
      contents nested n c = .error e) ∨
    ∃ e us, us.length ≤ ts.length ∧ Inside 1 us ∧
      ∀ more failure c n, Shows brace more failure ts c → ts.length < n →
        ∃ c₁, contents nested n c = .ok (e, c₁) ∧ Shows brace more failure us c₁ := by
  obtain ⟨c₀, shows₀⟩ := exists_shows brace ts
  have agrees (more : List Token) (failure : Option LexError) (c : Cursor) (n : Nat)
      (shows : Shows brace more failure ts c) (enough : ts.length < n) :
      (fronts brace closes more failure).Agrees 0 c₀.rest.length (fun _ => 0)
        (contents nested (ts.length + 1) c₀) (contents nested n c) := by
    have islands : (fronts brace closes more failure).Takes False (ts.length + 1) _ _ :=
      islandNested_takes (uniform _) (Nat.le_refl _) enough
    have keeps : (fronts brace closes more failure).Keeps False (ts.length + 1) _ _ :=
      (piped_keeps (uniform _) islands).required
    refine keeps 0 c₀ c ⟨ts, shows₀, shows, inside⟩ ?_ False.elim
    rw [shows₀.length_eq]
    exact Nat.lt_succ_self _
  rcases outcome : contents nested (ts.length + 1) c₀ with e | ⟨e, c₁⟩
  · left
    refine ⟨e, fun more failure c n shows enough => ?_⟩
    have same := agrees more failure c n shows enough
    rw [outcome] at same
    obtain ⟨e', outcome', rfl⟩ := same.eq_error
    exact outcome'
  · right
    have same := agrees [] none c₀ (ts.length + 1) shows₀ (Nat.lt_succ_self _)
    rw [outcome] at same
    obtain ⟨_, -, ⟨us, shows₁, -, inside₁⟩, taken⟩ := same.eq_ok
    rw [shows₀.length_eq, shows₁.length_eq] at taken
    refine ⟨e, us, taken, inside₁, fun more failure c n shows enough => ?_⟩
    have same := agrees more failure c n shows enough
    rw [outcome] at same
    obtain ⟨c', outcome', ⟨us', shows₁', shows', -⟩, -⟩ := same.eq_ok
    obtain rfl : us' = us := List.append_cancel_right (shows₁'.tokens.symm.trans shows₁.tokens)
    exact ⟨c', outcome', shows'⟩

theorem close_passes (closes : brace.kind = .closeIsland) (e : Expr) (inside : Inside 1 ts) :
    Passes brace ts (close e) := by
  have taking {c : Cursor} (h : c.current.kind = .closeIsland) :
      close e c = take (.island e) c := by
    have ends : (c.current.kind == .closeIsland) = true := by
      rw [h]
      rfl
    rw [close, if_pos ends]
  cases ts with
  | nil =>
    refine .behind (.island e) fun more failure c ended shows => ?_
    rw [taking (shows.at_brace ▸ closes), take, shows.advance_brace ended]
  | cons t ts =>
    by_cases ends : (t.kind == .closeIsland) = true
    · have ends := eq_of_beq_closeIsland ends
      apply (take_passes (.island e) (inside.closing ends)).along (Nat.le_refl _)
      exact fun more failure c shows => ⟨c, taking (shows.current ▸ ends), shows⟩
    · refine .error (.unexpectedToken t.text t.start) fun more failure c shows => ?_
      rw [close, shows.current, if_neg ends]

theorem enter_passes (uniform : Uniform nested)
    (closes : brace.kind = .closeIsland) (opens : t.kind = .openIsland)
    (inside : Inside 0 (t :: ts)) : Passes brace (t :: ts) (enter nested) := by
  have entered (more : List Token) (failure : Option LexError) (c : Cursor)
      (shows : Shows brace more failure (t :: ts) c) :
      ts.length < c.rest.length ∧ ∃ c₁, Shows brace more failure ts c₁ ∧
        enter nested c = (contents nested c.rest.length c₁ >>= fun x => close x.1 x.2) := by
    obtain ⟨c₁, moves, shows₁⟩ := shows.advance
    refine ⟨?_, c₁, shows₁, by rw [enter, moves]; rfl⟩
    rw [shows.length_eq, List.length_cons]
    omega
  rcases contents_passes uniform closes (inside.opening opens) with
    ⟨e, fails⟩ | ⟨e, us, short, inside₁, reads⟩
  · refine .error e fun more failure c shows => ?_
    obtain ⟨enough, c₁, shows₁, enters⟩ := entered more failure c shows
    rw [enters, fails more failure c₁ _ shows₁ enough]
    rfl
  · have short : us.length ≤ (t :: ts).length := Nat.le_succ_of_le short
    apply (close_passes closes e inside₁).along short
    intro more failure c shows
    obtain ⟨enough, c₁, shows₁, enters⟩ := entered more failure c shows
    obtain ⟨c₂, contents_eq, shows₂⟩ := reads more failure c₁ _ shows₁ enough
    exact ⟨c₂, by rw [enters, contents_eq]; rfl, shows₂⟩

/-- The first token decides whether there is a part, and the part passes. -/
theorem part_passes (uniform : Uniform nested)
    (closes : brace.kind = .closeIsland) (inside : Inside 0 (t :: ts)) :
    (∀ c : Cursor, c.current = t → part? nested c = none) ∨
    ∃ r : Cursor → Outcome, (∀ c : Cursor, c.current = t → part? nested c = some (r c)) ∧
      Passes brace (t :: ts) r := by
  unfold part?
  cases kind_eq : t.kind with
  | raw s =>
    right
    refine ⟨take (.raw s), fun c here => by rw [here, kind_eq], ?_⟩
    exact take_passes _ (inside.other (by rw [kind_eq]; rfl) (by rw [kind_eq]; rfl))
  | «variable» path =>
    right
    refine ⟨take (.island (DollarPath.expand path)), fun c here => by rw [here, kind_eq], ?_⟩
    exact take_passes _ (inside.other (by rw [kind_eq]; rfl) (by rw [kind_eq]; rfl))
  | openIsland =>
    right
    refine ⟨enter nested, fun c here => by rw [here, kind_eq], ?_⟩
    exact enter_passes uniform closes kind_eq inside
  | _ =>
    left
    intro c here
    rw [here, kind_eq]

/-- The ways to parse the parts of a document up to a brace, whatever stands behind it. -/
inductive PassesAll (brace : Token) (ts : List Token) (nested : Nested) : Prop where
  | error (e : ParseError)
      (all : ∀ more failure c n, Ended more failure → Shows brace more failure ts c →
        ts.length + more.length < n → documentParts nested n c = .error e)
  | stuck (t : Token) (inked : t.kind ≠ .eof) (parts : List Expr)
      (all : ∀ more failure c n, Ended more failure → Shows brace more failure ts c →
        ts.length + more.length < n →
          ∃ c₁, documentParts nested n c = .ok (parts, c₁) ∧ c₁.current = t)
  | through (parts : List Expr)
      (all : ∀ more failure c n, Ended more failure → Shows brace more failure ts c →
        ts.length + more.length < n → ∃ k, more.length ≤ k ∧
          documentParts nested n c = do
            let c₁ ← Cursor.ofTokens failure more
            let (es, c₂) ← documentParts nested k c₁
            return (parts ++ es, c₂))

/-- One part in front of parts that end. -/
theorem PassesAll.cons (h : PassesAll brace us nested) (e : Expr)
    (next : ∀ more failure c n, Shows brace more failure ts c → ts.length + more.length < n →
      ∃ k c₁, us.length + more.length < k ∧ Shows brace more failure us c₁ ∧
        documentParts nested n c =
          (documentParts nested k c₁ >>= fun y => pure (e :: y.1, y.2))) :
    PassesAll brace ts nested := by
  cases h with
  | error e' all =>
    refine .error e' fun more failure c n ended shows lt => ?_
    obtain ⟨k, c₁, lt, shows₁, parts⟩ := next more failure c n shows lt
    rw [parts, all more failure c₁ k ended shows₁ lt]
    rfl
  | stuck t inked es all =>
    refine .stuck t inked (e :: es) fun more failure c n ended shows lt => ?_
    obtain ⟨k, c₁, lt, shows₁, parts⟩ := next more failure c n shows lt
    obtain ⟨c₂, others, here⟩ := all more failure c₁ k ended shows₁ lt
    exact ⟨c₂, by rw [parts, others]; rfl, here⟩
  | through es all =>
    refine .through (e :: es) fun more failure c n ended shows lt => ?_
    obtain ⟨k, c₁, lt, shows₁, parts⟩ := next more failure c n shows lt
    obtain ⟨k', enough, others⟩ := all more failure c₁ k ended shows₁ lt
    refine ⟨k', enough, ?_⟩
    rw [parts, others]
    rcases Cursor.ofTokens failure more with e' | c₂
    · rfl
    · change (documentParts nested k' c₂ >>= fun y => pure (es ++ y.1, y.2)) >>= _ =
        documentParts nested k' c₂ >>= fun y => pure (e :: (es ++ y.1), y.2)
      rcases documentParts nested k' c₂ with e' | ⟨fs, c₃⟩ <;> rfl

theorem documentParts_pass (uniform : Uniform nested) (closes : brace.kind = .closeIsland)
    (inside : Inside 0 ts) : PassesAll brace ts nested := by
  -- Every part takes a token, so the induction is on how many there are.
  generalize count : ts.length = m
  induction m using Nat.strong_induction_on generalizing ts with
  | h m ih =>
    subst count
    cases ts with
    | nil => exact absurd inside.islands (by simp)
    | cons t ts =>
      have some_token {n m : Nat} (lt : (t :: ts).length + m < n) :
          ∃ k, n = k + 1 ∧ ts.length + m < k := by
        rw [List.length_cons] at lt
        exact ⟨n - 1, by omega, by omega⟩
      rcases part_passes uniform closes inside with nothing | ⟨r, some_, passes⟩
      · refine .stuck t (inside.inked t List.mem_cons_self) [] fun more failure c n _ shows lt => ?_
        obtain ⟨k, rfl, -⟩ := some_token lt
        refine ⟨c, ?_, shows.current⟩
        rw [documentParts_apply, nothing c shows.current]
      have step {more : List Token} {failure : Option LexError} {c : Cursor} (k : Nat)
          (shows : Shows brace more failure (t :: ts) c) : documentParts nested (k + 1) c =
            (r c >>= fun x => documentParts nested k x.2 >>= fun y => pure (x.1 :: y.1, y.2)) := by
        rw [documentParts_apply, some_ c shows.current]
      cases passes with
      | error e all =>
        refine .error e fun more failure c n _ shows lt => ?_
        obtain ⟨k, rfl, -⟩ := some_token lt
        rw [step k shows, all more failure c shows]
        rfl
      | behind e all =>
        refine .through [e] fun more failure c n ended shows lt => ?_
        obtain ⟨k, rfl, lt⟩ := some_token lt
        refine ⟨k, by omega, ?_⟩
        rw [step k shows, all more failure c ended shows]
        cases Cursor.ofTokens failure more <;> rfl
      | before e us shorter inside₁ all =>
        refine (ih us.length shorter inside₁ rfl).cons e fun more failure c n shows lt => ?_
        obtain ⟨k, rfl, lt⟩ := some_token lt
        obtain ⟨c₁, part, shows₁⟩ := all more failure c shows
        rw [List.length_cons] at shorter
        refine ⟨k, c₁, by omega, shows₁, ?_⟩
        rw [step k shows, part]
        rfl

end Documents

section Sources

variable {a b : String} {o : ParseOptions} {parts : List Expr}

/-- The outcome for a document whose first parts are known. -/
def finish (before : List Expr) (r : Except ParseError (List Expr × Cursor)) :
    Except ParseError Expr := do
  let (es, c) ← r
  if c.current.isEof then return .document (before ++ es)
  else .error (.unexpectedToken c.current.text c.current.start)

/-- The end of a text behind the parts of a document. -/
def atEnd (es : List Expr) : Parser Expr := do
  if (← current).isEof then return .document es else fatal

theorem source_template (form : o.form = .template) (c : Cursor) :
    (source o c).map Prod.fst =
      finish [] (documentParts (nestedGoal o.namespaces o.maxDepth) c.remaining c) := by
  have body : source o c =
      (documentParts (nestedGoal o.namespaces o.maxDepth) c.remaining >>= atEnd) c := by
    simp only [source, form]
    rfl
  rw [body, bind_apply]
  rcases documentParts (nestedGoal o.namespaces o.maxDepth) c.remaining c with e | ⟨es, c₁⟩
  · rfl
  · have shown : current c₁ = .ok (c₁.current, c₁) := rfl
    change (atEnd es c₁).map Prod.fst = if c₁.current.isEof then _ else _
    rw [atEnd, bind_of_ok shown]
    by_cases ends : c₁.current.isEof = true
    · rw [if_pos ends, if_pos ends]
      rfl
    · rw [if_neg ends, if_neg ends]
      rfl

theorem parse_template (form : o.form = .template) (src : String) :
    parse src o = (Cursor.ofSource src.toList o.lexer >>= fun c =>
      finish [] (documentParts (nestedGoal o.namespaces o.maxDepth) c.remaining c)) := by
  unfold parse
  cases Cursor.ofSource src.toList o.lexer with
  | error e => rfl
  | ok c =>
    change ((source o c) >>= fun x => pure x.1) = finish [] _
    rw [← source_template form]
    cases source o c <;> rfl

theorem ofTokens_shows (brace : Token) (more : List Token) (failure : Option LexError)
    (ts : List Token) : ∃ c, Cursor.ofTokens failure (ts ++ brace :: more) = .ok c ∧
      Shows brace more failure ts c ∧ ts.length + more.length < c.remaining := by
  have enough {c : Cursor} (shows : Shows brace more failure ts c) :
      ts.length + more.length < c.remaining := by
    rw [Cursor.remaining, shows.length_eq]
    exact Nat.lt_succ_self _
  cases ts with
  | nil => exact ⟨⟨brace, more, failure⟩, rfl, ⟨rfl, rfl⟩, enough ⟨rfl, rfl⟩⟩
  | cons t ts =>
    exact ⟨⟨t, ts ++ brace :: more, failure⟩, rfl, ⟨rfl, rfl⟩, enough ⟨rfl, rfl⟩⟩

/-- A document further on has the same parts, or fails further on. -/
theorem finish_further {nested : Nested}
    (uniform : Uniform nested) {p : Position}
    {c c' : Cursor} (related : FurtherOn p c c') {k : Nat} (enough : c.remaining ≤ k)
    (before : List Expr) :
    (∃ more, finish [] (documentParts nested c.remaining c) = .ok (.document more) ∧
      finish before (documentParts nested k c') = .ok (.document (before ++ more))) ∨
    ∃ e, finish [] (documentParts nested c.remaining c) = .error e ∧
      finish before (documentParts nested k c') = .error (e.behind p) := by
  have keeps : (furtherOn p).Keeps False c.remaining _ _ :=
    documentParts_keeps (uniform _) (Nat.le_refl _) enough
  have agrees := keeps 0 c c' related (Nat.lt_succ_self _) False.elim
  rcases outcome : documentParts nested c.remaining c with e | ⟨more, c₁⟩
  · right
    rw [outcome] at agrees
    obtain ⟨e', outcome', rfl⟩ := agrees.eq_error
    exact ⟨e, rfl, by rw [outcome']; rfl⟩
  · rw [outcome] at agrees
    obtain ⟨c₁', outcome', related₁, -⟩ := agrees.eq_ok
    have related₁ : FurtherOn p c₁ c₁' := related₁
    have eof_eq : c₁'.current.isEof = c₁.current.isEof := by
      rw [Token.isEof, Token.isEof, related₁.current.kind]
    rw [outcome']
    by_cases ends : c₁.current.isEof = true
    · left
      refine ⟨more, if_pos ends, if_pos ?_⟩
      exact eof_eq.trans ends
    · right
      refine ⟨.unexpectedToken c₁.current.text c₁.current.start, if_neg ends, ?_⟩
      have ends' : ¬ c₁'.current.isEof = true := by rwa [eof_eq]
      refine (if_neg ends').trans ?_
      rw [ParseError.behind, related₁.text_eq, related₁.current.start]

theorem finish_append (es : List Expr) (r : Except ParseError (List Expr × Cursor)) :
    finish [] (r >>= fun x => pure (es ++ x.1, x.2)) = finish es r := by
  rcases r with e | ⟨fs, c⟩ <;> rfl

/-- With nothing but the end of the text left there are no parts left. -/
theorem finish_stop {nested : Nested} {stop : Token} (stops : stop.kind = .eof) {k : Nat}
    (some_ : 0 < k) (es : List Expr) :
    finish es (documentParts nested k ⟨stop, [], none⟩) = .ok (.document es) := by
  obtain ⟨k, rfl⟩ := Nat.exists_eq_add_one_of_ne_zero (Nat.ne_of_gt some_)
  have nothing : part? nested ⟨stop, [], none⟩ = none := by
    simp only [part?, stops]
  rw [documentParts_apply, nothing]
  refine (if_pos (Lexer.isEof_iff.2 stops)).trans ?_
  rw [List.append_nil]
  rfl

/-- Cursors on tokens and on the same tokens further on, unless there are none. -/
theorem ofTokens_further {p : Position} {ts later : List Token} {failure : Option LexError}
    (shifted : List.Forall₂ (Token.Shifted p) ts later)
    (stops : failure = none → ∃ us t, ts = us ++ [t] ∧ t.kind = .eof) :
    Ended later (failure.map (LexError.behind p)) ∧
    ((∃ e, Cursor.ofTokens failure ts = .error (.lex e) ∧
      Cursor.ofTokens (failure.map (LexError.behind p)) later = .error (.lex (e.behind p))) ∨
    ∃ c c', Cursor.ofTokens failure ts = .ok c ∧
      Cursor.ofTokens (failure.map (LexError.behind p)) later = .ok c' ∧
      FurtherOn p c c' ∧ c.remaining = later.length) := by
  cases shifted with
  | nil =>
    cases failure with
    | none =>
      obtain ⟨us, t, empty, -⟩ := stops rfl
      exact absurd empty.symm (List.append_ne_nil_of_right_ne_nil us (List.cons_ne_nil t []))
    | some e => exact ⟨.inr (Option.some_ne_none _), .inl ⟨e, rfl, rfl⟩⟩
  | @cons t t' ts later first others =>
    refine ⟨.inl (List.cons_ne_nil _ _), .inr ⟨_, _, rfl, rfl, ⟨.cons first others, rfl, ?_⟩, ?_⟩⟩
    · intro good
      obtain ⟨us, last, tokens, ends⟩ := stops good
      refine ⟨last, ?_, ends⟩
      rw [Cursor.tokens, tokens, List.getLast?_concat]
    · rw [Cursor.remaining, others.length_eq, List.length_cons]

/-- Behind a text that ends in an island, a text is parsed as it is alone: its parts follow those in
front, or it fails further on. -/
theorem parse_append (form : o.form = .template) (parsed : parse a o = .ok (.document parts))
    (ends : Lexer.EndsInIsland a.toList o.lexer) :
    ∃ p : Position, ∀ b : String,
      (∃ more, parse b o = .ok (.document more) ∧
        parse (a ++ b) o = .ok (.document (parts ++ more))) ∨
      ∃ e, parse b o = .error e ∧ parse (a ++ b) o = .error (e.behind p) := by
  have text : o.lexer.bareExpression = false := by
    simp [ParseOptions.lexer, form]
  obtain ⟨ts, brace, stop, p, ending⟩ := Lexer.exists_ending text ends
  have inside : Inside 0 ts := ⟨ending.inked, ending.islands.symm⟩
  have uniform : Uniform (nestedGoal o.namespaces o.maxDepth) :=
    fun P => nestedGoal_keeps (P := P) o.namespaces o.maxDepth
  obtain ⟨c, read, shows, lt⟩ := ofTokens_shows brace [stop] none ts
  rw [parse_template form, Cursor.ofSource_eq, ending.tokens, ending.failure, read] at parsed
  have parsed : finish [] (documentParts (nestedGoal o.namespaces o.maxDepth) c.remaining c) =
    .ok (.document parts) := parsed
  have alone : Ended [stop] none := .inl (List.cons_ne_nil _ _)
  cases documentParts_pass uniform ending.closes inside with
  | error e all =>
    rw [all [stop] none c _ alone shows lt] at parsed
    cases parsed
  | stuck t inked es all =>
    obtain ⟨c₁, outcome, rfl⟩ := all [stop] none c _ alone shows lt
    rw [outcome] at parsed
    have goes : ¬ c₁.current.isEof = true := fun h => inked (Lexer.isEof_iff.1 h)
    have parsed := (if_neg goes).symm.trans parsed
    cases parsed
  | through es all =>
    refine ⟨p, fun b => ?_⟩
    obtain rfl : es = parts := by
      obtain ⟨k, some_, outcome⟩ := all [stop] none c _ alone shows lt
      have outcome : documentParts (nestedGoal o.namespaces o.maxDepth) c.remaining c =
          (documentParts (nestedGoal o.namespaces o.maxDepth) k ⟨stop, [], none⟩ >>=
            fun x => pure (es ++ x.1, x.2)) := outcome
      rw [outcome, finish_append, finish_stop ending.stops some_] at parsed
      exact (Expr.document.inj (Except.ok.inj parsed))
    obtain ⟨later, tokens, shifted, failure⟩ := ending.before b.toList
    have stops := Lexer.tokens_end (Lexer.ofSource_ready b.toList o.lexer)
    obtain ⟨ended, cursors⟩ := ofTokens_further shifted stops
    generalize (Lexer.ofSource b.toList o.lexer).failure?.map (LexError.behind p) = failed
      at failure ended cursors
    obtain ⟨c', read', shows', lt'⟩ := ofTokens_shows brace later failed ts
    obtain ⟨k, enough, outcome⟩ := all later failed c' _ ended shows' lt'
    have joined : parse (a ++ b) o = (Cursor.ofTokens failed later >>= fun c =>
        finish es (documentParts (nestedGoal o.namespaces o.maxDepth) k c)) := by
      rw [parse_template form, Cursor.ofSource_eq, String.toList_append, tokens, failure, read']
      refine (congrArg (finish []) outcome).trans ?_
      rcases Cursor.ofTokens failed later with e | c₁
      · rfl
      · exact finish_append es _
    rw [joined, parse_template form, Cursor.ofSource_eq]
    rcases cursors with ⟨e, read, read'⟩ | ⟨c₁, c₁', read, read', related, left⟩
    · right
      exact ⟨.lex e, by rw [read]; rfl, by rw [read']; rfl⟩
    · rw [read, read']
      exact finish_further uniform related (left ▸ enough) es

end Sources

end Parser

end TemplateFormula
