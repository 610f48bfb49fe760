import TemplateFormula.Proofs.Lexing.Reading
import TemplateFormula.Source.Parser

/-!
# Parsers on kinds of tokens

What a parser returns on tokens of given kinds and which of them it leaves, for the parsers that
others are made of. Where tokens stand plays no part as long as nothing fails.
-/

namespace TemplateFormula.Parser

/-- On a cursor with tokens of these kinds the parser succeeds with this result. -/
def Parses {α : Type} (p : Parser α) (ks : List TokenKind) (a : α) (ks' : List TokenKind) : Prop :=
  ∀ c : Cursor, c.On ks → ∃ c', p c = .ok (a, c') ∧ c'.On ks'

variable {α β : Type} {ks ks₁ ks₂ : List TokenKind} {k k' : TokenKind} {a : α} {b : β}

theorem parses_pure (a : α) (ks : List TokenKind) : Parses (pure a) ks a ks :=
  fun c hc => ⟨c, rfl, hc⟩

theorem bind_of_ok {p : Parser α} {f : α → Parser β} {c c' : Cursor} (h : p c = .ok (a, c')) :
    (p >>= f) c = f a c' := by
  simp only [bind, StateT.bind, Except.bind, h]

/-- An alternative that matches nothing leaves the cursor to the others. -/
theorem firstOf_none {p : Parser (Option Expr)} {c : Cursor} (h : p c = .ok (none, c))
    (ps : List (Parser (Option Expr))) : firstOf (p :: ps) c = firstOf ps c :=
  bind_of_ok h

theorem Parses.bind {p : Parser α} {f : α → Parser β} (hp : Parses p ks a ks₁)
    (hf : Parses (f a) ks₁ b ks₂) : Parses (p >>= f) ks b ks₂ := by
  intro c hc
  obtain ⟨c₁, h₁, hc₁⟩ := hp c hc
  obtain ⟨c₂, h₂, hc₂⟩ := hf c₁ hc₁
  exact ⟨c₂, (bind_of_ok h₁).trans h₂, hc₂⟩

theorem parses_bind_current {f : Token → Parser β}
    (h : ∀ t, t.kind = k → Parses (f t) (k :: ks) b ks₁) :
    Parses (current >>= f) (k :: ks) b ks₁ := by
  intro c hc
  have hk : c.current.kind = k := (List.cons.inj hc.2).1
  exact h c.current hk c hc

theorem parses_kind (k : TokenKind) (ks : List TokenKind) : Parses kind (k :: ks) k (k :: ks) :=
  parses_bind_current fun t ht => by
    rw [ht]
    exact parses_pure k _

theorem parses_check (symbol : String) (k : TokenKind) (ks : List TokenKind) :
    Parses (check symbol) (k :: ks) (k.isPunctuator symbol) (k :: ks) :=
  parses_bind_current fun t ht => by
    rw [Token.isPunctuator, ht]
    exact parses_pure _ _

theorem parses_advance (k k' : TokenKind) (ks : List TokenKind) :
    Parses advance (k :: k' :: ks) ⟨⟩ (k' :: ks) := by
  rintro ⟨t, ts, failure⟩ ⟨hfailure, hkinds⟩
  cases ts with
  | nil => simp at hkinds
  | cons t' ts =>
    refine ⟨⟨t', ts, failure⟩, rfl, hfailure, ?_⟩
    exact (List.cons.inj hkinds).2

theorem parses_advance_of_ne_nil (k : TokenKind) (h : ks ≠ []) :
    Parses advance (k :: ks) ⟨⟩ ks := by
  cases ks with
  | nil => exact absurd rfl h
  | cons k' ks => exact parses_advance k k' ks

theorem parses_remaining (ks : List TokenKind) : Parses remaining ks ks.length ks := by
  intro c hc
  refine ⟨c, ?_, hc⟩
  have hlength : c.remaining = ks.length := by
    rw [← hc.2]
    simp [Cursor.remaining]
  rw [← hlength]
  rfl

theorem Parses.required {p : Parser (Option α)} (h : Parses p ks (some a) ks₁) :
    Parses (required p) ks a ks₁ :=
  h.bind (parses_pure a ks₁)

theorem parses_expect {symbol : String} (h : k.isPunctuator symbol) :
    Parses (expect symbol) (k :: k' :: ks) ⟨⟩ (k' :: ks) := by
  refine (parses_check symbol k _).bind ?_
  rw [if_pos h]
  exact parses_advance k k' ks

theorem parses_expect_of_ne_nil {symbol : String} (h : k.isPunctuator symbol) (hks : ks ≠ []) :
    Parses (expect symbol) (k :: ks) ⟨⟩ ks := by
  cases ks with
  | nil => exact absurd rfl hks
  | cons k' ks => exact parses_expect h

theorem Parses.firstOf_head {p : Parser (Option Expr)} {ps : List (Parser (Option Expr))}
    {e : Expr} (h : Parses p ks (some e) ks₁) : Parses (firstOf (p :: ps)) ks (some e) ks₁ :=
  h.bind (parses_pure _ _)

theorem Parses.firstOf_tail {p : Parser (Option Expr)} {ps : List (Parser (Option Expr))}
    {r : Option Expr} (h : Parses p ks none ks₁) (hps : Parses (firstOf ps) ks₁ r ks₂) :
    Parses (firstOf (p :: ps)) ks r ks₂ :=
  h.bind hps

theorem Parses.attempt_some {p : Parser (Option α)} (h : Parses p ks (some a) ks₁) :
    Parses (attempt p) ks (some a) ks₁ := by
  intro c hc
  obtain ⟨c₁, h₁, hc₁⟩ := h c hc
  have hget : (get : Parser Cursor) c = .ok (c, c) := rfl
  exact ⟨c₁, (bind_of_ok hget).trans (bind_of_ok h₁), hc₁⟩

theorem Parses.attempt_none {p : Parser (Option α)} (ks₁ : List TokenKind)
    (h : Parses p ks none ks₁) :
    Parses (attempt p) ks none ks := by
  intro c hc
  obtain ⟨c₁, h₁, _⟩ := h c hc
  have hget : (get : Parser Cursor) c = .ok (c, c) := rfl
  exact ⟨c, (bind_of_ok hget).trans (bind_of_ok h₁), hc⟩

end TemplateFormula.Parser
