import TemplateFormula.Proofs.Lexing.Progress
import TemplateFormula.Source.Cursor

/-!
# Reading a piece of text

A lexer reads tokens one after another; pieces that are read behind each other compose. A text that
is read up to its end gives a cursor on just these tokens.
-/

namespace TemplateFormula

namespace Lexer

/-- One pull after another delivers these tokens, none of them the end of the text. -/
inductive Pulls : Lexer → List Token → Lexer → Prop where
  | nil (l : Lexer) : Pulls l [] l
  | cons {l l₁ l₂ : Lexer} {t : Token} {ts : List Token} (h : l.nextToken = (.ok t, l₁))
      (ht : t.kind ≠ .eof) (more : Pulls l₁ ts l₂) : Pulls l (t :: ts) l₂

/-- Tokens of these kinds are pulled. -/
def Reads (l : Lexer) (ks : List TokenKind) (l' : Lexer) : Prop :=
  ∃ ts, l.Pulls ts l' ∧ ts.map (·.kind) = ks

variable {l l₁ l₂ : Lexer} {ts us : List Token} {ks js : List TokenKind}

theorem Pulls.append (first : Pulls l ts l₁) (last : Pulls l₁ us l₂) : Pulls l (ts ++ us) l₂ := by
  induction first with
  | nil l => exact last
  | cons h ht _ ih => exact .cons h ht (ih last)

theorem Pulls.ready (hl : l.Ready) (h : Pulls l ts l₁) : l₁.Ready := by
  induction h with
  | nil l => exact hl
  | @cons l l' _ t ts h _ _ ih =>
    have hready : l'.Ready := by simpa only [h] using nextToken_ready l
    exact ih hready

theorem Pulls.single {t : Token} (h : l.nextToken = (.ok t, l₁)) (ht : t.kind ≠ .eof) :
    l.Pulls [t] l₁ :=
  .cons h ht (.nil l₁)

theorem Pulls.last {t : Token} (h : l.Pulls (ts ++ [t]) l₂) :
    ∃ l₁, l.Pulls ts l₁ ∧ l₁.nextToken = (.ok t, l₂) := by
  induction ts generalizing l with
  | nil =>
    cases h with
    | cons next _ more =>
      cases more
      exact ⟨l, .nil l, next⟩
  | cons u ts ih =>
    cases h with
    | cons next goes more =>
      obtain ⟨l₁, pulled, last⟩ := ih more
      exact ⟨l₁, .cons next goes pulled, last⟩

theorem Pulls.inked (h : l.Pulls ts l₁) : ∀ t ∈ ts, t.kind ≠ .eof := by
  induction h with
  | nil l => exact List.forall_mem_nil _
  | cons _ ht _ ih => exact List.forall_mem_cons.2 ⟨ht, ih⟩

/-- The tokens from here on, the end of the text included if nothing fails before it. -/
def tokens (l : Lexer) : List Token := l.trace.1.map (·.1)

/-- The error that the tokens end with. -/
def failure? (l : Lexer) : Option LexError := l.trace.2.1

theorem length_tokens_le (l : Lexer) : l.tokens.length ≤ l.rest.length + 1 := by
  rw [tokens, List.length_map]
  exact length_run_le _ l

theorem tokens_error {e : LexError} (h : l.nextToken = (.error e, l₁)) :
    l.tokens = [] ∧ l.failure? = some e := by
  simp only [tokens, failure?, trace, run, h, List.map_nil, and_self]

theorem tokens_eof {t : Token} (h : l.nextToken = (.ok t, l₁)) (ht : t.kind = .eof) :
    l.tokens = [t] ∧ l.failure? = none := by
  simp only [tokens, failure?, trace, run, h, if_pos (isEof_iff.2 ht), List.map_cons, List.map_nil,
    and_self]

theorem tokens_next (hl : l.Ready) {t : Token} (h : l.nextToken = (.ok t, l₁))
    (ht : t.kind ≠ .eof) : l.tokens = t :: l₁.tokens ∧ l.failure? = l₁.failure? := by
  have hready : l₁.Ready := by simpa only [h] using nextToken_ready l
  have hlt := nextToken_lt hl h ht
  have goes : ¬ t.isEof = true := fun h => ht (isEof_iff.1 h)
  have rest := run_of_lt hready hlt (Nat.lt_succ_self _)
  simp only [tokens, failure?, trace, run, h, if_neg goes, rest, List.map_cons, and_self]

/-- The tokens begin with those that are pulled and go on from where they lead. -/
theorem tokens_of_pulls (hl : l.Ready) (h : Pulls l ts l₁) :
    l.tokens = ts ++ l₁.tokens ∧ l.failure? = l₁.failure? := by
  induction h with
  | nil l => exact ⟨rfl, rfl⟩
  | @cons l l' _ t ts h ht _ ih =>
    have hready : l'.Ready := by simpa only [h] using nextToken_ready l
    obtain ⟨tokens, failures⟩ := ih hready
    obtain ⟨first, failures'⟩ := tokens_next hl h ht
    exact ⟨by rw [first, tokens, List.cons_append], failures'.trans failures⟩

/-- Where nothing fails, the last token is the end of the text. -/
theorem tokens_end (hl : l.Ready) (h : l.failure? = none) :
    ∃ ts t, l.tokens = ts ++ [t] ∧ t.kind = .eof := by
  generalize hn : l.rest.length = n
  induction n using Nat.strongRecOn generalizing l with
  | ind n ih =>
    rcases hnext : l.nextToken with ⟨e | t, l'⟩
    · simp only [failure?, trace, run, hnext] at h
      cases h
    by_cases ht : t.kind = .eof
    · exact ⟨[], t, (tokens_eof hnext ht).1, ht⟩
    · obtain ⟨tokens, failures⟩ := tokens_next hl hnext ht
      have hready : l'.Ready := by simpa only [hnext] using nextToken_ready l
      have hlt := nextToken_lt hl hnext ht
      obtain ⟨ts, last, later, hlast⟩ := ih _ (hn ▸ hlt) hready (failures ▸ h) rfl
      exact ⟨t :: ts, last, by rw [tokens, later, List.cons_append], hlast⟩

/-- Where something fails, the end of the text is not among the tokens. -/
theorem inked_of_failure (h : l.failure? ≠ none) : ∀ t ∈ l.tokens, t.kind ≠ .eof := by
  have runs (n : Nat) (l : Lexer) (failed : (run n l).2.1 ≠ none) :
      ∀ t ∈ (run n l).1.map (·.1), t.kind ≠ .eof := by
    induction n generalizing l with
    | zero => exact fun _ h => absurd h List.not_mem_nil
    | succ n ih =>
      simp only [run] at failed ⊢
      generalize l.nextToken = r at failed ⊢
      obtain ⟨e | t, l'⟩ := r
      · exact fun _ h => absurd h List.not_mem_nil
      · dsimp only at failed ⊢
        by_cases ended : t.isEof = true
        · rw [if_pos ended] at failed
          exact absurd rfl failed
        · rw [if_neg ended] at failed ⊢
          exact List.forall_mem_cons.2 ⟨fun stops => ended (isEof_iff.2 stops), ih l' failed⟩
  exact runs _ l h

theorem Reads.nil (l : Lexer) : Reads l [] l := ⟨[], .nil l, rfl⟩

theorem Reads.cons {t : Token} (h : l.nextToken = (.ok t, l₁)) (ht : t.kind ≠ .eof)
    (more : Reads l₁ ks l₂) : Reads l (t.kind :: ks) l₂ := by
  obtain ⟨ts, pulls, kinds⟩ := more
  exact ⟨t :: ts, .cons h ht pulls, by rw [List.map_cons, kinds]⟩

theorem Reads.append (first : Reads l ks l₁) (last : Reads l₁ js l₂) : Reads l (ks ++ js) l₂ := by
  obtain ⟨ts, pulls, rfl⟩ := first
  obtain ⟨us, pulls', rfl⟩ := last
  exact ⟨ts ++ us, pulls.append pulls', List.map_append⟩

end Lexer

namespace Cursor

/-- The cursor stands on tokens of these kinds, with no error behind them. -/
def On (ks : List TokenKind) (c : Cursor) : Prop :=
  c.failure = none ∧ (c.current :: c.rest).map (·.kind) = ks

theorem ofSource_eq (source : List Char) (options : LexerOptions) :
    ofSource source options =
      ofTokens (Lexer.ofSource source options).failure?
        (Lexer.ofSource source options).tokens := rfl

theorem ofSource_on {source : List Char} {options : LexerOptions} {ks : List TokenKind}
    {l l' : Lexer} (h : (Lexer.ofSource source options).Reads ks l) {t : Token}
    (hend : l.nextToken = (.ok t, l')) (ht : t.kind = .eof) :
    ∃ c, Cursor.ofSource source options = .ok c ∧ c.On (ks ++ [.eof]) := by
  obtain ⟨ts, pulls, rfl⟩ := h
  obtain ⟨tokens, failures⟩ := Lexer.tokens_of_pulls (Lexer.ofSource_ready source options) pulls
  obtain ⟨last, fails⟩ := Lexer.tokens_eof hend ht
  rw [ofSource_eq, tokens, failures, last, fails]
  cases ts with
  | nil => exact ⟨⟨t, [], none⟩, rfl, rfl, by simp [ht]⟩
  | cons first ts => exact ⟨⟨first, ts ++ [t], none⟩, rfl, rfl, by simp [ht]⟩

end Cursor

end TemplateFormula
