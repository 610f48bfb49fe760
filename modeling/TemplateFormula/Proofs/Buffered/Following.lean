import TemplateFormula.Proofs.Buffered.Parser
import TemplateFormula.Proofs.Parsing.Expressions

/-!
# A parser over a buffer follows a parser on a cursor

The buffer holds the tokens that have been pulled so far, so a place in it stands for a cursor on
all tokens of the text. A parser over a buffer follows one on cursors from a place if it has the same
outcome there, with the cursor that its own place stands for. It never takes a token back from the
buffer or asks for one behind the end of the text, and it leaves the depth as it was. Where it leads
to is told by a relation between the result and the place.
-/

namespace TemplateFormula

namespace Lexer

/-- What has been asked of a lexer: the tokens that it has delivered, the lexer behind them, and the
error of the last request if that has failed. Nothing is asked for behind the end of the text. -/
inductive Asked (l : Lexer) : List Token → Lexer → Option LexError → Prop
  | on {ts : List Token} {l' : Lexer} (pulled : l.Pulls ts l') : Asked l ts l' none
  | ended {ts : List Token} {t : Token} {l' l'' : Lexer} (pulled : l.Pulls ts l')
      (last : l'.nextToken = (.ok t, l'')) (stops : t.kind = .eof) : Asked l (ts ++ [t]) l'' none
  | failed {ts : List Token} {e : LexError} {l' l'' : Lexer} (pulled : l.Pulls ts l')
      (last : l'.nextToken = (.error e, l'')) : Asked l ts l'' (some e)

/-- The cursor at a place among the tokens of the text. -/
def cursorAt (l : Lexer) (i : Nat) : Cursor :=
  ⟨l.tokens.getD i .missing, l.tokens.drop (i + 1), l.failure?⟩

variable {l l' l'' : Lexer} {ts : List Token} {t : Token} {e : LexError} {i : Nat}

namespace Asked

theorem initial (ready : l.Ready) (h : l.Asked ts l' none) : ts <+: l.tokens := by
  cases h with
  | on pulled =>
    rw [(tokens_of_pulls ready pulled).1]
    exact List.prefix_append _ _
  | ended pulled last stops =>
    have whole := (tokens_of_pulls ready pulled).1
    rw [(tokens_eof last stops).1] at whole
    exact whole ▸ List.prefix_rfl

/-- The tokens that may still be asked for. -/
theorem length_le (ready : l.Ready) (h : l.Asked ts l' none) :
    l.tokens.length ≤ ts.length + (l'.rest.length + 1) := by
  cases h with
  | on pulled =>
    rw [(tokens_of_pulls ready pulled).1, List.length_append]
    exact Nat.add_le_add_left (length_tokens_le l') _
  | ended pulled last stops =>
    rw [(tokens_of_pulls ready pulled).1, (tokens_eof last stops).1]
    exact Nat.le_add_right _ _

/-- Where the text has not ended, all tokens have been pulled from the midst of it. -/
theorem pulls (h : l.Asked ts l' none) (goes : ∀ t ∈ ts.getLast?, t.kind ≠ .eof) :
    l.Pulls ts l' := by
  cases h with
  | on pulled => exact pulled
  | ended pulled last stops => exact absurd stops (goes _ List.getLast?_concat)

theorem next (h : l.Pulls ts l') (last : l'.nextToken = (.ok t, l'')) :
    l.Asked (ts ++ [t]) l'' none := by
  by_cases stops : t.kind = .eof
  · exact .ended h last stops
  · exact .on (h.append (.single last stops))

end Asked

theorem cursorAt_current (within : i < l.tokens.length) :
    (l.cursorAt i).current = l.tokens[i] := by
  rw [cursorAt, List.getD_eq_getElem?_getD, List.getElem?_eq_getElem within, Option.getD_some]

theorem cursorAt_advance (within : i + 1 < l.tokens.length) :
    (l.cursorAt i).advance = .ok (l.cursorAt (i + 1)) := by
  have next := cursorAt_current within
  simp only [cursorAt, Cursor.advance, List.drop_eq_getElem_cons within] at next ⊢
  rw [next]

theorem cursorAt_fails (all : l.tokens.length = i + 1) (failed : l.failure? = some e) :
    (l.cursorAt i).advance = .error (.lex e) := by
  simp only [cursorAt, Cursor.advance, List.drop_eq_nil_of_le (Nat.le_of_eq all), failed]

end Lexer

/-- The lexical error that an error is. -/
def ParseError.lex? : ParseError → Option LexError
  | lex e => some e
  | _ => none

/-- The states of a parser of a text: the tokens have been pulled one after another, the lexer is
right behind them, and the cursor is on one of them. -/
structure Buffer.Reached (l : Lexer) (b : Buffer) : Prop where
  asked : l.Asked b.tokens b.lexer none
  inside : b.cursor < b.tokens.length

namespace Buffer.Reached

variable {l : Lexer} {b : Buffer}

theorem initial (h : b.Reached l) (ready : l.Ready) : b.tokens <+: l.tokens := h.asked.initial ready

theorem length_le (h : b.Reached l) (ready : l.Ready) : b.tokens.length ≤ l.tokens.length :=
  (h.initial ready).length_le

theorem lt (h : b.Reached l) (ready : l.Ready) : b.cursor < l.tokens.length :=
  Nat.lt_of_lt_of_le h.inside (h.length_le ready)

theorem getElem?_cursor (h : b.Reached l) (ready : l.Ready) :
    l.tokens[b.cursor]? = b.tokens[b.cursor]? := by
  obtain ⟨ts, whole⟩ := h.initial ready
  rw [← whole, List.getElem?_append_left h.inside]

theorem here (h : b.Reached l) (ready : l.Ready) : b.here = (l.cursorAt b.cursor).current := by
  rw [Buffer.here, Lexer.cursorAt, List.getD_eq_getElem?_getD, List.getD_eq_getElem?_getD,
    h.getElem?_cursor ready]

theorem ahead (h : b.Reached l) (ready : l.Ready) : l.tokens.length - b.cursor ≤ b.ahead := by
  have le := h.asked.length_le ready
  have inside := h.inside
  rw [Buffer.ahead]
  omega

/-- Going back stays among the tokens that have been pulled. -/
theorem back (h : b.Reached l) {i : Nat} (le : i ≤ b.cursor) : { b with cursor := i }.Reached l :=
  ⟨h.asked, Nat.lt_of_le_of_lt le h.inside⟩

end Buffer.Reached

namespace Buffered

variable {α β : Type} {l : Lexer} {b : Buffer}

theorem bind_apply (q : Buffered α) (g : α → Buffered β) (b : Buffer) :
    (q >>= g) b =
      match q b with
      | .ok a b' => g a b'
      | .error e b' => .error e b' := by
  simp only [bind, EStateM.bind]
  rcases q b with ⟨a, b'⟩ | ⟨e, b'⟩ <;> rfl

/-- The outcomes are the same, and where there is a result it is so related to the place. -/
inductive Agrees (l : Lexer) (b : Buffer) (Q : α → Nat → Prop) :
    EStateM.Result ParseError Buffer α → Except ParseError (α × Cursor) → Prop
  | ok {a : α} {b' : Buffer} (reached : b'.Reached l) (kept : b.tokens <+: b'.tokens)
      (depth : b'.depth = b.depth) (post : Q a b'.cursor) :
      Agrees l b Q (.ok a b') (.ok (a, l.cursorAt b'.cursor))
  | error {e : ParseError} {b' : Buffer} (asked : l.Asked b'.tokens b'.lexer e.lex?)
      (kept : b.tokens <+: b'.tokens) : Agrees l b Q (.error e b') (.error e)

theorem Agrees.of_ok {Q : α → Nat → Prop} {a : α} {b' : Buffer}
    {r : Except ParseError (α × Cursor)} (h : Agrees l b Q (.ok a b') r) :
    b'.Reached l ∧ b.tokens <+: b'.tokens ∧ b'.depth = b.depth ∧ Q a b'.cursor ∧
      r = .ok (a, l.cursorAt b'.cursor) := by
  cases h with
  | ok reached kept depth post => exact ⟨reached, kept, depth, post, rfl⟩

theorem Agrees.of_error {Q : α → Nat → Prop} {e : ParseError} {b' : Buffer}
    {r : Except ParseError (α × Cursor)} (h : Agrees l b Q (.error e b') r) :
    l.Asked b'.tokens b'.lexer e.lex? ∧ b.tokens <+: b'.tokens ∧ r = .error e := by
  cases h with
  | error asked kept => exact ⟨asked, kept, rfl⟩

/-- From a place at a depth the first parser has the outcome of the second one, and leads where the
result says. -/
def Follows (l : Lexer) (d i : Nat) (Q : α → Nat → Prop) (q : Buffered α) (p : Parser α) : Prop :=
  l.Ready → ∀ b : Buffer, b.Reached l → b.depth = d → b.cursor = i →
    Agrees l b Q (q b) (p (l.cursorAt i))

/-- Moves on. -/
def Beyond (i : Nat) (_ : α) (j : Nat) : Prop := i < j

/-- Stays or moves on. -/
def Onward (i : Nat) (_ : α) (j : Nat) : Prop := i ≤ j

/-- Stays if there is no match, and moves on otherwise. -/
def Moves (i : Nat) : Option α → Nat → Prop
  | none, j => j = i
  | some _, j => i < j

/-- The token at a place is not the end of the text. -/
def Inked (l : Lexer) (i : Nat) : Prop := ∀ t, l.tokens[i]? = some t → t.kind ≠ .eof

theorem Inked.of_isPunctuator {i : Nat} {symbol : String}
    (known : (l.cursorAt i).current.isPunctuator symbol = true) : Inked l i := by
  intro t found ends
  obtain ⟨lt, rfl⟩ := List.getElem?_eq_some_iff.1 found
  rw [Lexer.cursorAt_current lt, Token.isPunctuator, ends] at known
  cases known

section Steps

theorem fill_inside (inside : b.cursor < b.tokens.length) : fill b = .ok ⟨⟩ b := by
  have zero : b.cursor + 1 - b.tokens.length = 0 := by omega
  rw [fill, zero]
  rfl

theorem fill_next {t : Token} {l' : Lexer} (all : b.cursor = b.tokens.length)
    (next : b.lexer.nextToken = (.ok t, l')) :
    fill b = .ok ⟨⟩ { b with lexer := l', tokens := b.tokens ++ [t] } := by
  have one : b.cursor + 1 - b.tokens.length = 1 := by omega
  simp only [fill, one, pulls, bind_apply, pull, next]
  rfl

theorem fill_fails {e : LexError} {l' : Lexer} (all : b.cursor = b.tokens.length)
    (next : b.lexer.nextToken = (.error e, l')) :
    fill b = .error (.lex e) { b with lexer := l' } := by
  have one : b.cursor + 1 - b.tokens.length = 1 := by omega
  simp only [fill, one, pulls, bind_apply, pull, next]

/-- Where the buffer has been read to its end, the next token is asked for. -/
theorem fill_end (ready : l.Ready) (pulled : l.Pulls b.tokens b.lexer)
    (all : b.cursor = b.tokens.length) :
    (∃ b' : Buffer, fill b = .ok ⟨⟩ b' ∧ b'.Reached l ∧ b.tokens <+: b'.tokens ∧
      b'.depth = b.depth ∧ b'.cursor = b.cursor) ∨
    (∃ e, ∃ b' : Buffer, fill b = .error (.lex e) b' ∧ l.Asked b'.tokens b'.lexer (some e) ∧
      b'.tokens = b.tokens ∧ l.tokens = b.tokens ∧ l.failure? = some e) := by
  obtain ⟨tokens, failures⟩ := Lexer.tokens_of_pulls ready pulled
  rcases next : b.lexer.nextToken with ⟨e | t, l'⟩
  · obtain ⟨none_, fails⟩ := Lexer.tokens_error next
    rw [none_, List.append_nil] at tokens
    exact .inr ⟨e, _, fill_fails all next, .failed pulled next, rfl, tokens, failures.trans fails⟩
  · have inside : b.cursor < (b.tokens ++ [t]).length := by
      rw [List.length_append, List.length_singleton, all]
      exact Nat.lt_succ_self _
    have reached : Buffer.Reached l { b with lexer := l', tokens := b.tokens ++ [t] } :=
      ⟨.next pulled next, inside⟩
    exact .inl ⟨_, fill_next all next, reached, List.prefix_append _ _, rfl, rfl⟩

end Steps

namespace Follows

variable {d i j : Nat} {P : α → Nat → Prop} {Q : β → Nat → Prop} {q : Buffered α} {p : Parser α}

theorem mono {Q : α → Nat → Prop} (h : Follows l d i P q p) (imp : ∀ a j, P a j → Q a j) :
    Follows l d i Q q p := by
  intro ready b reached depth place
  have outcome := h ready b reached depth place
  generalize q b = r at outcome
  generalize p (l.cursorAt i) = r' at outcome
  cases outcome with
  | ok reached kept depth post => exact .ok reached kept depth (imp _ _ post)
  | error asked kept => exact .error asked kept

/-- The place is one among the tokens. -/
theorem within (h : i < l.tokens.length → Follows l d i P q p) : Follows l d i P q p := by
  intro ready b reached depth place
  have lt : i < l.tokens.length := place ▸ reached.lt ready
  exact h lt ready b reached depth place

theorem result {a : α} (post : P a i) : Follows l d i P (pure a) (pure a) := by
  intro ready b reached depth place
  subst place
  exact .ok reached List.prefix_rfl rfl post

theorem fails : Follows l d i P fatal Parser.fatal := by
  intro ready b reached depth place
  subst place
  change Agrees l b P (.error (.unexpectedToken b.here.text b.here.start) b)
    (.error (.unexpectedToken _ _))
  rw [reached.here ready]
  exact .error reached.asked List.prefix_rfl

theorem bind {g : α → Buffered β} {f : α → Parser β} (first : Follows l d i P q p)
    (next : ∀ a j, P a j → Follows l d j Q (g a) (f a)) :
    Follows l d i Q (q >>= g) (p >>= f) := by
  intro ready b reached depth place
  rw [bind_apply, Parser.bind_apply]
  have outcome := first ready b reached depth place
  generalize q b = r at outcome
  generalize p (l.cursorAt i) = r' at outcome
  cases outcome with
  | error asked kept => exact .error asked kept
  | @ok a b₁ reached₁ kept depth₁ post =>
    have outcome := next a b₁.cursor post ready b₁ reached₁ (depth₁.trans depth) rfl
    dsimp only
    generalize g a b₁ = r at outcome
    generalize f a (l.cursorAt b₁.cursor) = r' at outcome
    cases outcome with
    | error asked kept' => exact .error asked (kept.trans kept')
    | ok reached₂ kept' depth₂ post =>
      exact .ok reached₂ (kept.trans kept') (depth₂.trans depth₁) post

theorem bind_current {g : Token → Buffered β} {f : Token → Parser β}
    (next : ∀ t, l.tokens[i]? = some t → Follows l d i Q (g t) (f t)) :
    Follows l d i Q (current >>= g) (Parser.current >>= f) := by
  intro ready b reached depth place
  change Agrees l b Q (g b.here b) (f (l.cursorAt i).current (l.cursorAt i))
  have lt : i < l.tokens.length := place ▸ reached.lt ready
  have here : b.here = (l.cursorAt i).current := place ▸ reached.here ready
  have known : l.tokens[i]? = some (l.cursorAt i).current := by
    rw [Lexer.cursorAt_current lt, List.getElem?_eq_getElem lt]
  rw [here]
  exact next _ known ready b reached depth place

theorem bind_kind {g : TokenKind → Buffered β} {f : TokenKind → Parser β}
    (next : ∀ k, (k ≠ .eof → Inked l i) → Follows l d i Q (g k) (f k)) :
    Follows l d i Q (kind >>= g) (Parser.kind >>= f) := by
  change Follows l d i Q (current >>= fun t => g t.kind) (Parser.current >>= fun t => f t.kind)
  apply bind_current
  intro t known
  apply next t.kind
  intro inked t' same
  rw [known] at same
  exact Option.some.inj same ▸ inked

theorem bind_ahead {g : Nat → Buffered β} {f : Nat → Parser β}
    (next : ∀ n m, l.tokens.length - i ≤ n → l.tokens.length - i ≤ m →
      Follows l d i Q (g n) (f m)) :
    Follows l d i Q (Buffered.ahead >>= g) (Parser.remaining >>= f) := by
  intro ready b reached depth place
  change Agrees l b Q (g b.ahead b) (f (l.cursorAt i).remaining (l.cursorAt i))
  have lt : i < l.tokens.length := place ▸ reached.lt ready
  have enough : l.tokens.length - i ≤ b.ahead := place ▸ reached.ahead ready
  have remaining : l.tokens.length - i ≤ (l.cursorAt i).remaining := by
    rw [Cursor.remaining, Lexer.cursorAt, List.length_drop]
    omega
  exact next _ _ enough remaining ready b reached depth place

/-- The place is known to a parser that goes back to it. -/
theorem bind_place {g : Nat → Buffered β} {p : Parser β} (next : Follows l d i Q (g i) p) :
    Follows l d i Q (place >>= g) p := by
  intro ready b reached depth place
  change Agrees l b Q (g b.cursor b) (p (l.cursorAt i))
  rw [place]
  exact next ready b reached depth place

theorem bind_check {symbol : String} {g : Bool → Buffered β} {f : Bool → Parser β}
    (next : ∀ c, (l.cursorAt i).current.isPunctuator symbol = c → Follows l d i Q (g c) (f c)) :
    Follows l d i Q (check symbol >>= g) (Parser.check symbol >>= f) := by
  intro ready b reached depth place
  change Agrees l b Q (g (b.here.isPunctuator symbol) b)
    (f ((l.cursorAt i).current.isPunctuator symbol) (l.cursorAt i))
  have here : b.here = (l.cursorAt i).current := place ▸ reached.here ready
  rw [here]
  exact next _ rfl ready b reached depth place

theorem branch {symbol : String} {q q' : Buffered β} {p p' : Parser β}
    (hit : Inked l i → Follows l d i Q q p) (miss : Follows l d i Q q' p') :
    Follows l d i Q (check symbol >>= fun c => if c then q else q')
      (Parser.check symbol >>= fun c => if c then p else p') := by
  apply bind_check
  intro c known
  cases c with
  | true => exact hit (.of_isPunctuator known)
  | false => exact miss

/-- A branch on a kind of token that does not end the text. -/
theorem branch_kind {c : TokenKind → Bool} {q q' : Buffered β} {p p' : Parser β}
    (goes : c .eof = false) (hit : Inked l i → Follows l d i Q q p) (miss : Follows l d i Q q' p') :
    Follows l d i Q (kind >>= fun k => if c k then q else q')
      (Parser.kind >>= fun k => if c k then p else p') := by
  apply bind_kind
  intro k inked
  cases known : c k with
  | true =>
    apply hit
    apply inked
    rintro rfl
    exact Bool.false_ne_true (goes.symm.trans known)
  | false => exact miss

/-- A look at the token that the second parser does not take. -/
theorem peek {symbol : String} {q q' : Buffered β} {p : Parser β}
    (hit : (l.cursorAt i).current.isPunctuator symbol = true → Follows l d i Q q p)
    (miss : (l.cursorAt i).current.isPunctuator symbol = false → Follows l d i Q q' p) :
    Follows l d i Q (check symbol >>= fun c => if c then q else q') p := by
  intro ready b reached depth place
  change Agrees l b Q ((if b.here.isPunctuator symbol then q else q') b) (p (l.cursorAt i))
  have here : b.here = (l.cursorAt i).current := place ▸ reached.here ready
  rw [here]
  cases known : (l.cursorAt i).current.isPunctuator symbol with
  | true => exact hit known ready b reached depth place
  | false => exact miss known ready b reached depth place

/-- Moving on asks for a token only where the text has not ended. -/
theorem step (inked : Inked l i) :
    Follows l d i (fun _ j => j = i + 1) advance Parser.advance := by
  intro ready b reached depth place
  subst place
  change Agrees l b _ (fill { b with cursor := b.cursor + 1 })
    ((l.cursorAt b.cursor).advance.map fun c => (⟨⟩, c))
  have inside := reached.inside
  by_cases buffered : b.cursor + 1 < b.tokens.length
  · have lt := Nat.lt_of_lt_of_le buffered (reached.length_le ready)
    rw [fill_inside buffered, Lexer.cursorAt_advance lt]
    exact .ok ⟨reached.asked, buffered⟩ List.prefix_rfl rfl rfl
  · have all : b.cursor + 1 = b.tokens.length := by omega
    have pulled : l.Pulls b.tokens b.lexer := by
      apply reached.asked.pulls
      intro t last
      apply inked t
      rw [reached.getElem?_cursor ready, ← last, List.getLast?_eq_getElem?, ← all,
        Nat.add_sub_cancel]
    rcases fill_end (b := { b with cursor := b.cursor + 1 }) ready pulled all with
      ⟨b', filled, reached', kept, depth', place'⟩ | ⟨e, b', failed, asked, same, tokens, fails⟩
    · have lt : b.cursor + 1 < l.tokens.length := by
        have lt := reached'.lt ready
        rwa [place'] at lt
      rw [filled, Lexer.cursorAt_advance lt]
      have outcome : Agrees l b (fun _ j => j = b.cursor + 1) (.ok PUnit.unit b')
          (.ok (PUnit.unit, l.cursorAt b'.cursor)) := .ok reached' kept depth' place'
      rwa [place'] at outcome
    · have whole : l.tokens.length = b.cursor + 1 := by
        rw [tokens]
        exact all.symm
      rw [failed, Lexer.cursorAt_fails whole fails]
      exact .error asked (same ▸ List.prefix_rfl)

theorem take {g : PUnit → Buffered β} {f : PUnit → Parser β} (inked : Inked l i)
    (next : Follows l d (i + 1) Q (g ⟨⟩) (f ⟨⟩)) :
    Follows l d i Q (advance >>= g) (Parser.advance >>= f) := by
  apply (step inked).bind
  intro _ j place
  subst place
  exact next

theorem map {g : α → β} (h : Follows l d i P q p) (post : ∀ a j, P a j → Q (g a) j) :
    Follows l d i Q (do return g (← q)) (do return g (← p)) :=
  h.bind fun a j known => .result (post a j known)

theorem expects (symbol : String) :
    Follows l d i (Beyond i) (expect symbol) (Parser.expect symbol) := by
  apply branch
  · intro inked
    apply (step inked).mono
    intro _ j place
    exact Nat.lt_of_lt_of_eq (Nat.lt_succ_self i) place.symm
  · exact .fails

theorem required {q : Buffered (Option α)} {p : Parser (Option α)}
    (h : Follows l d i (Moves i) q p) :
    Follows l d i (Beyond i) (Buffered.required q) (Parser.required p) := by
  apply h.bind
  intro a j moved
  cases a with
  | none => exact .fails
  | some a => exact .result moved

theorem firstOf {qs : List (Buffered (Option Expr))} {ps : List (Parser (Option Expr))}
    (each : List.Forall₂ (Follows l d i (Moves i)) qs ps) :
    Follows l d i (Moves i) (Buffered.firstOf qs) (Parser.firstOf ps) := by
  induction each with
  | nil => exact .result rfl
  | cons first _ ih =>
    apply first.bind
    intro e j moved
    cases e with
    | some e => exact .result moved
    | none =>
      obtain rfl : j = i := moved
      exact ih

/-- A loop of which every round moves on takes no more rounds than there are tokens ahead, so more
of them make no difference. -/
theorem rounds {γ : Type} {R : Nat → α → Nat → Prop} {g : Nat → γ → Buffered α}
    {f : Nat → γ → Parser α}
    (round : ∀ n m j s, i ≤ j → (∀ k s', j < k → Follows l d k (R k) (g n s') (f m s')) →
      Follows l d j (R j) (g (n + 1) s) (f (m + 1) s))
    {n m : Nat} (long : l.tokens.length - i ≤ n) (long' : l.tokens.length - i ≤ m) (s : γ) :
    Follows l d i (R i) (g n s) (f m s) := by
  have from_here (n : Nat) : ∀ m j s, i ≤ j → l.tokens.length - j ≤ n →
      l.tokens.length - j ≤ m → Follows l d j (R j) (g n s) (f m s) := by
    induction n with
    | zero =>
      intro m j s _ none_ _
      exact .within fun lt => by omega
    | succ n ih =>
      intro m j s passed few few'
      cases m with
      | zero => exact .within fun lt => by omega
      | succ m =>
        apply round n m j s passed
        intro k s' further
        exact ih m k s' (by omega) (by omega) (by omega)
  exact from_here n m i s (Nat.le_refl i) long long'

theorem loop {R : Nat → α → Nat → Prop} {g : Nat → Buffered α} {f : Nat → Parser α}
    (round : ∀ n m j, i ≤ j → (∀ k, j < k → Follows l d k (R k) (g n) (f m)) →
      Follows l d j (R j) (g (n + 1)) (f (m + 1)))
    {n m : Nat} (long : l.tokens.length - i ≤ n) (long' : l.tokens.length - i ≤ m) :
    Follows l d i (R i) (g n) (f m) :=
  rounds (g := fun n (_ : Unit) => g n) (f := fun m _ => f m)
    (fun n m j _ passed next => round n m j passed fun k further => next k () further) long long' ()

/-- A level further down is left in the end, whatever the outcome. -/
theorem nest {maxDepth : Nat} (deep : d < maxDepth) (h : Follows l (d + 1) i P q p) :
    Follows l d i P (Buffered.nest maxDepth q) p := by
  intro ready b reached depth place
  have levels : ¬ maxDepth < b.depth + 1 := by omega
  simp only [Buffered.nest, if_neg levels]
  have outcome := h ready { b with depth := b.depth + 1 } ⟨reached.asked, reached.inside⟩
    (congrArg (· + 1) depth) place
  generalize q { b with depth := b.depth + 1 } = r at outcome
  generalize p (l.cursorAt i) = r' at outcome
  cases outcome with
  | error asked kept => exact .error asked kept
  | @ok a b' reached' kept depth' post =>
    have back : b'.depth - 1 = b.depth := by rw [depth', Nat.add_sub_cancel]
    have outside : Buffer.Reached l { b' with depth := b'.depth - 1 } :=
      ⟨reached'.asked, reached'.inside⟩
    exact .ok outside kept back post

theorem nest_tooDeep {maxDepth : Nat} (deep : maxDepth ≤ d) :
    Follows l d i P (Buffered.nest maxDepth q) Parser.tooDeep := by
  intro ready b reached depth place
  subst place
  have levels : maxDepth < b.depth + 1 := by omega
  have same : Buffer.here { b with depth := b.depth + 1 } = (l.cursorAt b.cursor).current :=
    reached.here ready
  simp only [Buffered.nest, if_pos levels]
  change Agrees l b P (.error (.tooDeep (Buffer.here _).start) _) (.error (.tooDeep _))
  rw [same]
  exact .error reached.asked List.prefix_rfl

end Follows

end Buffered

/-- Goes back to a cursor if there is no match. -/
def Parser.orBack {α : Type} (c : Cursor) (p : Parser (Option α)) : Parser (Option α) := do
  match ← p with
  | some a => return some a
  | none => do
    set c
    return none

namespace Parser

variable {α β : Type}

theorem orBack_bind (c : Cursor) (p : Parser α) (f : α → Parser (Option β)) :
    orBack c (p >>= f) = p >>= fun a => orBack c (f a) := by
  rw [orBack, bind_assoc]
  rfl

theorem orBack_map (c : Cursor) (p : Parser (Option α)) (f : α → β) :
    orBack c (do return (← p).map f) = do return (← orBack c p).map f := by
  rw [orBack_bind, orBack, bind_assoc]
  apply congrArg
  funext a
  cases a <;> rfl

theorem orBack_apply {p : Parser (Option α)} {c₁ c₂ : Cursor} (h : p c₁ = .ok (none, c₂))
    (c : Cursor) : orBack c p c₁ = .ok (none, c) := by
  rw [orBack, bind_of_ok h]
  rfl

end Parser

namespace Buffered.Follows

variable {α : Type} {l : Lexer} {d i j : Nat} {P : Option α → Nat → Prop}
  {q : Buffered (Option α)} {p : Parser (Option α)}

theorem attempt (h : Follows l d i P q (Parser.orBack (l.cursorAt i) p)) :
    Follows l d i P q (Parser.attempt p) := h

/-- Going back to a place that was passed. -/
theorem back (fails : p (l.cursorAt j) = .ok (none, l.cursorAt j)) (passed : i ≤ j)
    (post : P none i) :
    Follows l d j P (do goBack i; return none) (Parser.orBack (l.cursorAt i) p) := by
  intro ready b reached depth place
  subst place
  rw [Parser.orBack_apply fails]
  have reached' := reached.back passed
  exact .ok reached' List.prefix_rfl rfl post

theorem back_step (fails : p (l.cursorAt (i + 1)) = .ok (none, l.cursorAt (i + 1)))
    (post : P none i) :
    Follows l d (i + 1) P (do stepBack; return none) (Parser.orBack (l.cursorAt i) p) := by
  intro ready b reached depth place
  have before : b.cursor - 1 = i := by rw [place, Nat.add_sub_cancel]
  rw [Parser.orBack_apply fails]
  change Agrees l b P (.ok none { b with cursor := b.cursor - 1 }) _
  rw [before]
  have passed : i ≤ b.cursor := by omega
  have reached' := reached.back passed
  exact .ok reached' List.prefix_rfl rfl post

/-- Where nothing has been passed, there is nowhere to go back to. -/
theorem stay (post : P none i) :
    Follows l d i P (pure none) (Parser.orBack (l.cursorAt i) (pure none)) := by
  intro ready b reached depth place
  subst place
  exact .ok reached List.prefix_rfl rfl post

end Buffered.Follows

end TemplateFormula
