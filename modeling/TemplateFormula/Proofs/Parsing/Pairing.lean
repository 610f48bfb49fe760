import TemplateFormula.Proofs.Parsing.Combinators
import Mathlib.Data.List.Forall2

/-!
# Parsers on related cursors

Two cursors that show the same tokens one after the other lead a parser to the same result, and
errors correspond. Tokens may stand at other places, and what is behind them may differ if no parser
gets there. A relation between cursors is kept up by every parser if reading single tokens keeps it
up, and is indexed by the number of islands that are open.
-/

namespace TemplateFormula

/-- Tokens that neither open nor close an island nor end the text. -/
def TokenKind.isInner : TokenKind → Bool
  | openIsland | closeIsland | eof => false
  | _ => true

namespace Parser

/-- Both cursors have moved on, or moving on has failed for both. -/
inductive Step (R : Cursor → Cursor → Prop) (F : ParseError → ParseError → Prop) (n : Nat) :
    Except ParseError Cursor → Except ParseError Cursor → Prop where
  | ok {c c' : Cursor} (related : R c c') (shorter : c.rest.length < n) :
      Step R F n (.ok c) (.ok c')
  | error {e e' : ParseError} (fails : F e e') : Step R F n (.error e) (.error e')

/-- Tokens that a parser does not tell apart. Outside of filters these are also the end of a text
and the brace behind an island with this text. -/
inductive Meets (exact : Prop) (d : Nat) (t t' : Token) : Prop where
  | same (kind : t'.kind = t.kind) (text : t'.text = t.text)
  | ends (rough : ¬ exact) (outside : d = 0) (stops : t.kind = .eof)
      (closes : t'.kind = .closeIsland)

structure Pairing where
  Related : Nat → Cursor → Cursor → Prop
  Fails : ParseError → ParseError → Prop
  /-- Nothing but tokens of the same kinds meet. -/
  exact : Prop
  meets : ∀ {d c c'}, Related d c c' → Meets exact d c.current c'.current
  unexpected : ∀ {d c c'}, Related d c c' → Fails (.unexpectedToken c.current.text c.current.start)
    (.unexpectedToken c'.current.text c'.current.start)
  runsOut : ∀ {d c c'}, Related d c c' →
    Fails (.tooDeep c.current.start) (.tooDeep c'.current.start)
  remaining_lt : ∀ {d c c'}, Related d c c' → c.rest.length < c'.remaining
  filter : ∀ {d c c'}, Related d c c' → c.current.kind = .openFilter → exact
  inner : ∀ {d c c'}, Related d c c' → c.current.kind.isInner →
    Step (Related d) Fails c.rest.length c.advance c'.advance
  opening : ∀ {d c c'}, Related d c c' → c.current.kind = .openIsland →
    Step (Related (d + 1)) Fails c.rest.length c.advance c'.advance
  closing : ∀ {d c c'}, Related (d + 1) c c' → c.current.kind = .closeIsland →
    Step (Related d) Fails c.rest.length c.advance c'.advance

theorem bind_apply {α β : Type} (p : Parser α) (f : α → Parser β) (c : Cursor) :
    (p >>= f) c =
      match p c with
      | .ok (a, c₁) => f a c₁
      | .error e => .error e := by
  simp only [bind, StateT.bind, Except.bind]
  rcases p c with _ | ⟨_, _⟩ <;> rfl

theorem attempt_apply {α : Type} (p : Parser (Option α)) (c : Cursor) :
    attempt p c =
      match p c with
      | .ok (some a, c₁) => .ok (some a, c₁)
      | .ok (none, _) => .ok (none, c)
      | .error e => .error e := by
  have start : (get : Parser Cursor) c = .ok (c, c) := rfl
  rw [attempt, bind_of_ok start, bind_apply]
  rcases p c with _ | ⟨_ | _, _⟩ <;> rfl

theorem kind_bind {β : Type} (f : TokenKind → Parser β) :
    kind >>= f = current >>= fun t => f t.kind := rfl

/-- The end of an island with these contents. -/
def closed (e : Expr) : Parser (Option Expr) := do
  if (← kind) == .closeIsland then
    advance
    return some (.island e)
  else fatal

/-- An island around a parser of its contents. -/
def enclosed (body : Parser Expr) : Parser (Option Expr) := do
  if (← kind) == .openIsland then
    advance
    closed (← body)
  else return none

namespace Pairing

variable (P : Pairing) {α β : Type}

/-- The outcomes are the same on related cursors, and the result has taken so many tokens. -/
inductive Agrees (d n : Nat) (v : α → Nat) :
    Except ParseError (α × Cursor) → Except ParseError (α × Cursor) → Prop where
  | ok (a : α) {c c' : Cursor} (related : P.Related d c c') (taken : c.rest.length + v a ≤ n) :
    Agrees d n v (.ok (a, c)) (.ok (a, c'))
  | error {e e' : ParseError} (fails : P.Fails e e') : Agrees d n v (.error e) (.error e')

/-- The parsers agree on related cursors with fewer tokens than a bound, where the current token may
be known to be an inner one. -/
def Holds (live : Prop) (n : Nat) (v : α → Nat) (p p' : Parser α) : Prop :=
  ∀ d c c', P.Related d c c' → c.rest.length < n → (live → c.current.kind.isInner) →
    P.Agrees d c.rest.length v (p c) (p' c')

abbrev Keeps (live : Prop) (n : Nat) (p p' : Parser α) : Prop := P.Holds live n (fun _ => 0) p p'

def taken : Option α → Nat
  | some _ => 1
  | none => 0

/-- The parsers agree, and take a token if they match. -/
abbrev Takes (live : Prop) (n : Nat) (p p' : Parser (Option α)) : Prop := P.Holds live n taken p p'

variable {P} {live : Prop} {n m m' : Nat} {v : β → Nat} {p p' : Parser α}

theorem Holds.vacuous (live : Prop) (v : α → Nat) (p p' : Parser α) : P.Holds live 0 v p p' :=
  fun _ _ _ _ small => absurd small (Nat.not_lt_zero _)

theorem Holds.weaken {v : α → Nat} {known : Prop} (h : P.Holds known n v p p')
    (less : known → live) : P.Holds live n v p p' :=
  fun d c c' related small inner => h d c c' related small fun k => inner (less k)

theorem Holds.narrow {v : α → Nat} (h : P.Holds live n v p p') (le : m ≤ n) :
    P.Holds live m v p p' :=
  fun d c c' related small inner => h d c c' related (Nat.lt_of_lt_of_le small le) inner

theorem Agrees.relax {v w : α → Nat} {d : Nat} {r r' : Except ParseError (α × Cursor)}
    (h : P.Agrees d n w r r') (le : ∀ a, v a ≤ w a) : P.Agrees d n v r r' := by
  cases h with
  | ok a related taken => exact .ok a related (Nat.le_trans (Nat.add_le_add_left (le a) _) taken)
  | error fails => exact .error fails

theorem Agrees.eq_ok {v : α → Nat} {d : Nat} {a : α} {c : Cursor}
    {r : Except ParseError (α × Cursor)} (h : P.Agrees d n v (.ok (a, c)) r) :
    ∃ c', r = .ok (a, c') ∧ P.Related d c c' ∧ c.rest.length + v a ≤ n := by
  cases h with
  | ok a related taken => exact ⟨_, rfl, related, taken⟩

theorem Agrees.of_ok {v : α → Nat} {d : Nat} {a : α} {c' : Cursor}
    {r : Except ParseError (α × Cursor)} (h : P.Agrees d n v r (.ok (a, c'))) :
    ∃ c, r = .ok (a, c) ∧ P.Related d c c' := by
  cases h with
  | ok a related _ => exact ⟨_, rfl, related⟩

theorem Agrees.eq_error {v : α → Nat} {d : Nat} {e : ParseError}
    {r : Except ParseError (α × Cursor)} (h : P.Agrees d n v (.error e) r) :
    ∃ e', r = .error e' ∧ P.Fails e e' := by
  cases h with
  | error fails => exact ⟨_, rfl, fails⟩

theorem Holds.relax {v w : α → Nat} (h : P.Holds live n w p p') (le : ∀ a, v a ≤ w a) :
    P.Holds live n v p p' :=
  fun d c c' related small inner => (h d c c' related small inner).relax le

theorem Takes.keeps {p p' : Parser (Option α)} (h : P.Takes live n p p') : P.Keeps live n p p' :=
  h.relax fun _ => Nat.zero_le _

theorem Holds.result (live : Prop) (n : Nat) {a : β} (zero : v a = 0) :
    P.Holds live n v (pure a) (pure a) := by
  intro d c c' related _ _
  exact .ok a related (by rw [zero]; exact Nat.le_refl _)

theorem Agrees.fails {d d' : Nat} {c c' : Cursor} (related : P.Related d c c') :
    P.Agrees d' n v (fatal c) (fatal c') :=
  .error (P.unexpected related)

theorem Holds.fails (live : Prop) (n : Nat) (v : β → Nat) : P.Holds live n v fatal fatal :=
  fun _ _ _ related _ _ => .fails related

theorem Holds.runsOut (live : Prop) (n : Nat) (v : β → Nat) :
    P.Holds live n v tooDeep tooDeep :=
  fun _ _ _ related _ _ => .error (P.runsOut related)

theorem Agrees.bind {d d' : Nat} {w : α → Nat} {c c' : Cursor} {f f' : α → Parser β}
    (first : P.Agrees d n w (p c) (p' c'))
    (next : ∀ a c₁ c₁', P.Related d c₁ c₁' → c₁.rest.length + w a ≤ n →
      P.Agrees d' c₁.rest.length (fun b => v b - w a) (f a c₁) (f' a c₁')) :
    P.Agrees d' n v ((p >>= f) c) ((p' >>= f') c') := by
  rw [bind_apply, bind_apply]
  generalize p c = r at first
  generalize p' c' = r' at first
  cases first with
  | error fails => exact .error fails
  | @ok a c₁ c₁' related taken =>
    have after := next a c₁ c₁' related taken
    dsimp only
    generalize f a c₁ = r at after
    generalize f' a c₁' = r' at after
    cases after with
    | error fails => exact .error fails
    | ok b related taken' => exact .ok b related (by omega)

theorem Holds.bind {w : α → Nat} {f f' : α → Parser β} (first : P.Holds live n w p p')
    (next : ∀ a, P.Holds False (n - w a) (fun b => v b - w a) (f a) (f' a)) :
    P.Holds live n v (p >>= f) (p' >>= f') := by
  intro d c c' related small inner
  apply (first d c c' related small inner).bind
  intro a c₁ c₁' related₁ taken
  exact next a d c₁ c₁' related₁ (by omega) False.elim

theorem Keeps.bind {f f' : α → Parser β} (first : P.Keeps live n p p')
    (next : ∀ a, P.Holds False n v (f a) (f' a)) : P.Holds live n v (p >>= f) (p' >>= f') :=
  Holds.bind first next

theorem Holds.bind_current {f f' : Token → Parser β}
    (same : ∀ t t' : Token, t'.kind = t.kind → t'.text = t.text →
      P.Holds t.kind.isInner n v (f t) (f' t'))
    (ends : ∀ t t' : Token, ¬ P.exact → t.kind = .eof → t'.kind = .closeIsland →
      P.Holds False n v (f t) (f' t')) :
    P.Holds live n v (current >>= f) (current >>= f') := by
  intro d c c' related small _
  cases P.meets related with
  | same kind text => exact same c.current c'.current kind text d c c' related small id
  | ends rough _ stops closes =>
    exact ends c.current c'.current rough stops closes d c c' related small False.elim

theorem kind_inside {d : Nat} {c c' : Cursor} (related : P.Related (d + 1) c c') :
    c'.current.kind = c.current.kind := by
  cases P.meets related with
  | same kind _ => exact kind
  | ends _ outside => exact absurd outside (Nat.succ_ne_zero d)

/-- What does not see the end of an island sees the same on both cursors. -/
theorem kind_blind {γ : Type} {d : Nat} {c c' : Cursor} (related : P.Related d c c')
    (f : TokenKind → γ) (blind : f .closeIsland = f .eof) :
    f c'.current.kind = f c.current.kind := by
  cases P.meets related with
  | same kind _ => rw [kind]
  | ends _ _ stops closes => rw [stops, closes, blind]

theorem Holds.bind_kind {f f' : TokenKind → Parser β} (blind : f' .closeIsland = f' .eof)
    (next : ∀ k : TokenKind, P.Holds k.isInner n v (f k) (f' k)) :
    P.Holds live n v (kind >>= f) (kind >>= f') := by
  intro d c c' related small _
  change P.Agrees d c.rest.length v (f c.current.kind c) (f' c'.current.kind c')
  rw [kind_blind related f' blind]
  exact next c.current.kind d c c' related small id

theorem Holds.bind_kind_of_exact {f f' : TokenKind → Parser β} (exact : P.exact)
    (next : ∀ k : TokenKind, P.Holds k.isInner n v (f k) (f' k)) :
    P.Holds live n v (kind >>= f) (kind >>= f') := by
  rw [kind_bind, kind_bind]
  apply Holds.bind_current
  · intro t t' kind_eq _
    rw [kind_eq]
    exact next t.kind
  · exact fun _ _ rough _ _ => absurd exact rough

theorem eq_of_beq_openFilter {k : TokenKind} (h : (k == .openFilter) = true) : k = .openFilter := by
  cases k <;> first | rfl | cases h

/-- A filter is parsed only where tokens of the same kinds meet. -/
theorem Holds.filter {q q' r r' : Parser β} (hit : P.exact → P.Holds True n v q q')
    (miss : P.Holds False n v r r') :
    P.Holds live n v (kind >>= fun k => if k == .openFilter then q else r)
      (kind >>= fun k => if k == .openFilter then q' else r') := by
  intro d c c' related small _
  change P.Agrees d c.rest.length v ((if c.current.kind == .openFilter then q else r) c)
    ((if c'.current.kind == .openFilter then q' else r') c')
  rw [kind_blind related (· == .openFilter) rfl]
  by_cases opens : (c.current.kind == .openFilter) = true
  · have here := eq_of_beq_openFilter opens
    rw [if_pos opens, if_pos opens]
    exact hit (P.filter related here) d c c' related small fun _ => by rw [here]; rfl
  · rw [if_neg opens, if_neg opens]
    exact miss d c c' related small False.elim

theorem isInner_of_isPunctuator {k : TokenKind} {symbol : String} (h : k.isPunctuator symbol) :
    k.isInner := by
  cases k with
  | punctuator s => rfl
  | _ => cases h

theorem Holds.bind_check {symbol : String} {f f' : Bool → Parser β}
    (hit : P.Holds True n v (f true) (f' true)) (miss : P.Holds False n v (f false) (f' false)) :
    P.Holds live n v (check symbol >>= f) (check symbol >>= f') := by
  intro d c c' related small _
  change P.Agrees d c.rest.length v (f (c.current.kind.isPunctuator symbol) c)
    (f' (c'.current.kind.isPunctuator symbol) c')
  rw [kind_blind related (·.isPunctuator symbol) rfl]
  cases h : c.current.kind.isPunctuator symbol with
  | true => exact hit d c c' related small fun _ => isInner_of_isPunctuator h
  | false => exact miss d c c' related small False.elim

theorem Holds.branch {symbol : String} {q q' r r' : Parser β} (hit : P.Holds True n v q q')
    (miss : P.Holds False n v r r') :
    P.Holds live n v (check symbol >>= fun b => if b then q else r)
      (check symbol >>= fun b => if b then q' else r') :=
  .bind_check hit miss

theorem Agrees.advances {d : Nat} {c c' : Cursor}
    (step : Step (P.Related d) P.Fails n c.advance c'.advance) :
    P.Agrees d n (fun _ => 1) (advance c) (advance c') := by
  unfold advance
  generalize c.advance = r at step
  generalize c'.advance = r' at step
  cases step with
  | ok related shorter => exact .ok PUnit.unit related shorter
  | error fails => exact .error fails

theorem Holds.advances (known : live) : P.Holds live n (fun _ => 1) advance advance :=
  fun _ _ _ related _ inner => .advances (P.inner related (inner known))

theorem Holds.take {f f' : PUnit → Parser β} (known : live)
    (next : P.Holds False (n - 1) (fun b => v b - 1) (f ⟨⟩) (f' ⟨⟩)) :
    P.Holds live n v (advance >>= f) (advance >>= f') :=
  Holds.bind (Holds.advances known) fun _ => next

/-- Bounds that come from the number of tokens left are above it. -/
theorem Holds.bind_remaining {f f' : Nat → Parser β}
    (next : ∀ s m m', s ≤ n → s ≤ m → s ≤ m' → P.Holds live s v (f m) (f' m')) :
    P.Holds live n v (remaining >>= f) (remaining >>= f') := by
  intro d c c' related small inner
  exact next (c.rest.length + 1) c.remaining c'.remaining small (Nat.le_refl _)
    (P.remaining_lt related) d c c' related (Nat.lt_succ_self _) inner

theorem Keeps.backtrack {p p' : Parser (Option α)} (h : P.Keeps live n p p') :
    P.Keeps live n (attempt p) (attempt p') := by
  intro d c c' related small inner
  have first := h d c c' related small inner
  rw [attempt_apply, attempt_apply]
  generalize p c = r at first
  generalize p' c' = r' at first
  cases first with
  | error fails => exact .error fails
  | ok a related' taken =>
    cases a with
    | none => exact .ok none related (Nat.le_refl _)
    | some a => exact .ok (some a) related' taken

theorem Holds.map {γ : Type} {w : α → Nat} {u : γ → Nat} {f : α → γ} (h : P.Holds live n w p p')
    (le : ∀ a, u (f a) ≤ w a) :
    P.Holds live n u (do return f (← p)) (do return f (← p')) :=
  Holds.bind h fun a => .result False _ (Nat.sub_eq_zero_of_le (le a))

theorem Keeps.required {p p' : Parser (Option α)} (h : P.Keeps live n p p') :
    P.Keeps live n (required p) (required p') := by
  apply Keeps.bind h
  intro a
  cases a with
  | none => exact .fails _ _ _
  | some a => exact .result _ _ rfl

theorem firstOf_holds {v : Option Expr → Nat} {ps ps' : List (Parser (Option Expr))}
    (zero : v none = 0) (each : List.Forall₂ (P.Holds False n v) ps ps') :
    P.Holds live n v (firstOf ps) (firstOf ps') := by
  refine Holds.weaken (?_ : P.Holds False n v (firstOf ps) (firstOf ps')) False.elim
  induction each with
  | nil => exact .result _ _ zero
  | cons first _ ih =>
    apply Holds.bind first
    intro a
    cases a with
    | none =>
      rw [zero]
      exact ih
    | some e => exact .result _ _ (Nat.sub_self _)

section Islands

theorem eq_of_beq_openIsland {k : TokenKind} (h : (k == .openIsland) = true) : k = .openIsland := by
  cases k <;> first | rfl | cases h

theorem eq_of_beq_closeIsland {k : TokenKind} (h : (k == .closeIsland) = true) :
    k = .closeIsland := by
  cases k <;> first | rfl | cases h

theorem closed_apply (e : Expr) (c : Cursor) :
    closed e c = (if c.current.kind == .closeIsland then do
      Parser.advance
      return some (.island e)
    else fatal : Parser (Option Expr)) c := rfl

theorem enclosed_apply (body : Parser Expr) (c : Cursor) :
    enclosed body c = (if c.current.kind == .openIsland then do
      Parser.advance
      closed (← body)
    else return none : Parser (Option Expr)) c := rfl

theorem closed_agrees {d : Nat} {c c' : Cursor} (related : P.Related (d + 1) c c') (e : Expr) :
    P.Agrees d c.rest.length taken (closed e c) (closed e c') := by
  rw [closed_apply, closed_apply, kind_inside related]
  by_cases closes : (c.current.kind == .closeIsland) = true
  · simp only [if_pos closes]
    have step := Agrees.advances (P.closing related (eq_of_beq_closeIsland closes))
    apply step.bind
    intro _ c₁ c₁' related₁ _
    exact .ok (some (Expr.island e)) related₁ (Nat.le_refl _)
  · simp only [if_neg closes]
    exact .fails related

/-- Inside an island one more island is open. -/
theorem enclosed_takes {body body' : Parser Expr} (inside : P.Keeps False (n - 1) body body') :
    P.Takes live n (enclosed body) (enclosed body') := by
  intro d c c' related small _
  rw [enclosed_apply, enclosed_apply, kind_blind related (· == .openIsland) rfl]
  by_cases opens : (c.current.kind == .openIsland) = true
  · simp only [if_pos opens]
    have step := Agrees.advances (P.opening related (eq_of_beq_openIsland opens))
    apply step.bind
    intro _ c₁ c₁' related₁ taken₁
    apply (inside (d + 1) c₁ c₁' related₁ (by omega) False.elim).bind
    intro e c₂ c₂' related₂ _
    exact (closed_agrees related₂ e).relax fun _ => Nat.sub_le _ 1
  · simp only [if_neg opens]
    exact .ok none related (Nat.le_refl _)

end Islands

section Loops

/-- Loops that take a token in every round agree if their rounds do, whatever bounds them. -/
theorem Holds.loopOn {ι : Type} {F F' : Nat → ι → Parser β} {s : Nat}
    (round : ∀ r m m', r < s → (∀ i, P.Holds False r v (F m i) (F' m' i)) →
      ∀ i, P.Holds False (r + 1) v (F (m + 1) i) (F' (m' + 1) i))
    (hm : s ≤ m) (hm' : s ≤ m') (i : ι) : P.Holds live s v (F m i) (F' m' i) := by
  have rounds (r : Nat) (le : r ≤ s) (m m' : Nat) (hm : r ≤ m) (hm' : r ≤ m') (i : ι) :
      P.Holds False r v (F m i) (F' m' i) := by
    induction r generalizing m m' i with
    | zero => exact .vacuous _ _ _ _
    | succ r ih =>
      obtain ⟨m, rfl⟩ := Nat.exists_eq_add_one_of_ne_zero (show m ≠ 0 by omega)
      obtain ⟨m', rfl⟩ := Nat.exists_eq_add_one_of_ne_zero (show m' ≠ 0 by omega)
      exact round r m m' le (ih (by omega) m m' (by omega) (by omega)) i
  exact (rounds s (Nat.le_refl s) m m' hm hm' i).weaken False.elim

theorem Holds.loop {F F' : Nat → Parser β} {s : Nat}
    (round : ∀ r m m', r < s → P.Holds False r v (F m) (F' m') →
      P.Holds False (r + 1) v (F (m + 1)) (F' (m' + 1)))
    (hm : s ≤ m) (hm' : s ≤ m') : P.Holds live s v (F m) (F' m') := by
  have rounds (r m m' : Nat) (lt : r < s) (ih : PUnit → P.Holds False r v (F m) (F' m'))
      (_ : PUnit) : P.Holds False (r + 1) v (F (m + 1)) (F' (m' + 1)) :=
    round r m m' lt (ih PUnit.unit)
  exact loopOn rounds hm hm' PUnit.unit

end Loops

end Pairing

end Parser

end TemplateFormula
