import TemplateFormula.Proofs.Parsing.Joining

/-!
# Spending depth

Depth is spent on nested goals only, and a token stands in front of each. So a parser that nests
with more depth has the same outcome, unless it runs out of the depth that it has; and that takes as
many tokens as there is depth. This is passed on from a parser for nested goals to the operands made
with it, one level of tokens further.
-/

namespace TemplateFormula

/-- The tokens end with the end of the text, or with an error of the lexer. -/
def Cursor.Closed (c : Cursor) : Prop :=
  c.failure = none → ∃ t, c.tokens.getLast? = some t ∧ t.kind = .eof

namespace Parser

variable {α β : Type}

/-- The second outcome is the first one, which has taken so many tokens; or the first has run out of
depth, and so many tokens were left. -/
inductive Outlasts (n : Nat) (v : α → Nat) (c : Cursor) :
    Except ParseError (α × Cursor) → Except ParseError (α × Cursor) → Prop where
  | ok (a : α) {c₁ : Cursor} (closed : c₁.Closed) (taken : c₁.rest.length + v a ≤ c.rest.length) :
      Outlasts n v c (.ok (a, c₁)) (.ok (a, c₁))
  | error {e : ParseError} (other : ∀ p, e ≠ .tooDeep p) : Outlasts n v c (.error e) (.error e)
  | runsOut (p : Position) (left : n ≤ c.rest.length) (r : Except ParseError (α × Cursor)) :
      Outlasts n v c (.error (.tooDeep p)) r

/-- The second parser outlasts the first, where the current token may be known to be none that ends
the text. -/
def Spends (live : Prop) (n : Nat) (v : α → Nat) (p p' : Parser α) : Prop :=
  ∀ c : Cursor, c.Closed → (live → c.current.kind ≠ .eof) → Outlasts n v c (p c) (p' c)

/-- The same where nothing need be taken. -/
abbrev Lasts (live : Prop) (n : Nat) (p p' : Parser α) : Prop := Spends live n (fun _ => 0) p p'

/-- The same where a token is taken by what matches. -/
abbrev Uses (live : Prop) (n : Nat) (p p' : Parser (Option α)) : Prop :=
  Spends live n Pairing.taken p p'

variable {live : Prop} {n m : Nat} {v w : α → Nat} {u : β → Nat} {p p' : Parser α}

namespace Spends

theorem weaken {known : Prop} (h : Spends known n v p p') (less : known → live) :
    Spends live n v p p' :=
  fun c closed inked => h c closed fun k => inked (less k)

/-- Fewer tokens are enough to run out, and fewer need be taken. -/
theorem relax (h : Spends live n w p p') (fewer : m ≤ n) (less : ∀ a, v a ≤ w a) :
    Spends live m v p p' := by
  intro c closed inked
  have outcome := h c closed inked
  generalize p c = r at outcome
  generalize p' c = r' at outcome
  cases outcome with
  | ok a closed taken =>
    exact .ok a closed (Nat.le_trans (Nat.add_le_add_left (less a) _) taken)
  | error other => exact .error other
  | runsOut p left => exact .runsOut p (Nat.le_trans fewer left) _

theorem lasts (h : Spends live n w p p') (fewer : m ≤ n) : Lasts live m p p' :=
  h.relax fewer fun _ => Nat.zero_le _

theorem result {a : α} (zero : v a = 0) : Spends live n v (pure a) (pure a) :=
  fun c closed _ => .ok a closed (by rw [zero]; exact Nat.le_refl _)

theorem fails : Spends live n v fatal fatal :=
  fun _ _ _ => .error fun _ => ParseError.noConfusion

theorem bind {f f' : α → Parser β} (first : Spends live n w p p')
    (next : ∀ a, Spends False (n - w a) (fun b => u b - w a) (f a) (f' a)) :
    Spends live n u (p >>= f) (p' >>= f') := by
  intro c closed inked
  rw [bind_apply, bind_apply]
  have outcome := first c closed inked
  generalize p c = r at outcome
  generalize p' c = r' at outcome
  cases outcome with
  | error other => exact .error other
  | runsOut p left => exact .runsOut p left _
  | @ok a c₁ closed₁ taken =>
    have outcome := next a c₁ closed₁ False.elim
    dsimp only
    generalize f a c₁ = r at outcome
    generalize f' a c₁ = r' at outcome
    cases outcome with
    | error other => exact .error other
    | runsOut p left => exact .runsOut p (by omega) _
    | ok b closed₂ taken₂ => exact .ok b closed₂ (by omega)

theorem andThen {f f' : α → Parser β} (first : Lasts live n p p')
    (next : ∀ a, Spends False n u (f a) (f' a)) : Spends live n u (p >>= f) (p' >>= f') :=
  .bind first next

theorem map {f : α → β} (h : Spends live n w p p') (le : ∀ a, u (f a) ≤ w a) :
    Spends live n u (do return f (← p)) (do return f (← p')) :=
  h.bind fun a => .result (Nat.sub_eq_zero_of_le (le a))

theorem bind_current {f f' : Token → Parser β}
    (next : ∀ t : Token, Spends (t.kind ≠ .eof) n u (f t) (f' t)) :
    Spends live n u (current >>= f) (current >>= f') :=
  fun c closed _ => next c.current c closed id

theorem bind_kind {f f' : TokenKind → Parser β}
    (next : ∀ k : TokenKind, Spends (k ≠ .eof) n u (f k) (f' k)) :
    Spends live n u (kind >>= f) (kind >>= f') :=
  .bind_current fun t => next t.kind

theorem bind_check {symbol : String} {f f' : Bool → Parser β}
    (next : ∀ b, Spends live n u (f b) (f' b)) :
    Spends live n u (check symbol >>= f) (check symbol >>= f') :=
  fun c closed inked => next (c.current.isPunctuator symbol) c closed inked

theorem branch {symbol : String} {q q' r r' : Parser β} (hit : Spends True n u q q')
    (miss : Spends False n u r r') :
    Spends live n u (check symbol >>= fun b => if b then q else r)
      (check symbol >>= fun b => if b then q' else r') := by
  intro c closed _
  change Outlasts n u c ((if c.current.isPunctuator symbol then q else r) c)
    ((if c.current.isPunctuator symbol then q' else r') c)
  by_cases known : c.current.isPunctuator symbol = true
  · rw [if_pos known, if_pos known]
    refine hit c closed fun _ ends => ?_
    rw [Token.isPunctuator, ends] at known
    cases known
  · rw [if_neg known, if_neg known]
    exact miss c closed False.elim

theorem bind_remaining {f f' : Nat → Parser β} (next : ∀ m, Spends live n u (f m) (f' m)) :
    Spends live n u (remaining >>= f) (remaining >>= f') :=
  fun c closed inked => next c.remaining c closed inked

end Spends

/-- Moving on takes a token, since another stands behind one that does not end the text. -/
theorem advance_uses (known : live) : Spends live n (fun _ => 1) advance advance := by
  intro c closed inked
  obtain ⟨t, ts, failure⟩ := c
  cases ts with
  | cons t' ts => exact .ok _ closed (Nat.le_refl _)
  | nil =>
    cases failure with
    | some e => exact .error fun _ => ParseError.noConfusion
    | none =>
      obtain ⟨last, only, ends⟩ := closed rfl
      cases only
      exact absurd ends (inked known)

namespace Spends

theorem take {f f' : PUnit → Parser β} (known : live)
    (next : Spends False (n - 1) (fun b => u b - 1) (f ⟨⟩) (f' ⟨⟩)) :
    Spends live n u (advance >>= f) (advance >>= f') :=
  .bind (advance_uses known) fun _ => next

theorem required {p p' : Parser (Option α)} (h : Lasts live n p p') :
    Lasts live n (required p) (required p') := by
  refine h.andThen fun a => ?_
  cases a with
  | none => exact .fails
  | some a => exact .result rfl

theorem firstOf {v : Option Expr → Nat} {ps ps' : List (Parser (Option Expr))}
    (zero : v none = 0) (each : List.Forall₂ (Spends False n v) ps ps') :
    Spends live n v (firstOf ps) (firstOf ps') := by
  refine Spends.weaken (?_ : Spends False n v _ _) False.elim
  induction each with
  | nil => exact .result zero
  | cons first _ ih =>
    refine .bind first fun a => ?_
    cases a with
    | none =>
      rw [zero]
      exact ih
    | some e => exact .result (Nat.sub_self _)

theorem attempt {p p' : Parser (Option α)} (h : Uses live n p p') :
    Uses live n (attempt p) (attempt p') := by
  intro c closed inked
  have outcome := h c closed inked
  rw [attempt_apply, attempt_apply]
  generalize p c = r at outcome
  generalize p' c = r' at outcome
  cases outcome with
  | error other => exact .error other
  | runsOut p left => exact .runsOut p left _
  | ok a closed' taken =>
    cases a with
    | none => exact .ok none closed (Nat.le_refl _)
    | some a => exact .ok (some a) closed' taken

end Spends

section Leaves

theorem literal_uses : Uses live n literal literal := by
  refine .bind_kind fun k => ?_
  cases k with
  | boolean b => exact .take TokenKind.noConfusion (.result rfl)
  | null => exact .take TokenKind.noConfusion (.result rfl)
  | undefined => exact .take TokenKind.noConfusion (.result rfl)
  | _ => exact .result rfl

theorem number_uses : Uses live n number number := by
  refine .bind_kind fun k => ?_
  cases k with
  | number x => exact .take TokenKind.noConfusion (.result rfl)
  | _ => exact .result rfl

theorem text_uses : Uses live n text text := by
  refine .bind_kind fun k => ?_
  cases k with
  | text s => exact .take TokenKind.noConfusion (.result rfl)
  | _ => exact .result rfl

theorem identifier_uses : Uses live n identifier identifier := by
  refine .bind_current fun t => ?_
  cases h : t.kind with
  | identifier name => exact .take TokenKind.noConfusion (.result rfl)
  | boolean b => exact .take TokenKind.noConfusion (.result rfl)
  | null => exact .take TokenKind.noConfusion (.result rfl)
  | undefined => exact .take TokenKind.noConfusion (.result rfl)
  | _ => exact .result rfl

theorem expect_lasts (symbol : String) : Lasts live n (expect symbol) (expect symbol) :=
  .branch ((advance_uses trivial).lasts (Nat.le_refl n)) .fails

end Leaves

section Lists

variable {nested nested' : Nested} (deeper : ∀ g live, Lasts live n (nested g) (nested' g))
include deeper

theorem expression_lasts : Lasts live n (expression nested) (expression nested') :=
  (deeper .expression live).required

theorem members_lasts (closing : String) (m : Nat) :
    Lasts live n (members nested closing m) (members nested' closing m) := by
  induction m generalizing live with
  | zero => exact .result rfl
  | succ m ih =>
    refine (expression_lasts deeper).andThen fun e => .branch ?_ (.branch ?_ .fails)
    · exact .take trivial ((ih.lasts (Nat.sub_le n 1)).map fun _ => Nat.le_refl _)
    · exact .take trivial (.result rfl)

theorem list_uses (opening closing : String) :
    Uses live (n + 1) (list nested opening closing) (list nested' opening closing) := by
  refine .branch (.take trivial (.branch ?_ ?_)) (.result rfl)
  · exact .take trivial (.result rfl)
  · exact .bind_remaining fun m => (members_lasts deeper closing m).map fun _ => Nat.le_refl _

theorem array_uses : Uses live (n + 1) (array nested) (array nested') :=
  (list_uses deeper "[" "]").map fun es => by cases es <;> exact Nat.le_refl _

theorem parenthesized_uses :
    Uses live (n + 1) (parenthesized nested) (parenthesized nested') := by
  refine .bind (list_uses deeper "(" ")") fun es => ?_
  match es with
  | none => exact .result rfl
  | some [] => exact .result rfl
  | some [e] => exact .result rfl
  | some (e :: e' :: es) => exact .result rfl

theorem bracketed_uses : Uses live (n + 1) (bracketed nested) (bracketed nested') := by
  refine .branch (.take trivial ?_) (.result rfl)
  exact (expression_lasts deeper).andThen fun e => (expect_lasts "]").andThen fun _ => .result rfl

theorem objectKey_lasts : Lasts live n (objectKey nested) (objectKey nested') := by
  have keys : Uses live (n + 1) (firstOf [identifier, text, number, bracketed nested])
      (firstOf [identifier, text, number, bracketed nested']) :=
    .firstOf rfl (.cons identifier_uses (.cons text_uses (.cons number_uses
      (.cons (bracketed_uses deeper) .nil))))
  exact (keys.lasts (Nat.le_succ n)).required

theorem objectMembers_lasts (m : Nat) :
    Lasts live n (objectMembers nested m) (objectMembers nested' m) := by
  induction m generalizing live with
  | zero => exact .result rfl
  | succ m ih =>
    refine (objectKey_lasts deeper).andThen fun key => (expect_lasts ":").andThen fun _ => ?_
    refine (expression_lasts deeper).andThen fun value => .branch ?_ (.branch ?_ .fails)
    · exact .take trivial ((ih.lasts (Nat.sub_le n 1)).map fun _ => Nat.le_refl _)
    · exact .take trivial (.result rfl)

theorem object_uses : Uses live (n + 1) (object nested) (object nested') := by
  refine .branch (.take trivial (.branch ?_ ?_)) (.result rfl)
  · exact .take trivial (.result rfl)
  · exact .bind_remaining fun m => (objectMembers_lasts deeper m).map fun _ => Nat.le_refl _

theorem templateParts_lasts (m : Nat) :
    Lasts live n (templateParts nested m) (templateParts nested' m) := by
  induction m generalizing live with
  | zero => exact .result rfl
  | succ m ih =>
    refine .branch (.take trivial (.result rfl)) (.bind_kind fun k => ?_)
    have more {e : Expr} : Lasts False (n - 1) (do return e :: (← templateParts nested m))
        (do return e :: (← templateParts nested' m)) :=
      (ih.lasts (Nat.sub_le n 1)).map fun _ => Nat.le_refl _
    cases k with
    | openHole =>
      refine .take TokenKind.noConfusion ?_
      refine ((expression_lasts deeper).lasts (Nat.sub_le n 1)).andThen fun e => ?_
      refine .bind_kind fun k => ?_
      by_cases closes : (k == .closeHole) = true
      · simp only [if_pos closes]
        have inked : k ≠ .eof := by
          rintro rfl
          cases closes
        exact .take inked (more.lasts (Nat.sub_le _ 1))
      · simp only [if_neg closes]
        exact .fails
    | templateRaw s => exact .take TokenKind.noConfusion more
    | _ => exact .fails

theorem template_uses : Uses live (n + 1) (template nested) (template nested') := by
  refine .branch (.take trivial ?_) (.result rfl)
  exact .bind_remaining fun m => (templateParts_lasts deeper m).map fun _ => Nat.le_refl _

end Lists

section Filters

theorem skipBlankChars_lasts (m : Nat) :
    Lasts live n (skipBlankChars m) (skipBlankChars m) := by
  induction m generalizing live n with
  | zero => exact .result rfl
  | succ m ih =>
    refine .bind_kind fun k => ?_
    by_cases blank : isBlankChar k = true
    · simp only [if_pos blank]
      have inked : k ≠ .eof := by
        rintro rfl
        cases blank
      exact .take inked ih
    · simp only [if_neg blank]
      exact .result rfl

theorem skipBlanks_lasts : Lasts live n skipBlanks skipBlanks :=
  .bind_remaining skipBlankChars_lasts

theorem filterName_lasts : Lasts live n filterName filterName := by
  refine .bind_kind fun k => ?_
  cases k with
  | identifier name => exact .take TokenKind.noConfusion (.result rfl)
  | _ => exact .fails

variable {nested nested' : Nested} {island island' : Parser (Option Expr)}
  (deeper : ∀ g live, Lasts live n (nested g) (nested' g))
  (islands : Uses False (n + 1) island island')
include deeper islands

theorem argumentValue_uses :
    Uses live (n + 1) (argumentValue nested island) (argumentValue nested' island') :=
  .firstOf rfl (.cons literal_uses (.cons number_uses (.cons text_uses (.cons (template_uses deeper)
    (.cons (array_uses deeper) (.cons islands (.cons (object_uses deeper) .nil)))))))

theorem argumentParts_lasts (m : Nat) (parts : List FilterArg) :
    Lasts live n (argumentParts nested island m parts) (argumentParts nested' island' m parts) := by
  induction m generalizing live parts with
  | zero => exact .result rfl
  | succ m ih =>
    refine .bind_kind fun k => ?_
    by_cases ends : endsArgument k = true
    · simp only [if_pos ends]
      exact .result rfl
    · simp only [if_neg ends]
      refine ((argumentValue_uses deeper islands).lasts (Nat.le_succ n)).andThen fun e => ?_
      cases e with
      | some e => exact ih (.expr e :: parts)
      | none =>
        refine .bind_current fun t => ?_
        by_cases free : isFreeText t.kind = true
        · simp only [if_pos free]
          have inked : t.kind ≠ .eof := by
            intro ends
            rw [ends] at free
            cases free
          exact .take inked ((ih _).lasts (Nat.sub_le n 1))
        · simp only [if_neg free]
          exact .fails

theorem arguments_lasts (m : Nat) :
    Lasts live n (arguments nested island m) (arguments nested' island' m) := by
  induction m generalizing live with
  | zero => exact .result rfl
  | succ m ih =>
    refine .branch (.take trivial ?_) (.result rfl)
    refine Spends.relax (n := n) (w := fun _ => 0) ?_ (Nat.sub_le n 1) fun _ => Nat.le_refl _
    refine skipBlanks_lasts.andThen fun _ => .bind_remaining fun l => ?_
    refine (argumentParts_lasts deeper islands l []).andThen fun parts => ?_
    exact ih.map fun _ => Nat.le_refl _

theorem filterCalls_lasts (m : Nat) :
    Lasts live n (filterCalls nested island m) (filterCalls nested' island' m) := by
  induction m generalizing live with
  | zero => exact .result rfl
  | succ m ih =>
    refine .bind_kind fun k => ?_
    by_cases opens : (k == .openFilter) = true
    · simp only [if_pos opens]
      have inked : k ≠ .eof := by
        rintro rfl
        cases opens
      refine .take inked ?_
      refine Spends.relax (n := n) (w := fun _ => 0) ?_ (Nat.sub_le n 1) fun _ => Nat.le_refl _
      refine skipBlanks_lasts.andThen fun _ => filterName_lasts.andThen fun name => ?_
      refine skipBlanks_lasts.andThen fun _ => .bind_remaining fun l => ?_
      exact (arguments_lasts deeper islands l).andThen fun args => ih.map fun _ => Nat.le_refl _
    · simp only [if_neg opens]
      exact .result rfl

theorem piped_lasts : Lasts live n (piped nested island) (piped nested' island') := by
  refine (deeper .expression live).andThen fun e => ?_
  cases e with
  | none => exact .result rfl
  | some e =>
    refine .bind_remaining fun m => (filterCalls_lasts deeper islands m).andThen fun calls => ?_
    cases calls <;> exact .result rfl

theorem islandWith_uses :
    Uses live (n + 1) (islandWith nested island) (islandWith nested' island') := by
  refine .bind_kind fun k => ?_
  by_cases opens : (k == .openIsland) = true
  · simp only [if_pos opens]
    have inked : k ≠ .eof := by
      rintro rfl
      cases opens
    refine .take inked ((piped_lasts deeper islands).required.andThen fun body => ?_)
    refine .bind_kind fun k => ?_
    by_cases closes : (k == .closeIsland) = true
    · simp only [if_pos closes]
      have inked : k ≠ .eof := by
        rintro rfl
        cases closes
      exact .take inked (.result rfl)
    · simp only [if_neg closes]
      exact .fails
  · simp only [if_neg opens]
    exact .result rfl

end Filters

section Islands

variable {nested nested' : Nested} (deeper : ∀ g live, Lasts live n (nested g) (nested' g))
include deeper

theorem islandNested_uses (m : Nat) :
    Uses live (n + 1) (islandNested nested m) (islandNested nested' m) := by
  induction m generalizing live with
  | zero => exact .result rfl
  | succ m ih => exact islandWith_uses deeper ih

theorem island_uses : Uses live (n + 1) (island nested) (island nested') :=
  .bind_remaining (islandNested_uses deeper)

end Islands

end Parser

end TemplateFormula
