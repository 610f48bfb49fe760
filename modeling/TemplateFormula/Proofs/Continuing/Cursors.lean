import TemplateFormula.Proofs.Parsing.Enclosing

/-!
# Expressions that the text goes on behind

An expression that ends where the text does is read in the same way in front of a closing
parenthesis, a colon or a minus sign. One cursor stands in the expression alone and another at the
same place of the longer text. As long as tokens of the expression are left, what the first reads
the second reads too; at the end of the expression a parser may know that the second stands at what
follows, that it has gone through all of that, or nothing.
-/

namespace TemplateFormula.Parser

/-- What may stand behind an expression: the end of the text, a closing parenthesis that no arrow
follows, a colon, or a minus sign with the last operand behind it. -/
inductive Stop : Token → List Token → Prop where
  | text {t : Token} (kind : t.kind = .eof) : Stop t []
  | bracket {t u : Token} {us : List Token} (kind : t.kind = .punctuator ")")
      (plain : u.kind.isPunctuator "=" = false) : Stop t (u :: us)
  | colon {t : Token} (us : List Token) (kind : t.kind = .punctuator ":") : Stop t us
  | minus {t u v : Token} {x : Float} (kind : t.kind = .punctuator "-")
      (operand : u.kind = .number x) (ends : v.kind = .eof) : Stop t [u, v]

/-- What stands behind an expression is one of three marks or the end of the text. -/
theorem Stop.cases {t : Token} {us : List Token} (h : Stop t us) : t.kind = .eof ∨
    t.kind = .punctuator ")" ∨ t.kind = .punctuator ":" ∨ t.kind = .punctuator "-" := by
  cases h with
  | text kind => exact .inl kind
  | bracket kind _ => exact .inr (.inl kind)
  | colon _ kind => exact .inr (.inr (.inl kind))
  | minus kind _ _ => exact .inr (.inr (.inr kind))

theorem Stop.behind_minus {t : Token} {us : List Token} (h : Stop t us)
    (minus : t.kind = .punctuator "-") :
    ∃ u v x, us = [u, v] ∧ u.kind = .number x ∧ v.kind = .eof := by
  cases h with
  | text kind => exact absurd (kind.symm.trans minus) TokenKind.noConfusion
  | bracket kind _ => exact absurd (TokenKind.punctuator.inj (kind.symm.trans minus)) (by decide)
  | colon _ kind => exact absurd (TokenKind.punctuator.inj (kind.symm.trans minus)) (by decide)
  | minus _ operand ends => exact ⟨_, _, _, rfl, operand, ends⟩

/-- The place where an expression ends, alone and in a longer text. -/
structure Seam where
  last : Token
  stop : Token
  more : List Token
  /-- Names of namespaces. -/
  names : List String
  ends : last.kind = .eof
  stops : Stop stop more

namespace Seam

variable (J : Seam)

/-- The end of the expression alone. -/
def edge : Cursor := ⟨J.last, [], none⟩

/-- The end of the expression in the longer text. -/
def here : Cursor := ⟨J.stop, J.more, none⟩

/-- The end of the longer text, behind the operand of a minus sign. -/
structure Beyond (c : Cursor) : Prop where
  minus : J.stop.kind = .punctuator "-"
  kind : c.current.kind = .eof
  rest : c.rest = []
  failure : c.failure = none

/-- The name of a namespace directly in front of a colon. -/
def Bare (ts : List Token) : Prop :=
  J.stop.kind = .punctuator ":" ∧
    ∃ t name, ts = [t] ∧ t.kind = .identifier name ∧ J.names.contains name = true

/-- The cursors stand at the same place of the expression, and its last token is not taken for a
namespace. -/
structure Near (ts : List Token) (c c' : Cursor) : Prop where
  shows : Shows J.last [] none ts c
  shows' : ∃ ts', List.Forall₂ Token.Alike ts ts' ∧ Shows J.stop J.more none ts' c'
  inked : ∀ t ∈ ts, t.kind ≠ .eof
  fit : ∀ us t vs, ts = us ++ t :: vs → J.Bare vs → t.kind = .punctuator "."

structure Ahead (ts : List Token) (c c' : Cursor) : Prop extends J.Near ts c c' where
  clear : ¬ J.Bare ts

variable {J} {t : Token} {ts : List Token} {c c' : Cursor}

theorem eq_edge (h : Shows J.last [] none [] c) : c = J.edge := by
  obtain ⟨current, rest, f⟩ := c
  obtain ⟨tokens, rfl⟩ := h
  obtain ⟨rfl, rfl⟩ := List.cons.inj tokens
  rfl

theorem eq_here (h : Shows J.stop J.more none [] c) : c = J.here := by
  obtain ⟨current, rest, f⟩ := c
  obtain ⟨tokens, rfl⟩ := h
  obtain ⟨rfl, rfl⟩ := List.cons.inj tokens
  rfl

theorem not_bare_nil : ¬ J.Bare [] := by
  rintro ⟨-, t, name, none, -⟩
  cases none

theorem Near.nil (h : J.Near [] c c') : c = J.edge ∧ c' = J.here := by
  obtain ⟨ts', alike, shows'⟩ := h.shows'
  cases alike
  exact ⟨eq_edge h.shows, eq_here shows'⟩

theorem Near.single (h : J.Near [t] c c') : c = ⟨t, [J.last], none⟩ ∧
    ∃ t', t.Alike t' ∧ c' = ⟨t', J.stop :: J.more, none⟩ := by
  obtain ⟨_, alike, tokens', failure'⟩ := h.shows'
  obtain ⟨tokens, failure⟩ := h.shows
  obtain ⟨current, rest, f⟩ := c
  obtain ⟨current', rest', f'⟩ := c'
  cases alike with
  | cons first others =>
    cases others
    cases tokens
    cases tokens'
    cases failure
    cases failure'
    exact ⟨rfl, _, first, rfl⟩

theorem ahead_nil : J.Ahead [] J.edge J.here where
  shows := ⟨rfl, rfl⟩
  shows' := ⟨[], .nil, rfl, rfl⟩
  inked := fun _ h => absurd h List.not_mem_nil
  fit := fun us t vs split => absurd split (by simp)
  clear := not_bare_nil

theorem Near.current (h : J.Near (t :: ts) c c') : c.current = t ∧ t.Alike c'.current := by
  obtain ⟨_, alike, shows'⟩ := h.shows'
  cases alike with
  | cons first _ => exact ⟨h.shows.current, shows'.current ▸ first⟩

/-- Behind a token the same tokens are left. -/
theorem Near.advance (h : J.Near (t :: ts) c c') :
    ∃ c₁ c₁', c.advance = .ok c₁ ∧ c'.advance = .ok c₁' ∧ J.Near ts c₁ c₁' := by
  obtain ⟨_, alike, shows'⟩ := h.shows'
  cases alike with
  | cons first others =>
    obtain ⟨c₁, moves, shows₁⟩ := h.shows.advance
    obtain ⟨c₁', moves', shows₁'⟩ := shows'.advance
    refine ⟨c₁, c₁', moves, moves', shows₁, ⟨_, others, shows₁'⟩, ?_, ?_⟩
    · exact fun u member => h.inked u (List.mem_cons_of_mem _ member)
    · rintro us u vs rfl bare
      exact h.fit (t :: us) u vs rfl bare

theorem Near.ahead (h : J.Near (t :: ts) c c') {c₁ c₁' : Cursor} (near : J.Near ts c₁ c₁')
    (plain : t.kind.isPunctuator "." = false) : J.Ahead ts c₁ c₁' := by
  refine ⟨near, fun bare => ?_⟩
  rw [h.fit [] t ts rfl bare] at plain
  cases plain

theorem Near.remaining (h : J.Near ts c c') :
    c.remaining = ts.length + 1 ∧ c'.remaining = ts.length + J.more.length + 1 := by
  obtain ⟨ts', alike, shows'⟩ := h.shows'
  rw [Cursor.remaining, Cursor.remaining, h.shows.length_eq, shows'.length_eq, alike.length_eq]
  exact ⟨rfl, rfl⟩

section Stops

theorem edge_eq : J.edge = ⟨⟨.eof, J.last.raw, J.last.start, J.last.stop⟩, [], none⟩ := by
  rw [edge, ← J.ends]

theorem check_edge (symbol : String) : check symbol J.edge = .ok (false, J.edge) := by
  rw [edge_eq]
  rfl

theorem kind_edge : kind J.edge = .ok (.eof, J.edge) := by
  rw [edge_eq]
  rfl

theorem check_here (symbol : String) :
    check symbol J.here = .ok (J.stop.kind.isPunctuator symbol, J.here) := rfl

theorem check_here_of_ne {symbol : String} (plain : symbol ∉ [")", ":", "-"]) :
    check symbol J.here = .ok (false, J.here) := by
  have other : J.stop.kind.isPunctuator symbol = false := by
    simp only [List.mem_cons, List.not_mem_nil, or_false, not_or] at plain
    obtain ⟨bracket, colon, minus⟩ := plain
    rcases J.stops.cases with h | h | h | h <;> rw [h]
    · rfl
    · exact beq_eq_false_iff_ne.2 (Ne.symm bracket)
    · exact beq_eq_false_iff_ne.2 (Ne.symm colon)
    · exact beq_eq_false_iff_ne.2 (Ne.symm minus)
  rw [check_here, other]

end Stops

section Outcomes

variable {α β : Type}

/-- What the longer text has led to, where the expression alone has led to its end. -/
abbrev Fate (α : Type) : Type := α → Except ParseError (α × Cursor) → Prop

variable (J)

/-- Nothing is known. -/
def free : Fate α := fun _ _ => True

/-- The second cursor stands at what follows, with the same value. -/
def exact (good : α → Prop) : Fate α := fun a r' => good a ∧ r' = .ok (a, J.here)

/-- The second cursor stands at what follows, with the same value, if operators that bind as tightly
as this may be left; or it has gone through all of it. -/
def Rest (bound : Nat) (a a' : α) (c' : Cursor) : Prop :=
  (a' = a ∧ c' = J.here ∧ (J.stop.kind = .punctuator "-" → BinaryOp.minus.precedence < bound)) ∨
    J.Beyond c'

def rests (bound : Nat) (good : α → Prop) : Fate α := fun a r' =>
  good a ∧ ∃ a' c', r' = .ok (a', c') ∧ good a' ∧ J.Rest bound a a' c'

/-- If the first parser succeeds with tokens left, then the second does with the same. -/
def Outcome (F : Fate α) (n : Nat) (r r' : Except ParseError (α × Cursor)) : Prop :=
  ∀ a c₁, r = .ok (a, c₁) →
    (∃ us c₁', us ≠ [] ∧ us.length ≤ n ∧ J.Ahead us c₁ c₁' ∧ r' = .ok (a, c₁')) ∨
      (c₁ = J.edge ∧ F a r')

/-- The second parser follows the first where such tokens are left, and fewer than a bound. -/
def Follows (L : List Token → Prop) (F : Fate α) (n : Nat) (p p' : Parser α) : Prop :=
  ∀ ts c c', J.Ahead ts c c' → L ts → ts.length < n → J.Outcome F ts.length (p c) (p' c')

/-- The parser fails at the end of the expression alone. -/
def Stuck (p : Parser α) : Prop := ∀ a c₁, p J.edge ≠ .ok (a, c₁)

/-- The parser stays at the end of the expression alone. -/
def Stays (p : Parser α) : Prop := ∀ a c₁, p J.edge = .ok (a, c₁) → c₁ = J.edge

end Outcomes

/-- Any tokens. -/
def Any (_ : List Token) : Prop := True

/-- Some token is left. -/
def Live (ts : List Token) : Prop := ts ≠ []

/-- The next token is of such a kind. -/
def On (K : TokenKind → Prop) (ts : List Token) : Prop := ∃ t us, ts = t :: us ∧ K t.kind

/-- Every value will do. -/
def Whole {α : Type} (_ : α) : Prop := True

/-- Something has been found. -/
def Found {α : Type} (o : Option α) : Prop := o ≠ none

theorem On.live {K : TokenKind → Prop} (h : On K ts) : Live ts := by
  obtain ⟨t, us, rfl, -⟩ := h
  exact List.cons_ne_nil t us

section Combinators

variable {α β : Type} {L M : List Token → Prop} {F : Fate β} {n m m' : Nat}

theorem Outcome.mono {F G : Fate α} {r r' : Except ParseError (α × Cursor)}
    (h : J.Outcome F n r r') (le : n ≤ m) (less : ∀ a, F a r' → G a r') :
    J.Outcome G m r r' := by
  intro a c₁ outcome
  rcases h a c₁ outcome with ⟨us, c₁', some_, short, ahead, outcome'⟩ | ⟨ended, fate⟩
  · exact .inl ⟨us, c₁', some_, Nat.le_trans short le, ahead, outcome'⟩
  · exact .inr ⟨ended, less a fate⟩

/-- With no tokens left nothing but the fate is in question. -/
theorem Outcome.ended {F : Fate α} {r r' : Except ParseError (α × Cursor)} {a : α}
    (h : J.Outcome F 0 r r') (outcome : r = .ok (a, c)) : c = J.edge ∧ F a r' := by
  rcases h a c outcome with ⟨us, c₁', some_, none, -⟩ | ended
  · exact absurd (List.eq_nil_of_length_eq_zero (Nat.le_zero.1 none)) some_
  · exact ended

theorem Follows.mono {F G : Fate α} {p p' : Parser α} (h : J.Follows L F n p p')
    (less : ∀ a r', F a r' → G a r') : J.Follows L G n p p' :=
  fun ts c c' ahead on short => (h ts c c' ahead on short).mono (Nat.le_refl _) fun a => less a _

theorem Follows.freely {F : Fate α} {p p' : Parser α} (h : J.Follows L F n p p') :
    J.Follows L free n p p' :=
  h.mono fun _ _ _ => trivial

theorem Follows.on {F : Fate α} {p p' : Parser α} (h : J.Follows L F n p p')
    (less : ∀ ts, M ts → L ts) : J.Follows M F n p p' :=
  fun ts c c' ahead on short => h ts c c' ahead (less ts on) short

theorem Follows.narrow {F : Fate α} {p p' : Parser α} (h : J.Follows L F n p p') (le : m ≤ n) :
    J.Follows L F m p p' :=
  fun ts c c' ahead on short => h ts c c' ahead on (Nat.lt_of_lt_of_le short le)

theorem Follows.at_end {F : Fate α} {p p' : Parser α} (h : J.Follows Any F n p p') (some_ : 0 < n) :
    J.Outcome F 0 (p J.edge) (p' J.here) :=
  h [] J.edge J.here ahead_nil trivial some_

/-- What happens at the end is a case of its own. -/
theorem Follows.ends {F : Fate α} {p p' : Parser α} (h : J.Follows Live F n p p')
    (ends : J.Outcome F 0 (p J.edge) (p' J.here)) : J.Follows Any F n p p' := by
  intro ts c c' ahead _ short
  cases ts with
  | nil =>
    obtain ⟨rfl, rfl⟩ := ahead.nil
    exact ends
  | cons t ts => exact h _ c c' ahead (List.cons_ne_nil t ts) short

/-- A parser that fails at the end has only to be followed in front of it. -/
theorem Follows.settle {F : Fate α} {p p' : Parser α} (h : J.Follows Live F n p p')
    (stuck : J.Stuck p) : J.Follows Any F n p p' :=
  h.ends fun a c₁ outcome => absurd outcome (stuck a c₁)

/-- The same for a parser that stays at the end, if its fate does not matter. -/
theorem Follows.settle_free {p p' : Parser α} (h : J.Follows Live free n p p') (stays : J.Stays p) :
    J.Follows Any free n p p' :=
  h.ends fun a c₁ outcome => .inr ⟨stays a c₁ outcome, trivial⟩

theorem Follows.fails {p' : Parser β} : J.Follows L F n fatal p' :=
  fun _ _ _ _ _ _ _ _ outcome => absurd outcome (by rintro ⟨⟩)

/-- Where tokens are left a result is the same. -/
theorem Follows.result (a : β) (live : ∀ ts, L ts → Live ts) :
    J.Follows L F n (pure a) (pure a) := by
  rintro ts c c' ahead on - _ _ ⟨⟩
  exact .inl ⟨ts, c', live ts on, Nat.le_refl _, ahead, rfl⟩

theorem Follows.result_live (a : β) : J.Follows Live F n (pure a) (pure a) :=
  .result a fun _ live => live

theorem Follows.closes {good : β → Prop} {a : β} (ok : good a) :
    J.Follows Any (J.exact good) n (pure a) (pure a) := by
  rintro ts c c' ahead - - _ _ ⟨⟩
  cases ts with
  | nil =>
    obtain ⟨rfl, rfl⟩ := ahead.nil
    exact .inr ⟨rfl, ok, rfl⟩
  | cons t ts => exact .inl ⟨_, c', List.cons_ne_nil t ts, Nat.le_refl _, ahead, rfl⟩

/-- One parser behind another. The fate of the first decides what the second meets at the end. -/
theorem Follows.bind {E : Fate α} {p p' : Parser α} {f f' : α → Parser β}
    (first : J.Follows L E n p p') (next : ∀ a, J.Follows Live F n (f a) (f' a))
    (ends : ∀ a c', E a (p' c') → J.Outcome F 0 (f a J.edge) ((p' >>= f') c')) :
    J.Follows L F n (p >>= f) (p' >>= f') := by
  intro ts c c' ahead on short b c₂ outcome
  have first := first ts c c' ahead on short
  rw [bind_apply] at outcome
  rcases here : p c with e | ⟨a, c₁⟩
  · rw [here] at outcome
    cases outcome
  · rw [here] at outcome
    rcases first a c₁ here with ⟨us, c₁', some_, le, ahead₁, outcome'⟩ | ⟨rfl, fate⟩
    · have after := next a us c₁ c₁' ahead₁ some_ (Nat.lt_of_le_of_lt le short)
      rw [bind_of_ok outcome']
      exact after.mono le (fun _ => id) b c₂ outcome
    · exact (ends a c' fate).mono (Nat.zero_le _) (fun _ => id) b c₂ outcome

theorem Follows.bind_stuck {E : Fate α} {p p' : Parser α} {f f' : α → Parser β}
    (first : J.Follows L E n p p') (next : ∀ a, J.Follows Live F n (f a) (f' a))
    (stuck : ∀ a, J.Stuck (f a)) : J.Follows L F n (p >>= f) (p' >>= f') :=
  first.bind next fun a _ _ b c₂ outcome => absurd outcome (stuck a b c₂)

theorem Follows.bind_free {E : Fate α} {p p' : Parser α} {f f' : α → Parser β}
    (first : J.Follows L E n p p') (next : ∀ a, J.Follows Any free n (f a) (f' a)) :
    J.Follows L free n (p >>= f) (p' >>= f') := by
  intro ts c c' ahead on short
  have some_ : 0 < n := Nat.lt_of_le_of_lt (Nat.zero_le _) short
  refine Follows.bind first (fun a => (next a).on fun _ _ => trivial) ?_ ts c c' ahead on short
  exact fun a _ _ b c₂ outcome => .inr ⟨(((next a).at_end some_).ended outcome).1, trivial⟩

theorem Follows.bind_exact {good : α → Prop} {p p' : Parser α} {f f' : α → Parser β}
    (first : J.Follows L (J.exact good) n p p') (next : ∀ a, J.Follows Live F n (f a) (f' a))
    (ends : ∀ a, good a → J.Outcome F 0 (f a J.edge) (f' a J.here)) :
    J.Follows L F n (p >>= f) (p' >>= f') := by
  refine first.bind next ?_
  rintro a c' ⟨ok, outcome'⟩
  rw [bind_of_ok outcome']
  exact ends a ok

theorem Follows.bind_any {good : α → Prop} {p p' : Parser α} {f f' : α → Parser β}
    (first : J.Follows L (J.exact good) n p p') (next : ∀ a, J.Follows Any F n (f a) (f' a)) :
    J.Follows L F n (p >>= f) (p' >>= f') := by
  intro ts c c' ahead on short
  have some_ : 0 < n := Nat.lt_of_le_of_lt (Nat.zero_le _) short
  exact first.bind_exact (fun a => (next a).on fun _ _ => trivial)
    (fun a _ => (next a).at_end some_) ts c c' ahead on short

theorem Follows.bind_option {p p' : Parser (Option α)} {f f' : Option α → Parser β}
    (first : J.Follows L (J.exact Found) n p p')
    (hit : ∀ a, J.Follows Any F n (f (some a)) (f' (some a)))
    (miss : J.Follows Live F n (f none) (f' none)) : J.Follows L F n (p >>= f) (p' >>= f') := by
  intro ts c c' ahead on short
  have some_ : 0 < n := Nat.lt_of_le_of_lt (Nat.zero_le _) short
  refine first.bind_exact (fun a => ?_) (fun a found => ?_) ts c c' ahead on short
  · cases a with
    | none => exact miss
    | some a => exact (hit a).on fun _ _ => trivial
  · obtain ⟨a, rfl⟩ := Option.ne_none_iff_exists'.1 found
    exact (hit a).at_end some_

/-- What is found takes a token. -/
theorem Follows.bind_found {p p' : Parser (Option α)} {f f' : Option α → Parser β}
    (first : J.Follows L (J.exact Found) n p p')
    (shorter : ∀ ts c c' a c₁, J.Ahead ts c c' → ts.length < n → p c = .ok (some a, c₁) →
      c₁.rest.length < c.rest.length)
    (hit : ∀ a, J.Follows Any F (n - 1) (f (some a)) (f' (some a)))
    (miss : J.Follows Live F n (f none) (f' none)) : J.Follows L F n (p >>= f) (p' >>= f') := by
  intro ts c c' ahead on short b c₂ outcome
  have first := first ts c c' ahead on short
  rw [bind_apply] at outcome
  rcases here : p c with e | ⟨o, c₁⟩
  · rw [here] at outcome
    cases outcome
  rw [here] at outcome
  have length := ahead.shows.length_eq
  rcases first o c₁ here with ⟨us, c₁', some_, le, ahead₁, outcome'⟩ | ⟨rfl, found, outcome'⟩
  · rw [bind_of_ok outcome']
    cases o with
    | none =>
      exact (miss us c₁ c₁' ahead₁ some_ (by omega)).mono le (fun _ => id) b c₂ outcome
    | some a =>
      have shorter := shorter ts c c' a c₁ ahead short here
      rw [ahead₁.shows.length_eq, length] at shorter
      exact (hit a us c₁ c₁' ahead₁ trivial (by omega)).mono le (fun _ => id) b c₂ outcome
  · rw [bind_of_ok outcome']
    obtain ⟨a, rfl⟩ := Option.ne_none_iff_exists'.1 found
    have shorter := shorter ts c c' a _ ahead short here
    rw [length, List.length_nil] at shorter
    exact ((hit a).at_end (by omega)).mono (Nat.zero_le _) (fun _ => id) b c₂ outcome

/-- A value made of an exact one is exact. -/
theorem Follows.map {good : α → Prop} {good' : β → Prop} {p p' : Parser α}
    (h : J.Follows L (J.exact good) n p p') (g : α → β) (keeps : ∀ a, good a → good' (g a)) :
    J.Follows L (J.exact good') n (do return g (← p)) (do return g (← p')) :=
  h.bind_exact (fun a => .result_live (g a)) fun a ok =>
    (Follows.closes (keeps a ok) : J.Follows Any _ 1 _ _).at_end Nat.one_pos

theorem Follows.bind_check {symbol : String} {f f' : Bool → Parser β}
    (hit : J.Follows (On (·.isPunctuator symbol = true)) F n (f true) (f' true))
    (miss : J.Follows Live F n (f false) (f' false)) :
    J.Follows Live F n (check symbol >>= f) (check symbol >>= f') := by
  intro ts c c' ahead live short
  obtain ⟨t, ts, rfl⟩ := List.exists_cons_of_ne_nil live
  obtain ⟨here, alike⟩ := ahead.current
  change J.Outcome F _ (f (c.current.kind.isPunctuator symbol) c)
    (f' (c'.current.kind.isPunctuator symbol) c')
  rw [here, alike.kind]
  cases matched : t.kind.isPunctuator symbol with
  | true => exact hit _ c c' ahead ⟨t, ts, rfl, matched⟩ short
  | false => exact miss _ c c' ahead live short

theorem Follows.branch {symbol : String} {q q' r r' : Parser β}
    (hit : J.Follows (On (·.isPunctuator symbol = true)) F n q q')
    (miss : J.Follows Live F n r r') :
    J.Follows Live F n (check symbol >>= fun b => if b then q else r)
      (check symbol >>= fun b => if b then q' else r') :=
  .bind_check hit miss

theorem Follows.bind_current {f f' : Token → Parser β}
    (next : ∀ t t', t.Alike t' → J.Follows (On (· = t.kind)) F n (f t) (f' t')) :
    J.Follows Live F n (current >>= f) (current >>= f') := by
  intro ts c c' ahead live short
  obtain ⟨t, ts, rfl⟩ := List.exists_cons_of_ne_nil live
  obtain ⟨here, alike⟩ := ahead.current
  change J.Outcome F _ (f c.current c) (f' c'.current c')
  rw [here]
  exact next t c'.current alike _ c c' ahead ⟨t, ts, rfl, rfl⟩ short

theorem Follows.bind_kind {f f' : TokenKind → Parser β}
    (next : ∀ k, J.Follows (On (· = k)) F n (f k) (f' k)) :
    J.Follows Live F n (kind >>= f) (kind >>= f') := by
  rw [kind_bind, kind_bind]
  refine .bind_current fun t t' alike => ?_
  rw [alike.kind]
  exact next t.kind

theorem Follows.take {K : TokenKind → Prop} {f f' : PUnit → Parser β}
    (plain : ∀ k, K k → k.isPunctuator "." = false)
    (next : J.Follows Any F (n - 1) (f ⟨⟩) (f' ⟨⟩)) :
    J.Follows (On K) F n (advance >>= f) (advance >>= f') := by
  rintro _ c c' ahead ⟨t, us, rfl, on⟩ short
  obtain ⟨c₁, c₁', moves, moves', near⟩ := ahead.toNear.advance
  have ahead₁ := ahead.toNear.ahead near (plain _ on)
  have first : advance c = .ok (⟨⟩, c₁) := by rw [advance, moves]; rfl
  have first' : advance c' = .ok (⟨⟩, c₁') := by rw [advance, moves']; rfl
  rw [bind_of_ok first, bind_of_ok first']
  rw [List.length_cons] at short ⊢
  exact (next us c₁ c₁' ahead₁ trivial (by omega)).mono (Nat.le_succ _) fun _ => id

/-- A dot may be taken too, if what follows holds of the name of a namespace at the end. -/
theorem Follows.take_any {K : TokenKind → Prop} {f f' : PUnit → Parser β}
    (next : J.Follows Any F (n - 1) (f ⟨⟩) (f' ⟨⟩))
    (bare : 1 < n - 1 → ∀ t t' name, t.Alike t' → t.kind = .identifier name →
      J.Outcome F 0 (f ⟨⟩ ⟨t, [J.last], none⟩) (f' ⟨⟩ ⟨t', J.stop :: J.more, none⟩)) :
    J.Follows (On K) F n (advance >>= f) (advance >>= f') := by
  rintro _ c c' ahead ⟨t, us, rfl, on⟩ short
  obtain ⟨c₁, c₁', moves, moves', near⟩ := ahead.toNear.advance
  have first : advance c = .ok (⟨⟩, c₁) := by rw [advance, moves]; rfl
  have first' : advance c' = .ok (⟨⟩, c₁') := by rw [advance, moves']; rfl
  rw [bind_of_ok first, bind_of_ok first']
  rw [List.length_cons] at short ⊢
  by_cases clear : J.Bare us
  · obtain ⟨-, u, name, rfl, kind_eq, -⟩ := clear
    obtain ⟨rfl, u', like, rfl⟩ := near.single
    rw [List.length_singleton] at short
    exact (bare (by omega) u u' name like kind_eq).mono (Nat.zero_le _) fun _ => id
  · exact (next us c₁ c₁' ⟨near, clear⟩ trivial (by omega)).mono (Nat.le_succ _) fun _ => id

theorem Follows.take_symbol {symbol : String} {f f' : PUnit → Parser β} (plain : symbol ≠ ".")
    (next : J.Follows Any F (n - 1) (f ⟨⟩) (f' ⟨⟩)) :
    J.Follows (On (·.isPunctuator symbol = true)) F n (advance >>= f) (advance >>= f') := by
  refine .take (fun k matched => ?_) next
  cases k with
  | punctuator s =>
    obtain rfl := beq_iff_eq.1 matched
    exact beq_eq_false_iff_ne.2 plain
  | _ => rfl

theorem Follows.take_kind {k : TokenKind} {f f' : PUnit → Parser β}
    (plain : k.isPunctuator "." = false) (next : J.Follows Any F (n - 1) (f ⟨⟩) (f' ⟨⟩)) :
    J.Follows (On (· = k)) F n (advance >>= f) (advance >>= f') :=
  .take (fun _ same => same ▸ plain) next

/-- Bounds that come from the number of tokens left are above it. -/
theorem Follows.bind_remaining {f f' : Nat → Parser β}
    (next : ∀ s m m', s ≤ n → s ≤ m → s ≤ m' → J.Follows L F s (f m) (f' m')) :
    J.Follows L F n (remaining >>= f) (remaining >>= f') := by
  intro ts c c' ahead on short
  obtain ⟨left, left'⟩ := ahead.toNear.remaining
  exact next (ts.length + 1) c.remaining c'.remaining short (by omega) (by omega) ts c c' ahead on
    (Nat.lt_succ_self _)

/-- Loops that take a token in every round follow each other if their rounds do. -/
theorem Follows.loopOn {ι : Type} {R R' : Nat → ι → Parser β} {s : Nat}
    (round : ∀ r m m', r < s → r ≤ m → (∀ i, J.Follows L F r (R m i) (R' m' i)) →
      ∀ i, J.Follows L F (r + 1) (R (m + 1) i) (R' (m' + 1) i))
    (hm : s ≤ m) (hm' : s ≤ m') (i : ι) : J.Follows L F s (R m i) (R' m' i) := by
  have rounds (r : Nat) (le : r ≤ s) (m m' : Nat) (hm : r ≤ m) (hm' : r ≤ m') (i : ι) :
      J.Follows L F r (R m i) (R' m' i) := by
    induction r generalizing m m' i with
    | zero => exact fun _ _ _ _ _ short => absurd short (Nat.not_lt_zero _)
    | succ r ih =>
      obtain ⟨m, rfl⟩ := Nat.exists_eq_add_one_of_ne_zero (show m ≠ 0 by omega)
      obtain ⟨m', rfl⟩ := Nat.exists_eq_add_one_of_ne_zero (show m' ≠ 0 by omega)
      exact round r m m' le (by omega) (ih (by omega) m m' (by omega) (by omega)) i
  exact rounds s (Nat.le_refl s) m m' hm hm' i

theorem Follows.loop {R R' : Nat → Parser β} {s : Nat}
    (round : ∀ r m m', r < s → r ≤ m → J.Follows L F r (R m) (R' m') →
      J.Follows L F (r + 1) (R (m + 1)) (R' (m' + 1)))
    (hm : s ≤ m) (hm' : s ≤ m') : J.Follows L F s (R m) (R' m') := by
  have rounds (r m m' : Nat) (lt : r < s) (le : r ≤ m)
      (ih : PUnit → J.Follows L F r (R m) (R' m')) (_ : PUnit) :
      J.Follows L F (r + 1) (R (m + 1)) (R' (m' + 1)) :=
    round r m m' lt le (ih PUnit.unit)
  exact loopOn rounds hm hm' PUnit.unit

end Combinators

end Seam

end TemplateFormula.Parser
