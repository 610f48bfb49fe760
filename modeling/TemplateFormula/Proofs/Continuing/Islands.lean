import TemplateFormula.Proofs.Continuing.Operands
import TemplateFormula.Proofs.Parsing.Enclosing

/-!
# Islands in a text that goes on

Where tokens stand plays no part in what is parsed. On tokens of the same kinds and spellings a
parser succeeds with the same value, and has as many tokens left.

An island closes itself, with the filters in it. An argument of a filter is free text in which any
token may be the last of the expression, so inside of filters the end of the expression is met
without a failure, but in front of the brace that is missing.
-/

namespace TemplateFormula.Parser

open Pairing

/-- The cursors stand on tokens that differ in their places at most, up to the end of a text. -/
structure Same (c c' : Cursor) : Prop where
  tokens : List.Forall₂ Token.Alike c.tokens c'.tokens
  good : c.failure = none ∧ c'.failure = none
  stops : ∃ t, c.tokens.getLast? = some t ∧ t.kind = .eof

variable {c c' : Cursor}

theorem Same.current (h : Same c c') : c.current.Alike c'.current := by
  have first := h.tokens
  rw [Cursor.tokens, Cursor.tokens] at first
  cases first with
  | cons first _ => exact first

theorem Same.length_eq (h : Same c c') : c'.rest.length = c.rest.length := by
  have same := h.tokens.length_eq
  simp only [Cursor.tokens, List.length_cons] at same
  omega

theorem Same.step (h : Same c c') (inked : c.current.kind ≠ .eof) :
    Step Same (fun _ _ => True) c.rest.length c.advance c'.advance := by
  obtain ⟨t, ts, f⟩ := c
  obtain ⟨t', ts', f'⟩ := c'
  obtain ⟨tokens, ⟨rfl, rfl⟩, stops⟩ := h
  cases tokens with
  | cons first others =>
  cases others with
  | nil =>
    obtain ⟨last, only, ends⟩ := stops
    cases only
    exact absurd ends inked
  | cons second others =>
    obtain ⟨last, tail, ends⟩ := stops
    exact .ok ⟨.cons second others, ⟨rfl, rfl⟩, last, tail, ends⟩ (Nat.lt_succ_self _)

def alike : Pairing where
  Related _ := Same
  Fails _ _ := True
  exact := True
  meets h := .same h.current.kind h.current.text
  unexpected _ := trivial
  runsOut _ := trivial
  remaining_lt h := by
    rw [Cursor.remaining, h.length_eq]
    exact Nat.lt_succ_self _
  filter _ _ := trivial
  inner h inner := h.step (isInner_ne_eof inner)
  opening h opens := h.step (by rw [opens]; exact TokenKind.noConfusion)
  closing h closes := h.step (by rw [closes]; exact TokenKind.noConfusion)

/-- Up to the end of a text a cursor is like itself. -/
theorem same_self (good : c.failure = none)
    (stops : ∃ t, c.tokens.getLast? = some t ∧ t.kind = .eof) : Same c c :=
  ⟨List.forall₂_same.2 fun _ _ => ⟨rfl, rfl⟩, ⟨good, good⟩, stops⟩

end TemplateFormula.Parser

namespace TemplateFormula.Parser.Seam

variable {J : Seam} {n s m m' : Nat} {nested nested' : Nested}

section Filters

theorem stays_skipBlankChars (m : Nat) : J.Stays (skipBlankChars m) := by
  apply stays_of_ok
  cases m with
  | zero => rfl
  | succ m =>
    rw [edge_eq]
    rfl

theorem skipBlankChars_follows (hm : s ≤ m) (hm' : s ≤ m') :
    J.Follows Any free s (skipBlankChars m) (skipBlankChars m') := by
  refine Follows.loop (fun s m m' _ _ ih => ?_) hm hm'
  refine .settle_free ?_ (stays_skipBlankChars _)
  rw [skipBlankChars, skipBlankChars]
  refine .bind_kind fun k => ?_
  by_cases blank : isBlankChar k = true
  · simp only [if_pos blank]
    have plain : k.isPunctuator "." = false := by cases k <;> first | rfl | cases blank
    exact .take_kind plain ih
  · simp only [if_neg blank]
    exact .result _ fun _ => On.live

theorem skipBlanks_follows : J.Follows Any free n skipBlanks skipBlanks := by
  apply Follows.bind_remaining
  intro s m m' _ hm hm'
  exact skipBlankChars_follows hm hm'

theorem found_free {α : Type} (a : α) : J.Follows Any free n (pure a) (pure a) := by
  have closes : J.Follows Any (J.exact Whole) n (pure a) (pure a) := .closes trivial
  exact closes.freely

theorem Near.same {ts : List Token} {c c' : Cursor} (h : J.Near ts c c') : Same c c := by
  refine same_self h.shows.failure ⟨J.last, ?_, J.ends⟩
  rw [h.shows.tokens, List.getLast?_concat]

/-- A value in an argument takes a token. -/
theorem argumentValue_shorter (uniform : Uniform nested) {c c₁ : Cursor} {e : Expr}
    (same : Same c c) (short : c.rest.length < m)
    (outcome : argumentValue nested (islandNested nested m) c = .ok (some e, c₁)) :
    c₁.rest.length < c.rest.length := by
  have islands : alike.Takes False m (islandNested nested m) (islandNested nested m) :=
    islandNested_takes (fun g => uniform alike g) (Nat.le_refl m) (Nat.le_refl m)
  have takes : alike.Takes False m _ _ :=
    argumentValue_takes (fun g => uniform alike g) islands (Nat.le_refl m)
  have agrees := takes 0 c c same short False.elim
  rw [outcome] at agrees
  obtain ⟨-, -, -, taken⟩ := agrees.eq_ok
  exact taken

theorem islandNested_none {c : Cursor} (other : c.current.kind ≠ .openIsland) (m : Nat) :
    islandNested nested m c = .ok (none, c) := by
  cases m with
  | zero => rfl
  | succ m =>
    have shown : kind c = .ok (c.current.kind, c) := rfl
    rw [islandNested, islandWith, bind_of_ok shown, if_neg fun opens =>
      other (Pairing.eq_of_beq_openIsland opens)]
    rfl

/-- Neither a name nor the end of a text begins a value. -/
theorem argumentValue_none {c : Cursor}
    (other : (∃ name, c.current.kind = .identifier name) ∨ c.current.kind = .eof) (m : Nat) :
    argumentValue nested (islandNested nested m) c = .ok (none, c) := by
  have island : islandNested nested m c = .ok (none, c) := by
    apply islandNested_none
    rcases other with ⟨name, h⟩ | h <;> rw [h] <;> exact TokenKind.noConfusion
  obtain ⟨⟨k, raw, p, q⟩, ts, f⟩ := c
  have before : argumentValue nested (islandNested nested m) ⟨⟨k, raw, p, q⟩, ts, f⟩ =
      firstOf [islandNested nested m, object nested] ⟨⟨k, raw, p, q⟩, ts, f⟩ := by
    rcases other with ⟨name, h⟩ | h <;> cases h <;> rfl
  rw [before, firstOf_none island]
  rcases other with ⟨name, h⟩ | h <;> cases h <;> rfl

theorem stays_argumentParts (k m : Nat) (parts : List FilterArg) :
    J.Stays (argumentParts nested (islandNested nested k) m parts) := by
  cases m with
  | zero => exact stays_of_ok rfl
  | succ m =>
    apply Stuck.stays
    apply stuck_kind
    intro a c₁ outcome
    have value : argumentValue nested (islandNested nested k) J.edge = .ok (none, J.edge) :=
      argumentValue_none (.inr J.ends) k
    have more : endsArgument .eof = false := rfl
    rw [more, if_neg Bool.false_ne_true, bind_of_ok value, edge_eq] at outcome
    cases outcome

/-- A name at the end of the expression is free text, with nothing behind it. -/
theorem argumentParts_name {k : Nat} (some_ : 0 < m) (parts : List FilterArg) (t : Token)
    (name : String) (kind_eq : t.kind = .identifier name) (b : List FilterArg) (c₂ : Cursor)
    (outcome : argumentParts nested (islandNested nested k) m parts ⟨t, [J.last], none⟩ =
      .ok (b, c₂)) : c₂ = J.edge := by
  obtain ⟨m, rfl⟩ := Nat.exists_eq_add_one_of_ne_zero (Nat.ne_of_gt some_)
  obtain ⟨_, raw, p, q⟩ := t
  cases kind_eq
  have shown : kind ⟨⟨.identifier name, raw, p, q⟩, [J.last], none⟩ =
      .ok (.identifier name, ⟨⟨.identifier name, raw, p, q⟩, [J.last], none⟩) := rfl
  have value : argumentValue nested (islandNested nested k)
      ⟨⟨.identifier name, raw, p, q⟩, [J.last], none⟩ =
      .ok (none, ⟨⟨.identifier name, raw, p, q⟩, [J.last], none⟩) :=
    argumentValue_none (.inl ⟨name, rfl⟩) k
  have more : endsArgument (.identifier name) = false := rfl
  rw [argumentParts, bind_of_ok shown, more, if_neg Bool.false_ne_true, bind_of_ok value] at outcome
  exact stays_argumentParts k m _ b c₂ outcome

end Filters

section Arguments

variable (deeper : J.Deeper nested nested') {k k' : Nat}
  (islands : J.Follows Live (J.exact Found) n (islandNested nested k) (islandNested nested' k'))
include deeper islands

theorem argumentValue_follows (le : s ≤ n) :
    J.Follows Live (J.exact Found) s (argumentValue nested (islandNested nested k))
      (argumentValue nested' (islandNested nested' k')) := by
  apply firstOf_follows fun _ _ => exact_found
  exact .cons literal_follows (.cons number_follows (.cons text_follows
    (.cons (template_follows deeper) (.cons (array_follows deeper) (.cons (islands.narrow le)
      (.cons (object_follows deeper) .nil))))))

theorem argumentParts_follows (hk : n ≤ k) (le : s ≤ n) (hm : s ≤ m) (hm' : s ≤ m')
    (parts : List FilterArg) :
    J.Follows Any free s (argumentParts nested (islandNested nested k) m parts)
      (argumentParts nested' (islandNested nested' k') m' parts) := by
  refine Follows.loopOn (fun r m m' lt enough ih parts => ?_) hm hm' parts
  refine .settle_free ?_ (stays_argumentParts k _ parts)
  rw [argumentParts, argumentParts]
  refine .bind_kind fun kind => ?_
  by_cases ends : endsArgument kind = true
  · simp only [if_pos ends]
    exact .result _ fun _ => On.live
  · simp only [if_neg ends]
    refine Follows.on ?_ fun _ => On.live
    apply (argumentValue_follows deeper islands (show r + 1 ≤ n by omega)).bind_found
    · intro ts c c' a c₁ ahead short outcome
      refine argumentValue_shorter deeper.uniform ahead.toNear.same ?_ outcome
      rw [ahead.shows.length_eq, List.length_nil]
      omega
    · exact fun e => ih (.expr e :: parts)
    · refine .bind_current fun t t' alike => ?_
      rw [alike.kind, alike.text]
      by_cases free : isFreeText t.kind = true
      · simp only [if_pos free]
        refine .take_any (ih _) fun more t t' name _ kind_eq b c₂ outcome => ?_
        exact .inr ⟨argumentParts_name (by omega) _ t name kind_eq b c₂ outcome, trivial⟩
      · simp only [if_neg free]
        exact .fails

theorem arguments_follows (hk : n ≤ k) (le : s ≤ n) (hm : s ≤ m) (hm' : s ≤ m') :
    J.Follows Any free s (arguments nested (islandNested nested k) m)
      (arguments nested' (islandNested nested' k') m') := by
  refine Follows.loop (fun r m m' lt _ ih => ?_) hm hm'
  refine .settle_free ?_ (stays_of_ok (by rw [edge_eq]; rfl))
  rw [arguments, arguments]
  apply Follows.branch
  · apply Follows.take_symbol (by decide)
    apply skipBlanks_follows.bind_free
    intro _
    apply Follows.bind_remaining
    intro l j j' small hj hj'
    have small : l ≤ r := small
    apply (argumentParts_follows deeper islands hk (by omega) hj hj' []).bind_free
    intro parts
    exact (ih.narrow small).bind_free fun args => found_free (argument parts :: args)
  · exact .result_live []

omit deeper islands in
theorem filterName_follows : J.Follows Any free n filterName filterName := by
  refine .settle_free ?_ (stuck_kind stuck_fatal).stays
  refine .bind_kind fun k => ?_
  cases k with
  | identifier name => exact .take_kind rfl (found_free name)
  | _ => exact .fails

theorem filterCalls_follows (hk : n ≤ k) (le : s ≤ n) (hm : s ≤ m) (hm' : s ≤ m') :
    J.Follows Any free s (filterCalls nested (islandNested nested k) m)
      (filterCalls nested' (islandNested nested' k') m') := by
  refine Follows.loop (fun r m m' lt _ ih => ?_) hm hm'
  refine .settle_free ?_ (stays_of_ok (by rw [edge_eq]; rfl))
  rw [filterCalls, filterCalls]
  refine .bind_kind fun kind => ?_
  by_cases opens : (kind == .openFilter) = true
  · simp only [if_pos opens]
    obtain rfl := Pairing.eq_of_beq_openFilter opens
    apply Follows.take_kind rfl
    apply skipBlanks_follows.bind_free
    intro _
    apply filterName_follows.bind_free
    intro name
    apply skipBlanks_follows.bind_free
    intro _
    apply Follows.bind_remaining
    intro l j j' small hj hj'
    have small : l ≤ r := small
    apply (arguments_follows deeper islands hk (by omega) hj hj').bind_free
    intro args
    exact (ih.narrow small).bind_free fun calls => found_free (.mk name args :: calls)
  · simp only [if_neg opens]
    exact .result [] fun _ => On.live

theorem piped_follows (hk : n ≤ k) :
    J.Follows Live free n (piped nested (islandNested nested k))
      (piped nested' (islandNested nested' k')) := by
  apply (Follows.freely (deeper.follows .expression n)).bind_free
  intro e
  cases e with
  | none => exact found_free none
  | some e =>
    apply Follows.bind_remaining
    intro l j j' small hj hj'
    apply (filterCalls_follows deeper islands hk small hj hj').bind_free
    intro calls
    cases calls <;> exact found_free _

omit islands in
theorem blank_piped (k : Nat) : J.Blank (piped nested (islandNested nested k)) := by
  intro a c₁ outcome
  rw [piped, bind_apply] at outcome
  rcases first : nested .expression J.edge with e | ⟨_ | e, c₂⟩
  · rw [first] at outcome
    cases outcome
  · rw [first] at outcome
    cases outcome
  · exact deeper.blank .expression e c₂ first

end Arguments

theorem islandNested_follows (deeper : J.Deeper nested nested') (hm : s ≤ m) (hm' : s ≤ m') :
    J.Follows Live (J.exact Found) s (islandNested nested m) (islandNested nested' m') := by
  refine Follows.loop (fun r m m' _ enough ih => ?_) hm hm'
  have body : J.Follows Any free r (required (piped nested (islandNested nested m)))
      (required (piped nested' (islandNested nested' m'))) := by
    refine .settle_free ?_ (blank_piped deeper m).required.stays
    apply (piped_follows deeper ih enough).bind_free
    intro e
    cases e with
    | none => exact .fails
    | some e => exact found_free e
  change J.Follows Live (J.exact Found) (r + 1) (islandWith nested (islandNested nested m))
    (islandWith nested' (islandNested nested' m'))
  unfold islandWith
  refine .bind_kind fun k => ?_
  by_cases opens : (k == .openIsland) = true
  · simp only [if_pos opens]
    obtain rfl := Pairing.eq_of_beq_openIsland opens
    apply Follows.take_kind rfl
    apply body.bind_stuck
    · intro e
      refine .bind_kind fun k => ?_
      by_cases closes : (k == .closeIsland) = true
      · simp only [if_pos closes]
        obtain rfl := Pairing.eq_of_beq_closeIsland closes
        exact .take_kind rfl closes_some
      · simp only [if_neg closes]
        exact .fails
    · exact fun e => stuck_kind stuck_fatal
  · simp only [if_neg opens]
    exact .result none fun _ => On.live

theorem island_follows (deeper : J.Deeper nested nested') :
    J.Follows Live (J.exact Found) n (island nested) (island nested') := by
  apply Follows.bind_remaining
  intro s m m' _ hm hm'
  exact islandNested_follows deeper hm hm'

end TemplateFormula.Parser.Seam
