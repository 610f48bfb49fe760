import TemplateFormula.Proofs.Continuing.Cursors

/-!
# Operands in a text that goes on

An operand that closes itself is read in the same way whatever stands behind it: its last token is
taken before what follows comes into view. Where the expression ends inside of it, it fails.
-/

namespace TemplateFormula.Parser

/-- How tightly operators bind that may be left behind what is parsed one level deeper. -/
def Goal.bound : Goal → Nat
  | .expression => 1
  | .operand => BinaryOp.maxPrecedence + 1

namespace Seam

variable {J : Seam} {n s m m' : Nat} {α β : Type}

section Ends

/-- The parser finds nothing at the end of the expression alone. -/
def Blank (J : Seam) (p : Parser (Option α)) : Prop := ∀ a c₁, p J.edge ≠ .ok (some a, c₁)

theorem Stuck.bind {p : Parser α} (h : J.Stuck p) (f : α → Parser β) : J.Stuck (p >>= f) := by
  intro b c₂ outcome
  rw [bind_apply] at outcome
  rcases first : p J.edge with e | ⟨a, c₁⟩
  · rw [first] at outcome
    cases outcome
  · exact h a c₁ first

theorem stuck_fatal : J.Stuck (fatal : Parser α) := by
  rintro a c₁ ⟨⟩

theorem stuck_branch {symbol : String} {q r : Parser α} (h : J.Stuck r) :
    J.Stuck (check symbol >>= fun b => if b then q else r) := by
  intro a c₁ outcome
  rw [bind_of_ok (check_edge symbol)] at outcome
  exact h a c₁ outcome

theorem stuck_kind {f : TokenKind → Parser α} (h : J.Stuck (f .eof)) : J.Stuck (kind >>= f) := by
  intro a c₁ outcome
  rw [bind_of_ok kind_edge] at outcome
  exact h a c₁ outcome

theorem stuck_remaining {f : Nat → Parser α} (h : J.Stuck (f 1)) : J.Stuck (remaining >>= f) :=
  h

theorem stuck_expect (symbol : String) : J.Stuck (expect symbol) := stuck_branch stuck_fatal

theorem Blank.required {p : Parser (Option α)} (h : J.Blank p) : J.Stuck (required p) := by
  intro a c₁ outcome
  rw [Parser.required, bind_apply] at outcome
  rcases first : p J.edge with e | ⟨_ | b, c₂⟩
  · rw [first] at outcome
    cases outcome
  · rw [first] at outcome
    cases outcome
  · exact h b c₂ first

theorem blank_of_none {p : Parser (Option α)} (h : p J.edge = .ok (none, J.edge)) :
    J.Blank p := by
  intro a c₁ outcome
  rw [h] at outcome
  cases outcome

theorem stays_of_ok {p : Parser α} {a : α} (h : p J.edge = .ok (a, J.edge)) : J.Stays p := by
  intro b c₁ outcome
  rw [h] at outcome
  cases outcome
  rfl

theorem Stuck.stays {p : Parser α} (h : J.Stuck p) : J.Stays p :=
  fun a c₁ outcome => absurd outcome (h a c₁)

end Ends

section Choices

variable {L : List Token → Prop}

theorem Follows.required {p p' : Parser (Option α)} (h : J.Follows L (J.exact Found) n p p') :
    J.Follows L (J.exact Whole) n (required p) (required p') := by
  apply h.bind_exact
  · intro a
    cases a with
    | none => exact .fails
    | some a => exact .result_live a
  · intro a found
    cases a with
    | none => exact absurd rfl found
    | some a => exact Follows.at_end (n := 1) (.closes trivial) Nat.one_pos

theorem Follows.required_rests {b : Nat} {p p' : Parser (Option α)}
    (h : J.Follows L (J.rests b Found) n p p') :
    J.Follows L (J.rests b Whole) n (Parser.required p) (Parser.required p') := by
  apply h.bind
  · intro a
    cases a with
    | none => exact .fails
    | some a => exact .result_live a
  · rintro a c' ⟨found, a', c₁, outcome', found', rest⟩
    obtain ⟨e, rfl⟩ := Option.ne_none_iff_exists'.1 found
    obtain ⟨e', rfl⟩ := Option.ne_none_iff_exists'.1 found'
    rw [bind_of_ok outcome']
    rintro _ _ ⟨⟩
    refine .inr ⟨rfl, trivial, e', c₁, rfl, trivial, ?_⟩
    rcases rest with ⟨same, rest⟩ | beyond
    · exact .inl ⟨Option.some.inj same, rest⟩
    · exact .inr beyond

theorem firstOf_follows {F : Fate (Option Expr)} {ps ps' : List (Parser (Option Expr))}
    (found : ∀ a r', F a r' → a ≠ none ∧ ∃ e c₁, r' = .ok (some e, c₁))
    (each : List.Forall₂ (J.Follows Live F n) ps ps') :
    J.Follows Live F n (firstOf ps) (firstOf ps') := by
  induction each with
  | nil => exact .result_live none
  | @cons p p' _ _ first _ ih =>
    apply first.bind
    · intro a
      cases a with
      | none => exact ih
      | some e => exact .result_live (some e)
    · intro a c' fate
      obtain ⟨some_, e', c₁, outcome'⟩ := found a _ fate
      obtain ⟨e, rfl⟩ := Option.ne_none_iff_exists'.1 some_
      rw [bind_of_ok outcome']
      rintro _ _ ⟨⟩
      rw [outcome'] at fate
      exact .inr ⟨rfl, fate⟩

theorem exact_found {a : Option Expr} {r' : Except ParseError (Option Expr × Cursor)}
    (h : J.exact Found a r') : a ≠ none ∧ ∃ e c₁, r' = .ok (some e, c₁) := by
  obtain ⟨found, rfl⟩ := h
  obtain ⟨e, rfl⟩ := Option.ne_none_iff_exists'.1 found
  exact ⟨found, e, J.here, rfl⟩

end Choices

section Atoms

theorem closes_some {a : α} : J.Follows Any (J.exact Found) n (pure (some a)) (pure (some a)) :=
  .closes (Option.some_ne_none a)

theorem literal_follows : J.Follows Live (J.exact Found) n literal literal := by
  refine .bind_kind fun k => ?_
  cases k with
  | boolean b => exact .take_kind rfl closes_some
  | null => exact .take_kind rfl closes_some
  | undefined => exact .take_kind rfl closes_some
  | _ => exact .result none fun _ => On.live

theorem number_follows : J.Follows Live (J.exact Found) n number number := by
  refine .bind_kind fun k => ?_
  cases k with
  | number x => exact .take_kind rfl closes_some
  | _ => exact .result none fun _ => On.live

theorem text_follows : J.Follows Live (J.exact Found) n text text := by
  refine .bind_kind fun k => ?_
  cases k with
  | text s => exact .take_kind rfl closes_some
  | _ => exact .result none fun _ => On.live

theorem identifier_follows : J.Follows Live (J.exact Found) n identifier identifier := by
  refine .bind_current fun t t' alike => ?_
  rw [alike.kind, alike.text]
  cases t.kind with
  | identifier name => exact .take_kind rfl closes_some
  | boolean b => exact .take_kind rfl closes_some
  | null => exact .take_kind rfl closes_some
  | undefined => exact .take_kind rfl closes_some
  | _ => exact .result none fun _ => On.live

/-- A symbol that has to stand here, and what follows it. -/
theorem Follows.expects {F : Fate β} {symbol : String} (plain : symbol ≠ ".")
    {f f' : PUnit → Parser β} (next : J.Follows Any F n (f ⟨⟩) (f' ⟨⟩)) :
    J.Follows Any F n (expect symbol >>= f) (expect symbol >>= f') := by
  refine .settle ?_ ((stuck_expect symbol).bind f)
  intro ts c c' ahead live short
  obtain ⟨t, us, rfl⟩ := List.exists_cons_of_ne_nil live
  have step : J.Follows Live F n
      (check symbol >>= fun b => if b then advance >>= f else fatal)
      (check symbol >>= fun b => if b then advance >>= f' else fatal) :=
    .branch (.take_symbol plain (next.narrow (Nat.sub_le n 1))) .fails
  have spread (g : PUnit → Parser β) (c : Cursor) : (expect symbol >>= g) c =
      (check symbol >>= fun b => if b then advance >>= g else fatal) c := by
    change (if c.current.kind.isPunctuator symbol then advance else fatal : Parser PUnit) c >>= _ =
      (if c.current.kind.isPunctuator symbol then advance >>= g else fatal : Parser β) c
    split <;> rfl
  rw [spread, spread]
  exact step _ c c' ahead live short

end Atoms

/-- What is parsed one level deeper is followed. -/
structure Deeper (J : Seam) (nested nested' : Nested) : Prop where
  follows : ∀ g n, J.Follows Live (J.rests g.bound Found) n (nested g) (nested' g)
  blank : ∀ g, J.Blank (nested g)
  uniform : Uniform nested

section Lists

variable {nested nested' : Nested} (deeper : J.Deeper nested nested')
include deeper

theorem stuck_expression : J.Stuck (expression nested) := (deeper.blank .expression).required

theorem expression_follows :
    J.Follows Any (J.rests 1 Whole) n (expression nested) (expression nested') :=
  (Follows.required_rests (deeper.follows .expression n)).settle (stuck_expression deeper)

theorem members_follows {closing : String} (plain : closing ≠ ".") (hm : s ≤ m) (hm' : s ≤ m') :
    J.Follows Any (J.exact Whole) s (members nested closing m) (members nested' closing m') := by
  refine Follows.loop (fun s m m' _ _ ih => ?_) hm hm'
  rw [members, members]
  apply (expression_follows deeper).bind_stuck
  · intro e
    apply Follows.branch
    · exact .take_symbol (by decide) (ih.map (e :: ·) fun _ _ => trivial)
    · exact .branch (.take_symbol plain (.closes trivial)) .fails
  · exact fun e => stuck_branch (stuck_branch stuck_fatal)

theorem list_follows {opening closing : String} (plain : opening ≠ "." ∧ closing ≠ ".") :
    J.Follows Live (J.exact Found) n (list nested opening closing)
      (list nested' opening closing) := by
  apply Follows.branch
  · apply Follows.take_symbol plain.1
    apply Follows.settle
    · apply Follows.branch
      · exact .take_symbol plain.2 closes_some
      · apply Follows.bind_remaining
        intro s m m' _ hm hm'
        exact ((members_follows deeper plain.2 hm hm').map some fun es _ =>
          Option.some_ne_none es).on fun _ _ => trivial
    · exact stuck_branch (stuck_remaining ((stuck_expression deeper).bind _ |>.bind _))
  · exact .result_live none

theorem array_follows : J.Follows Live (J.exact Found) n (array nested) (array nested') := by
  refine (list_follows deeper ⟨by decide, by decide⟩).map (·.map Expr.array) fun es found => ?_
  obtain ⟨es, rfl⟩ := Option.ne_none_iff_exists'.1 found
  exact Option.some_ne_none _

/-- What a list in parentheses stands for. -/
def group : Option (List Expr) → Option Expr
  | none => none
  | some [e] => some e
  | some es => some (.sequence es)

omit deeper in
theorem parenthesized_eq (nested : Nested) :
    parenthesized nested = (do return group (← list nested "(" ")")) := by
  unfold parenthesized
  congr
  funext es
  match es with
  | none => rfl
  | some [] => rfl
  | some [e] => rfl
  | some (e :: e' :: es) => rfl

theorem parenthesized_follows :
    J.Follows Live (J.exact Found) n (parenthesized nested) (parenthesized nested') := by
  rw [parenthesized_eq, parenthesized_eq]
  refine (list_follows deeper ⟨by decide, by decide⟩).map group fun es found => ?_
  match es with
  | none => exact absurd rfl found
  | some [] => exact Option.some_ne_none _
  | some [e] => exact Option.some_ne_none _
  | some (e :: e' :: es) => exact Option.some_ne_none _

theorem bracketed_follows :
    J.Follows Live (J.exact Found) n (bracketed nested) (bracketed nested') := by
  apply Follows.branch
  · apply Follows.take_symbol (by decide)
    apply (expression_follows deeper).bind_stuck
    · intro e
      exact (Follows.expects (by decide) closes_some).on fun _ _ => trivial
    · exact fun e => (stuck_expect "]").bind _
  · exact .result_live none

theorem objectKey_follows :
    J.Follows Live (J.exact Whole) n (objectKey nested) (objectKey nested') :=
  (firstOf_follows (fun _ _ => exact_found) (.cons identifier_follows (.cons text_follows
    (.cons number_follows (.cons (bracketed_follows deeper) .nil))))).required

omit deeper in
theorem stuck_objectKey : J.Stuck (objectKey nested) :=
  Blank.required (blank_of_none (by rw [edge_eq]; rfl))

theorem objectMembers_follows (hm : s ≤ m) (hm' : s ≤ m') :
    J.Follows Any (J.exact Whole) s (objectMembers nested m) (objectMembers nested' m') := by
  refine Follows.loop (fun s m m' _ _ ih => ?_) hm hm'
  rw [objectMembers, objectMembers]
  refine .settle ?_ (stuck_objectKey.bind _)
  apply (objectKey_follows deeper).bind_any
  intro key
  apply Follows.expects (by decide)
  apply (expression_follows deeper).bind_stuck
  · intro value
    apply Follows.branch
    · exact .take_symbol (by decide) (ih.map ((key, value) :: ·) fun _ _ => trivial)
    · exact .branch (.take_symbol (by decide) (.closes trivial)) .fails
  · exact fun value => stuck_branch (stuck_branch stuck_fatal)

theorem object_follows : J.Follows Live (J.exact Found) n (object nested) (object nested') := by
  apply Follows.branch
  · apply Follows.take_symbol (by decide)
    apply Follows.settle
    · apply Follows.branch
      · exact .take_symbol (by decide) closes_some
      · apply Follows.bind_remaining
        intro s m m' _ hm hm'
        exact ((objectMembers_follows deeper hm hm').map (fun ms => some (Expr.object ms))
          fun ms _ => Option.some_ne_none _).on fun _ _ => trivial
    · exact stuck_branch (stuck_remaining (stuck_objectKey.bind _ |>.bind _))
  · exact .result_live none

omit deeper in
theorem stuck_templateParts (m : Nat) : J.Stuck (templateParts nested (m + 1)) :=
  stuck_branch (stuck_kind stuck_fatal)

theorem templateParts_follows (hm : s ≤ m) (hm' : s ≤ m') :
    J.Follows Any (J.exact Whole) s (templateParts nested m) (templateParts nested' m') := by
  refine Follows.loop (fun s m m' _ _ ih => ?_) hm hm'
  refine .settle ?_ (stuck_templateParts m)
  rw [templateParts, templateParts]
  apply Follows.branch
  · exact .take_symbol (by decide) (.closes trivial)
  · refine .bind_kind fun k => ?_
    cases k with
    | openHole =>
      apply Follows.take_kind rfl
      apply (expression_follows deeper).bind_stuck
      · intro e
        refine .bind_kind fun k => ?_
        by_cases closes : (k == .closeHole) = true
        · simp only [if_pos closes]
          have plain : k.isPunctuator "." = false := by cases k <;> first | rfl | cases closes
          apply Follows.take_kind plain
          exact (ih.narrow (Nat.sub_le s 1)).map (e :: ·) fun _ _ => trivial
        · simp only [if_neg closes]
          exact .fails
      · exact fun e => stuck_kind stuck_fatal
    | templateRaw s =>
      exact .take_kind rfl (ih.map (.templateRaw s :: ·) fun _ _ => trivial)
    | _ => exact .fails

theorem template_follows :
    J.Follows Live (J.exact Found) n (template nested) (template nested') := by
  apply Follows.branch
  · apply Follows.take_symbol (by decide)
    apply Follows.bind_remaining
    intro s m m' _ hm hm'
    exact (templateParts_follows deeper hm hm').map (fun parts => some (Expr.template parts))
      fun parts _ => Option.some_ne_none _
  · exact .result_live none

end Lists

end Seam

end TemplateFormula.Parser
