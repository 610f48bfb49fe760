import TemplateFormula.Proofs.Continuing.Islands
import TemplateFormula.Proofs.Parsing.Expressions

/-!
# Names, calls and arrows in a text that goes on

Parsers that go back if they do not match may look beyond the end of the expression. A list of
parameters may even end there, at the parenthesis that follows, but then there is no arrow behind
it.
-/

namespace TemplateFormula.Parser.Seam

variable {J : Seam} {n s m m' : Nat} {α β : Type} {L : List Token → Prop}

section Fates

/-- With a match the second cursor stands at what follows; without one neither parser matches. -/
def loose : Fate (Option α) := fun o r' =>
  (o ≠ none ∧ r' = .ok (o, J.here)) ∨ (o = none ∧ ∃ c', r' = .ok (none, c'))

/-- The same for parameters, but a match of the second parser alone leaves no arrow. -/
def unsure : Fate (Option α) := fun o r' =>
  (o ≠ none ∧ r' = .ok (o, J.here)) ∨ (o = none ∧ ∃ o' c', r' = .ok (o', c') ∧
    (o' ≠ none → c'.current.kind.isPunctuator "=" = false))

theorem exact_loose {o : Option α} {r' : Except ParseError (Option α × Cursor)}
    (h : J.exact Found o r') : J.loose o r' := .inl h

theorem exact_unsure {o : Option α} {r' : Except ParseError (Option α × Cursor)}
    (h : J.exact Found o r') : J.unsure o r' := .inl h

theorem Follows.loosely {p p' : Parser (Option α)} (h : J.Follows Live J.loose n p p')
    (none_ : p J.edge = .ok (none, J.edge)) (none_' : p' J.here = .ok (none, J.here)) :
    J.Follows Any J.loose n p p' := by
  refine h.ends fun a c₁ outcome => ?_
  rw [none_] at outcome
  cases outcome
  exact .inr ⟨rfl, .inr ⟨rfl, J.here, none_'⟩⟩

theorem Follows.map_loose {p p' : Parser (Option α)} (h : J.Follows L J.loose n p p') (g : α → β) :
    J.Follows L J.loose n (do return (← p).map g) (do return (← p').map g) := by
  refine Follows.bind h (fun o => .result_live _) ?_
  rintro o c' (⟨found, outcome'⟩ | ⟨rfl, c₁', outcome'⟩) <;> rw [bind_of_ok outcome'] <;>
    rintro _ _ ⟨⟩
  · obtain ⟨a, rfl⟩ := Option.ne_none_iff_exists'.1 found
    exact .inr ⟨rfl, .inl ⟨Option.some_ne_none _, rfl⟩⟩
  · exact .inr ⟨rfl, .inr ⟨rfl, c₁', rfl⟩⟩

theorem Follows.map_unsure {p p' : Parser (Option α)} (h : J.Follows L J.unsure n p p')
    (g : α → β) : J.Follows L J.unsure n (do return (← p).map g) (do return (← p').map g) := by
  refine Follows.bind h (fun o => .result_live _) ?_
  rintro o c' (⟨found, outcome'⟩ | ⟨rfl, o', c₁', outcome', plain⟩) <;> rw [bind_of_ok outcome'] <;>
    rintro _ _ ⟨⟩
  · obtain ⟨a, rfl⟩ := Option.ne_none_iff_exists'.1 found
    exact .inr ⟨rfl, .inl ⟨Option.some_ne_none _, rfl⟩⟩
  · refine .inr ⟨rfl, .inr ⟨rfl, o'.map g, c₁', rfl, fun found => plain fun missing => ?_⟩⟩
    rw [missing] at found
    exact found rfl

/-- Going back without a match leaves tokens. -/
theorem Follows.backtrack {p p' : Parser (Option α)} (h : J.Follows L J.loose n p p')
    (live : ∀ ts, L ts → Live ts) : J.Follows L (J.exact Found) n (attempt p) (attempt p') := by
  intro ts c c' ahead on short o c₁ outcome
  have first := h ts c c' ahead on short
  have back : ∃ us c₁', us ≠ [] ∧ us.length ≤ ts.length ∧ J.Ahead us c c₁' ∧
      (.ok (none, c') : Except ParseError (Option α × Cursor)) = .ok (none, c₁') :=
    ⟨ts, c', live ts on, Nat.le_refl _, ahead, rfl⟩
  rw [attempt_apply] at outcome
  rw [attempt_apply]
  rcases here : p c with e | ⟨_ | a, c₂⟩
  · rw [here] at outcome
    cases outcome
  · rw [here] at outcome
    cases outcome
    rcases first none c₂ here with ⟨us, c₂', -, -, -, outcome'⟩ | ⟨-, fate⟩
    · rw [outcome']
      exact .inl back
    · rcases fate with ⟨found, -⟩ | ⟨-, c₂', outcome'⟩
      · exact absurd rfl found
      · rw [outcome']
        exact .inl back
  · rw [here] at outcome
    cases outcome
    rcases first (some a) c₁ here with ⟨us, c₂', some_, le, ahead₂, outcome'⟩ | ⟨ended, fate⟩
    · rw [outcome']
      exact .inl ⟨us, c₂', some_, le, ahead₂, rfl⟩
    · rcases fate with ⟨found, outcome'⟩ | ⟨missing, -⟩
      · rw [outcome']
        exact .inr ⟨ended, found, rfl⟩
      · cases missing

end Fates

section Arrows

theorem arrowSign_follows (params : List String) :
    J.Follows Any J.loose n (arrowSign params) (arrowSign params) := by
  have sign : J.Follows Live (J.exact Found) n
      (do if ← check ">" then advance; return some params else return none)
      (do if ← check ">" then advance; return some params else return none) :=
    .branch (.take_symbol (by decide) closes_some) (.result_live none)
  refine Follows.loosely ?_ (by rw [edge_eq]; rfl) ?_
  · apply Follows.branch
    · apply Follows.take_symbol (by decide)
      refine Follows.loosely ?_ (by rw [edge_eq]; rfl) ?_
      · exact Follows.narrow (sign.mono fun _ _ => exact_loose) (Nat.sub_le n 1)
      · rw [bind_of_ok (check_here_of_ne (by decide))]
        rfl
    · exact .result_live none
  · rw [arrowSign, bind_of_ok (check_here_of_ne (by decide))]
    rfl

theorem arrowSign_none {c : Cursor} (plain : c.current.kind.isPunctuator "=" = false)
    (params : List String) : arrowSign params c = .ok (none, c) := by
  have shown : check "=" c = .ok (false, c) := by rw [← plain]; rfl
  rw [arrowSign, bind_of_ok shown]
  rfl

/-- At the end of the expression parameters may go on with the parenthesis that follows. -/
theorem parameters_here (expectName : Bool) : ∃ o' c',
    parameters (m + 1) expectName J.here = .ok (o', c') ∧
      (o' ≠ none → c'.current.kind.isPunctuator "=" = false) := by
  obtain ⟨last, ⟨k, raw, p, q⟩, more, names, ends, stops⟩ := J
  cases stops with
  | text kind =>
    cases kind
    exact ⟨none, _, by cases expectName <;> rfl, fun found => absurd rfl found⟩
  | bracket kind plain =>
    cases kind
    exact ⟨some [], _, rfl, fun _ => plain⟩
  | colon _ kind =>
    cases kind
    exact ⟨none, _, by cases expectName <;> rfl, fun found => absurd rfl found⟩
  | minus kind _ _ =>
    cases kind
    exact ⟨none, _, by cases expectName <;> rfl, fun found => absurd rfl found⟩

theorem parameters_edge (expectName : Bool) :
    parameters (m + 1) expectName J.edge = .ok (none, J.edge) := by
  rw [edge_eq]
  cases expectName <;> rfl

theorem parameters_follows (hm : s ≤ m) (hm' : s ≤ m') (expectName : Bool) :
    J.Follows Any J.unsure s (parameters m expectName) (parameters m' expectName) := by
  refine Follows.loopOn (fun r m m' _ _ ih expectName => ?_) hm hm' expectName
  refine Follows.ends ?_ ?_
  · rw [parameters, parameters]
    apply Follows.branch
    · exact .take_symbol (by decide) (closes_some.mono fun _ _ => exact_unsure)
    · refine .bind_kind fun k => ?_
      cases k with
      | identifier name =>
        by_cases expects : expectName = true
        · simp only [if_pos expects]
          exact .take_kind rfl ((ih false).map_unsure (name :: ·))
        · simp only [if_neg expects]
          exact .result none fun _ => On.live
      | punctuator symbol =>
        by_cases next : (!expectName && (TokenKind.punctuator symbol).isPunctuator ",") = true
        · simp only [if_pos next]
          obtain rfl := beq_iff_eq.1 (Bool.and_eq_true_iff.1 next).2
          exact .take_kind rfl (ih true)
        · simp only [if_neg next]
          exact .result none fun _ => On.live
      | _ =>
        simp only [TokenKind.isPunctuator, Bool.and_false, Bool.false_eq_true, if_false]
        exact .result none fun _ => On.live
  · intro o c₁ outcome
    rw [parameters_edge] at outcome
    cases outcome
    exact .inr ⟨rfl, .inr ⟨rfl, parameters_here expectName⟩⟩

/-- Parameters in parentheses, behind the one that opens. -/
def openParameters : Parser (Option (List String)) := do parameters (← remaining) true

/-- An arrow behind parameters. -/
def arrowBehind : Option (List String) → Parser (Option (List String))
  | some params => arrowSign params
  | none => return none

theorem openParameters_follows : J.Follows Any J.unsure n openParameters openParameters := by
  apply Follows.bind_remaining
  intro s m m' _ hm hm'
  exact parameters_follows hm hm' true

theorem arrowBehind_follows :
    J.Follows Any J.loose n (openParameters >>= arrowBehind) (openParameters >>= arrowBehind) := by
  apply openParameters_follows.bind
  · intro params
    cases params with
    | some params => exact (arrowSign_follows params).on fun _ _ => trivial
    | none => exact .result_live none
  · rintro o c' (⟨found, outcome'⟩ | ⟨rfl, o', c₁', outcome', plain⟩) <;> rw [bind_of_ok outcome']
    · obtain ⟨params, rfl⟩ := Option.ne_none_iff_exists'.1 found
      exact Follows.at_end (n := 1) (arrowSign_follows params) Nat.one_pos
    · rintro _ _ ⟨⟩
      refine .inr ⟨rfl, .inr ⟨rfl, c₁', ?_⟩⟩
      cases o' with
      | none => rfl
      | some params => exact arrowSign_none (plain (Option.some_ne_none _)) params

section Heads

variable {c : Cursor}

theorem parameterList_apply (opens : c.current.kind.isPunctuator "(" = true) :
    parameterList c = attempt (do advance; openParameters) c := by
  have shown : check "(" c = .ok (true, c) := by rw [← opens]; rfl
  rw [parameterList, attempt_apply, attempt_apply, bind_of_ok shown]
  rfl

theorem parameterList_none (other : c.current.kind.isPunctuator "(" = false) :
    parameterList c = .ok (none, c) := by
  have shown : check "(" c = .ok (false, c) := by rw [← other]; rfl
  rw [parameterList, attempt_apply, bind_of_ok shown]
  rfl

theorem parameter_none (other : ∀ name, c.current.kind ≠ .identifier name) :
    parameter c = .ok (none, c) := by
  have shown : kind c = .ok (c.current.kind, c) := rfl
  rw [parameter, bind_of_ok shown]
  cases kind_eq : c.current.kind with
  | identifier name => exact absurd kind_eq (other name)
  | _ => rfl

/-- The arrow behind parameters in parentheses, or else behind a single one. -/
def arrowAfter : Option (List String) → Parser (Option (List String))
  | some params => arrowSign params
  | none => parameter >>= arrowBehind

theorem arrowHead_eq : arrowHead = attempt (parameterList >>= arrowAfter) := by
  unfold arrowHead
  congr
  funext o
  cases o with
  | some params => rfl
  | none =>
    refine congrArg (parameter >>= ·) (funext fun o => ?_)
    cases o <;> rfl

theorem arrowHead_name {name : String} (kind_eq : c.current.kind = .identifier name) :
    arrowHead c = attempt (do advance; arrowSign [name]) c := by
  have none_ : parameterList c = .ok (none, c) := parameterList_none (by rw [kind_eq]; rfl)
  have shown : kind c = .ok (.identifier name, c) := by rw [← kind_eq]; rfl
  have parameter_eq : parameter c = (do advance; return some [name] : Parser _) c := by
    rw [parameter, bind_of_ok shown]
  rw [arrowHead_eq, attempt_apply, attempt_apply, bind_of_ok none_, arrowAfter, bind_apply,
    parameter_eq, bind_apply, bind_apply]
  cases advance c <;> rfl

theorem arrowHead_opens (opens : c.current.kind.isPunctuator "(" = true) :
    arrowHead c = attempt (do advance; openParameters >>= arrowBehind) c := by
  have other : parameter c = .ok (none, c) := parameter_none fun name kind_eq => by
    rw [kind_eq] at opens
    cases opens
  have spread : (do advance; openParameters >>= arrowBehind : Parser _) c =
      ((do advance; openParameters) >>= arrowBehind) c := by rw [bind_assoc]
  rw [arrowHead_eq, attempt_apply, attempt_apply, spread, bind_apply, parameterList_apply opens,
    attempt_apply, bind_apply _ arrowBehind]
  rcases (do advance; openParameters : Parser _) c with e | ⟨_ | params, c₁⟩
  · rfl
  · dsimp only
    rw [arrowAfter, bind_of_ok other]
    rfl
  · rfl

theorem arrowHead_none (other : ∀ name, c.current.kind ≠ .identifier name)
    (closed : c.current.kind.isPunctuator "(" = false) : arrowHead c = .ok (none, c) := by
  rw [arrowHead_eq, attempt_apply, bind_of_ok (parameterList_none closed), arrowAfter,
    bind_of_ok (parameter_none other)]
  rfl

end Heads

theorem arrowHead_follows : J.Follows Live (J.exact Found) n arrowHead arrowHead := by
  intro ts c c' ahead live short
  obtain ⟨t, ts, rfl⟩ := List.exists_cons_of_ne_nil live
  obtain ⟨here, alike⟩ := ahead.current
  have kind_eq : c'.current.kind = c.current.kind := by rw [here, alike.kind]
  by_cases named : ∃ name, c.current.kind = .identifier name
  · obtain ⟨name, is_name⟩ := named
    rw [arrowHead_name is_name, arrowHead_name (kind_eq.trans is_name)]
    have head : J.Follows (On (· = .identifier name)) J.loose n (do advance; arrowSign [name])
      (do advance; arrowSign [name]) := .take_kind rfl (arrowSign_follows [name])
    exact head.backtrack (fun _ => On.live) _ c c' ahead ⟨t, ts, rfl, here ▸ is_name⟩ short
  · have other (name : String) : c.current.kind ≠ .identifier name := fun h => named ⟨name, h⟩
    cases opens : c.current.kind.isPunctuator "(" with
    | true =>
      rw [arrowHead_opens opens, arrowHead_opens (kind_eq ▸ opens)]
      have head : J.Follows (On (·.isPunctuator "(" = true)) J.loose n
        (do advance; openParameters >>= arrowBehind) (do advance; openParameters >>= arrowBehind) :=
        .take_symbol (by decide) arrowBehind_follows
      exact head.backtrack (fun _ => On.live) _ c c' ahead ⟨t, ts, rfl, here ▸ opens⟩ short
    | false =>
      rw [arrowHead_none other opens, arrowHead_none (kind_eq ▸ other) (kind_eq ▸ opens)]
      exact (Follows.result_live none : J.Follows Live _ n _ _) _ c c' ahead live short

end Arrows

end TemplateFormula.Parser.Seam
