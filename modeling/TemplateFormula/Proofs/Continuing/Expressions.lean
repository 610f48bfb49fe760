import TemplateFormula.Proofs.Continuing.Heads
import TemplateFormula.Proofs.Parsing.Precedence

/-!
# Expressions in a text that goes on

An expression that ends where the text does is read up to the parenthesis or the colon behind it
with the same value, unless its last token is the bare name of a namespace in front of a colon. A
minus sign behind it is taken as an operator, by the innermost part of the expression that leaves
operators as tight as that.
-/

namespace TemplateFormula.Parser.Seam

variable {J : Seam} {n s m m' : Nat} {α β : Type} {L : List Token → Prop}

section Fates

variable {good : α → Prop} {good' : β → Prop} {b b' : Nat}

/-- A minus sign binds less tightly than a bound, if it is what follows. -/
def Leaves (J : Seam) (b : Nat) : Prop :=
  J.stop.kind = .punctuator "-" → BinaryOp.minus.precedence < b

theorem leaves_operand : J.Leaves (BinaryOp.maxPrecedence + 1) := fun _ => by decide

theorem exact_rests (leaves : J.Leaves b) {a : α} {r' : Except ParseError (α × Cursor)}
    (h : J.exact good a r') : J.rests b good a r' :=
  ⟨h.1, a, J.here, h.2, h.1, .inl ⟨rfl, rfl, leaves⟩⟩

theorem rests_mono (less : J.Leaves b → J.Leaves b') {a : α}
    {r' : Except ParseError (α × Cursor)} (h : J.rests b good a r') : J.rests b' good a r' := by
  obtain ⟨ok, a', c', outcome', ok', rest⟩ := h
  refine ⟨ok, a', c', outcome', ok', ?_⟩
  rcases rest with ⟨same, at_stop, leaves⟩ | beyond
  · exact .inl ⟨same, at_stop, less leaves⟩
  · exact .inr beyond

theorem rests_found {a : Option Expr} {r' : Except ParseError (Option Expr × Cursor)}
    (h : J.rests b Found a r') : a ≠ none ∧ ∃ e c₁, r' = .ok (some e, c₁) := by
  obtain ⟨found, a', c', outcome', found', -⟩ := h
  obtain ⟨e, rfl⟩ := Option.ne_none_iff_exists'.1 found'
  exact ⟨found, e, c', outcome'⟩

theorem Follows.bind_rests {F : Fate β} {p p' : Parser α} {f f' : α → Parser β}
    (first : J.Follows L (J.rests b good) n p p') (next : ∀ a, J.Follows Live F n (f a) (f' a))
    (ends : ∀ a, good a → J.Leaves b → J.Outcome F 0 (f a J.edge) (f' a J.here))
    (beyond : ∀ a a' c', good a → good a' → J.Beyond c' →
      J.Outcome F 0 (f a J.edge) (f' a' c')) : J.Follows L F n (p >>= f) (p' >>= f') := by
  refine Follows.bind first next ?_
  rintro a c' ⟨ok, a', c₁, outcome', ok', rest⟩
  rw [bind_of_ok outcome']
  rcases rest with ⟨rfl, rfl, leaves⟩ | gone
  · exact ends a' ok leaves
  · exact beyond a a' c₁ ok ok' gone

theorem Follows.map_rests {p p' : Parser α} (h : J.Follows L (J.rests b good) n p p') (g : α → β)
    (less : J.Leaves b → J.Leaves b') (keeps : ∀ a, good a → good' (g a)) :
    J.Follows L (J.rests b' good') n (do return g (← p)) (do return g (← p')) := by
  apply h.bind_rests
  · exact fun a => .result_live (g a)
  · rintro a ok leaves _ _ ⟨⟩
    exact .inr ⟨rfl, keeps a ok, g a, J.here, rfl, keeps a ok, .inl ⟨rfl, rfl, less leaves⟩⟩
  · rintro a a' c' ok ok' gone _ _ ⟨⟩
    exact .inr ⟨rfl, keeps a ok, g a', c', rfl, keeps a' ok', .inr gone⟩

end Fates

variable {nested nested' : Nested} (deeper : J.Deeper nested nested')

section Operands

include deeper

theorem call_follows : J.Follows Live (J.exact Found) n (call nested) (call nested') := by
  have list : J.Follows Any J.loose (n - 1) (list nested "(" ")") (list nested' "(" ")") := by
    refine Follows.loosely ?_ (by rw [edge_eq]; rfl) ?_
    · exact Follows.mono (list_follows deeper ⟨by decide, by decide⟩) fun _ _ => exact_loose
    · rw [Parser.list, bind_of_ok (check_here_of_ne (by decide))]
      rfl
  refine Follows.backtrack ?_ fun _ => id
  refine .bind_kind fun k => ?_
  cases k with
  | identifier name => exact .take_kind rfl (list.map_loose (Expr.call name))
  | _ => exact .result none fun _ => On.live

theorem arrow_follows :
    J.Follows Live (J.rests (BinaryOp.maxPrecedence + 1) Found) n (arrow nested)
      (arrow nested') := by
  refine arrowHead_follows.bind_option (fun params => ?_) (.result_live none)
  exact (expression_follows deeper).map_rests (fun e => some (Expr.function params e))
    (fun _ => leaves_operand) fun e _ => Option.some_ne_none _

/-- A name with an operand behind it, if it is that of a namespace, or a name alone. -/
def nameOr (names : List String) (nested : Nested) (name : String) : Parser (Option Expr) := do
  if (← check ":") && names.contains name then
    advance
    return some (.inNamespace name (← required (nested .operand)))
  else return some (.variable name)

theorem nameOr_follows (name : String) :
    J.Follows Live (J.rests (BinaryOp.maxPrecedence + 1) Found) n (nameOr J.names nested name)
      (nameOr J.names nested' name) := by
  have operand : J.Follows Any (J.rests (BinaryOp.maxPrecedence + 1) Whole) (n - 1)
      (required (nested .operand)) (required (nested' .operand)) :=
    (Follows.required_rests (deeper.follows .operand _)).settle (deeper.blank .operand).required
  apply Follows.bind_check
  · by_cases known : J.names.contains name = true
    · simp only [known, Bool.and_self, if_true]
      exact .take_symbol (by decide) (operand.map_rests (fun e => some (Expr.inNamespace name e))
        id fun e _ => Option.some_ne_none _)
    · simp only [known, Bool.and_false]
      exact .result _ fun _ => On.live
  · exact .result_live _

omit deeper in
/-- The last token of an expression is not taken for a namespace. -/
theorem nameOr_end {nested : Nested} {t : Token} {name : String}
    (kind_eq : t.kind = .identifier name) (clear : ¬ J.Bare [t]) :
    nameOr J.names nested name J.edge = .ok (some (.variable name), J.edge) ∧
      nameOr J.names nested name J.here = .ok (some (.variable name), J.here) := by
  have free : (J.stop.kind.isPunctuator ":" && J.names.contains name) = false := by
    rw [Bool.eq_false_iff]
    intro both
    obtain ⟨colon, known⟩ := Bool.and_eq_true_iff.1 both
    refine clear ⟨?_, t, name, rfl, kind_eq, known⟩
    rcases J.stops.cases with h | h | h | h <;> rw [h] at colon ⊢ <;> cases colon
  constructor
  · rw [nameOr, bind_of_ok (check_edge ":")]
    rfl
  · rw [nameOr, bind_of_ok (check_here ":"), free]
    rfl

theorem variableName_follows :
    J.Follows Live (J.rests (BinaryOp.maxPrecedence + 1) Found) n (variableName J.names nested)
      (variableName J.names nested') := by
  apply Follows.branch
  · exact .take_symbol (by decide) (closes_some.mono fun _ _ => exact_rests leaves_operand)
  · refine .bind_kind fun k => ?_
    cases k with
    | identifier name =>
      rintro _ c c' ahead ⟨t, us, rfl, kind_eq⟩ short
      cases us with
      | nil =>
        obtain ⟨rfl, t', -, rfl⟩ := ahead.toNear.single
        have alone : nameOr J.names nested name J.edge = .ok (some (.variable name), J.edge) :=
          (nameOr_end kind_eq ahead.clear).1
        have followed : nameOr J.names nested' name J.here = .ok (some (.variable name), J.here) :=
          (nameOr_end kind_eq ahead.clear).2
        intro a c₁ outcome
        obtain ⟨rfl, rfl⟩ := Prod.mk.inj (Except.ok.inj (outcome.symm.trans alone))
        exact .inr ⟨rfl, exact_rests leaves_operand ⟨Option.some_ne_none _, followed⟩⟩
      | cons u us =>
        obtain ⟨c₁, c₁', moves, moves', near⟩ := ahead.toNear.advance
        have ahead₁ := ahead.toNear.ahead near (by rw [kind_eq]; rfl)
        have first : advance c = .ok (⟨⟩, c₁) := by rw [advance, moves]; rfl
        have first' : advance c' = .ok (⟨⟩, c₁') := by rw [advance, moves']; rfl
        have after := nameOr_follows deeper name _ c₁ c₁' ahead₁ (List.cons_ne_nil u us)
          (Nat.lt_of_succ_lt short)
        dsimp only
        rw [bind_of_ok first, bind_of_ok first']
        exact after.mono (Nat.le_succ _) fun _ => id
    | _ => exact .result none fun _ => On.live

theorem primary_follows :
    J.Follows Live (J.rests (BinaryOp.maxPrecedence + 1) Found) n (primary J.names nested)
      (primary J.names nested') := by
  have closed {p p' : Parser (Option Expr)} (h : J.Follows Live (J.exact Found) n p p') :
      J.Follows Live (J.rests (BinaryOp.maxPrecedence + 1) Found) n p p' :=
    h.mono fun _ _ => exact_rests leaves_operand
  apply firstOf_follows fun _ _ => rests_found
  exact .cons (variableName_follows deeper) (.cons (closed literal_follows)
    (.cons (closed number_follows) (.cons (closed text_follows)
    (.cons (closed (template_follows deeper)) (.cons (closed (array_follows deeper))
    (.cons (closed (object_follows deeper)) (.cons (closed (parenthesized_follows deeper))
    (.cons (closed (island_follows deeper)) .nil))))))))

theorem operandHead_follows :
    J.Follows Live (J.rests (BinaryOp.maxPrecedence + 1) Found) n (operandHead J.names nested)
      (operandHead J.names nested') := by
  apply firstOf_follows fun _ _ => rests_found
  exact .cons ((call_follows deeper).mono fun _ _ => exact_rests leaves_operand)
    (.cons (arrow_follows deeper) (.cons (primary_follows deeper) .nil))

theorem memberKey_follows :
    J.Follows Any (J.exact Whole) n (memberKey nested) (memberKey nested') := by
  refine .settle (firstOf_follows (fun _ _ => exact_found) (.cons identifier_follows
    (.cons number_follows (.cons (island_follows deeper) .nil)))).required ?_
  exact Blank.required (blank_of_none (by rw [edge_eq]; rfl))

omit deeper in
theorem memberKey_name {t : Token} {name : String} (u : Token) (us : List Token)
    (kind_eq : t.kind = .identifier name) :
    memberKey nested ⟨t, u :: us, none⟩ = .ok (.identifier name, ⟨u, us, none⟩) := by
  obtain ⟨_, raw, p, q⟩ := t
  cases kind_eq
  rfl

theorem membersOf_follows (hm : s ≤ m) (hm' : s ≤ m') (host : Expr) :
    J.Follows Any (J.exact Whole) s (membersOf nested m host) (membersOf nested' m' host) := by
  refine Follows.loopOn (fun r m m' _ _ ih host => ?_) hm hm' host
  rw [membersOf, membersOf]
  refine Follows.ends ?_ ?_
  · apply Follows.branch
    · apply Follows.take_any
      · exact (memberKey_follows deeper).bind_any fun key => ih (.getter host key)
      · intro more t t' name like kind_eq
        have key : memberKey nested _ = _ := memberKey_name J.last [] kind_eq
        have key' : memberKey nested' _ = _ :=
          memberKey_name J.stop J.more (like.kind.trans kind_eq)
        rw [bind_of_ok key, bind_of_ok key']
        exact (ih _).at_end (by omega)
    · apply Follows.branch
      · apply Follows.take_symbol (by decide)
        apply (expression_follows deeper).bind_stuck
        · intro key
          exact (Follows.expects (by decide) (ih (.getter host key))).on fun _ _ => trivial
        · exact fun key => (stuck_expect "]").bind _
      · exact .result_live host
  · intro a c₁ outcome
    rw [bind_of_ok (check_edge "."), if_neg Bool.false_ne_true, bind_of_ok (check_edge "[")]
      at outcome
    cases outcome
    refine .inr ⟨rfl, trivial, ?_⟩
    rw [bind_of_ok (check_here_of_ne (by decide)), if_neg Bool.false_ne_true,
      bind_of_ok (check_here_of_ne (by decide))]
    rfl

omit deeper in
theorem membersOf_beyond {c' : Cursor} (gone : J.Beyond c') (host : Expr) (m : Nat) :
    membersOf nested m host c' = .ok (host, c') := by
  cases m with
  | zero => rfl
  | succ m =>
    obtain ⟨⟨_, raw, p, q⟩, _, _⟩ := c'
    obtain ⟨-, kind_eq, -, -⟩ := gone
    cases kind_eq
    rfl

theorem withMembers_follows {head head' : Parser (Option Expr)}
    (h : J.Follows Live (J.rests (BinaryOp.maxPrecedence + 1) Found) n head head') :
    J.Follows Live (J.rests (BinaryOp.maxPrecedence + 1) Found) n (withMembers nested head)
      (withMembers nested' head') := by
  have behind (n : Nat) (e : Expr) : J.Follows Any (J.exact Found) n
      (do return some (← membersOf nested (← remaining) e))
      (do return some (← membersOf nested' (← remaining) e)) := by
    apply Follows.bind_remaining
    intro s m m' _ hm hm'
    exact (membersOf_follows deeper hm hm' e).map some fun e _ => Option.some_ne_none e
  apply h.bind_rests
  · intro e
    cases e with
    | none => exact .result_live none
    | some e =>
      exact ((behind n e).mono fun _ _ => exact_rests leaves_operand).on fun _ _ => trivial
  · intro e found _
    obtain ⟨e, rfl⟩ := Option.ne_none_iff_exists'.1 found
    exact Follows.at_end (n := 1) ((behind 1 e).mono fun _ _ => exact_rests leaves_operand)
      Nat.one_pos
  · intro e e' c' found found' gone a c₁ outcome
    obtain ⟨e, rfl⟩ := Option.ne_none_iff_exists'.1 found
    obtain ⟨e', rfl⟩ := Option.ne_none_iff_exists'.1 found'
    obtain ⟨rfl, found₁, -⟩ := ((behind 1 e).at_end Nat.one_pos).ended outcome
    have left : remaining c' = .ok (c'.remaining, c') := rfl
    refine .inr ⟨rfl, found₁, some e', c', ?_, Option.some_ne_none e', .inr gone⟩
    dsimp only
    rw [bind_of_ok left, bind_of_ok (membersOf_beyond gone e' _)]
    rfl

theorem operand_follows :
    J.Follows Live (J.rests (BinaryOp.maxPrecedence + 1) Found) n (operand J.names nested)
      (operand J.names nested') :=
  withMembers_follows deeper (operandHead_follows deeper)

end Operands

section Operators

theorem unaryOps_edge (m : Nat) : unaryOps m J.edge = .ok ([], J.edge) := by
  cases m with
  | zero => rfl
  | succ m =>
    rw [edge_eq]
    rfl

theorem unaryOps_round {F : Fate (List UnaryOp)} {r : Nat}
    (next : ∀ op, J.Follows Any F r (do return op :: (← unaryOps m))
      (do return op :: (← unaryOps m'))) :
    J.Follows Live F (r + 1) (unaryOps (m + 1)) (unaryOps (m' + 1)) := by
  rw [unaryOps, unaryOps]
  refine .bind_kind fun k => ?_
  cases k with
  | punctuator symbol =>
    dsimp only
    cases op_eq : UnaryOp.ofSymbol? symbol with
    | none => exact .result [] fun _ => On.live
    | some op =>
      refine .take_kind (beq_eq_false_iff_ne.2 ?_) (next op)
      rintro rfl
      cases op_eq
  | _ => exact .result [] fun _ => On.live

theorem unaryOps_free (hm : s ≤ m) (hm' : s ≤ m') :
    J.Follows Any free s (unaryOps m) (unaryOps m') := by
  refine Follows.loop (fun r m m' _ _ ih => ?_) hm hm'
  refine .settle_free ?_ (stays_of_ok (unaryOps_edge _))
  exact unaryOps_round fun op => ih.bind_free fun ops => found_free (op :: ops)

/-- Where operators lead to the end of the expression, there are some. -/
theorem unaryOps_follows (hm : s ≤ m) (hm' : s ≤ m') :
    J.Follows Live (fun ops _ => ops ≠ []) s (unaryOps m) (unaryOps m') := by
  cases s with
  | zero => exact fun _ _ _ _ _ short => absurd short (Nat.not_lt_zero _)
  | succ r =>
    obtain ⟨m, rfl⟩ := Nat.exists_eq_add_one_of_ne_zero (show m ≠ 0 by omega)
    obtain ⟨m', rfl⟩ := Nat.exists_eq_add_one_of_ne_zero (show m' ≠ 0 by omega)
    refine unaryOps_round fun op => ?_
    apply (unaryOps_free (by omega) (by omega)).bind
    · exact fun ops => .result_live (op :: ops)
    · rintro ops c' - _ _ ⟨⟩
      exact .inr ⟨rfl, List.cons_ne_nil op ops⟩

theorem operand_edge : operand J.names nested J.edge = .ok (none, J.edge) := by
  rw [edge_eq]
  rfl

include deeper

theorem unary_follows :
    J.Follows Live (J.rests (BinaryOp.maxPrecedence + 1) Found) n (unary J.names nested)
      (unary J.names nested') := by
  apply Follows.bind_remaining
  intro s m m' _ hm hm'
  apply (unaryOps_follows hm hm').bind
  · intro ops
    apply (operand_follows deeper).bind_rests
    · intro e
      cases e with
      | some e => exact .result_live _
      | none =>
        by_cases none_before : ops.isEmpty = true
        · simp only [if_pos none_before]
          exact .result_live none
        · simp only [if_neg none_before]
          exact .fails
    · intro e found leaves a c₁ outcome
      obtain ⟨e, rfl⟩ := Option.ne_none_iff_exists'.1 found
      cases outcome
      exact .inr ⟨rfl, exact_rests leaves ⟨Option.some_ne_none _, rfl⟩⟩
    · intro e e' c' found found' gone a c₁ outcome
      obtain ⟨e, rfl⟩ := Option.ne_none_iff_exists'.1 found
      obtain ⟨e', rfl⟩ := Option.ne_none_iff_exists'.1 found'
      cases outcome
      exact .inr ⟨rfl, Option.some_ne_none _, some (ops.foldr .unary e'), c', rfl,
        Option.some_ne_none _, .inr gone⟩
  · intro ops c' some_ a c₁ outcome
    rw [bind_of_ok operand_edge] at outcome
    have more : ¬ ops.isEmpty = true := fun none_ => some_ (List.isEmpty_iff.1 none_)
    simp only [if_neg more] at outcome
    cases outcome

end Operators

section Climbing

variable {right right' : Nat → Parser (Option Expr)} {bound : Nat}

theorem climb_edge (left : Expr) (m : Nat) :
    climb right bound m left J.edge = .ok (left, J.edge) := by
  cases m with
  | zero => rfl
  | succ m =>
    rw [edge_eq]
    rfl

theorem climb_beyond {c' : Cursor} (gone : J.Beyond c') (left : Expr) (m : Nat) :
    climb right bound m left c' = .ok (left, c') := by
  cases m with
  | zero => rfl
  | succ m =>
    obtain ⟨⟨_, raw, p, q⟩, _, _⟩ := c'
    obtain ⟨-, kind_eq, -, -⟩ := gone
    cases kind_eq
    rfl

/-- The operand of a minus sign behind the expression is read as a right operand. -/
def TakesLast (J : Seam) (right : Parser (Option Expr)) : Prop :=
  ∀ u v : Token, ∀ x, J.stop.kind = .punctuator "-" → J.more = [u, v] → u.kind = .number x →
    v.kind = .eof → ∃ c₁, right ⟨u, [v], none⟩ = .ok (some (.number x), c₁) ∧ J.Beyond c₁

theorem climb_here (takes : J.TakesLast (right' (BinaryOp.minus.precedence + 1))) (left : Expr) :
    J.rests bound Whole left (climb right' bound (m + 1) left J.here) := by
  have shown : kind J.here = .ok (J.stop.kind, J.here) := rfl
  have stays (none_ : binaryOp? J.stop.kind = none) (other : J.stop.kind ≠ .punctuator "-") :
      J.rests bound Whole left (climb right' bound (m + 1) left J.here) := by
    rw [climb, bind_of_ok shown, none_]
    exact ⟨trivial, left, J.here, rfl, trivial, .inl ⟨rfl, rfl, fun minus => absurd minus other⟩⟩
  rcases J.stops.cases with kind_eq | kind_eq | kind_eq | kind_eq
  · exact stays (by rw [kind_eq]; rfl) (by rw [kind_eq]; exact TokenKind.noConfusion)
  · exact stays (by rw [kind_eq]; rfl) (by rw [kind_eq]; simp)
  · exact stays (by rw [kind_eq]; rfl) (by rw [kind_eq]; simp)
  · have op_eq : binaryOp? J.stop.kind = some .minus := by rw [kind_eq]; rfl
    by_cases weaker : BinaryOp.minus.precedence < bound
    · rw [climb, bind_of_ok shown, op_eq]
      dsimp only
      rw [if_pos weaker]
      exact ⟨trivial, left, J.here, rfl, trivial, .inl ⟨rfl, rfl, fun _ => weaker⟩⟩
    · obtain ⟨u, v, x, more, operand, ends⟩ := J.stops.behind_minus kind_eq
      have moves : advance J.here = .ok (⟨⟩, ⟨u, [v], none⟩) := by
        rw [here, more]
        rfl
      obtain ⟨c₁, outcome, gone⟩ := takes u v x kind_eq more operand ends
      have last : required (right' (BinaryOp.minus.precedence + 1)) ⟨u, [v], none⟩ =
          .ok (.number x, c₁) := by
        rw [required, bind_of_ok outcome]
        rfl
      rw [climb, bind_of_ok shown, op_eq]
      dsimp only
      rw [if_neg weaker, bind_of_ok moves, bind_of_ok last, climb_beyond gone]
      exact ⟨trivial, _, _, rfl, trivial, .inr gone⟩

theorem climb_follows
    (rights : ∀ b n, bound < b → J.Follows Live (J.rests b Found) n (right b) (right' b))
    (blank : ∀ b, J.Blank (right b)) (takes : J.TakesLast (right' (BinaryOp.minus.precedence + 1)))
    (hm : s ≤ m) (hm' : s ≤ m') (left : Expr) :
    J.Follows Any (J.rests bound Whole) s (climb right bound m left)
      (climb right' bound m' left) := by
  refine Follows.loopOn (fun r m m' _ _ ih left => ?_) hm hm' left
  refine Follows.ends ?_ ?_
  · rw [climb, climb]
    refine .bind_kind fun k => ?_
    cases op_eq : binaryOp? k with
    | none => exact .result left fun _ => On.live
    | some op =>
      by_cases weaker : op.precedence < bound
      · simp only [if_pos weaker]
        exact .result left fun _ => On.live
      · simp only [if_neg weaker]
        have plain : k.isPunctuator "." = false := by
          cases k with
          | punctuator symbol =>
            refine beq_eq_false_iff_ne.2 ?_
            rintro rfl
            cases op_eq
          | _ => cases op_eq
        apply Follows.take_kind plain
        have operand : J.Follows Any (J.rests (op.precedence + 1) Whole) r
            (required (right (op.precedence + 1))) (required (right' (op.precedence + 1))) :=
          (Follows.required_rests (rights _ _ (Nat.lt_succ_of_le (Nat.not_lt.1 weaker)))).settle
            (blank _).required
        rcases Nat.eq_zero_or_pos r with rfl | some_
        · exact fun _ _ _ _ _ short => absurd short (Nat.not_lt_zero _)
        · apply operand.bind_rests
          · exact fun e => (ih (.binary op left e)).on fun _ _ => trivial
          · exact fun e _ _ => (ih (.binary op left e)).at_end some_
          · intro e e' c' _ _ gone a c₁ outcome
            rw [climb_edge] at outcome
            cases outcome
            exact .inr ⟨rfl, trivial, _, c', climb_beyond gone _ _, trivial, .inr gone⟩
  · intro a c₁ outcome
    rw [climb_edge] at outcome
    cases outcome
    exact .inr ⟨rfl, climb_here takes left⟩

end Climbing

section Conditionals

theorem takesLast_binary (levels bound : Nat) :
    J.TakesLast (binary J.names nested' levels bound) := by
  intro u v x minus more operand ends
  have parses : Parses (binary J.names nested' levels bound) [.number x, .eof]
      (some (.number x)) [.eof] :=
    parses_binary levels bound (parses_unary_number rfl rfl) rfl
  obtain ⟨⟨w, ws, f⟩, outcome, failure, kinds⟩ :=
    parses ⟨u, [v], none⟩ ⟨rfl, by simp [operand, ends]⟩
  obtain ⟨kind_eq, rest⟩ := List.cons.inj kinds
  exact ⟨_, outcome, minus, kind_eq, List.map_eq_nil_iff.1 rest, failure⟩

theorem binary_edge (levels bound : Nat) :
    binary J.names nested levels bound J.edge = .ok (none, J.edge) := by
  rw [edge_eq]
  cases levels <;> rfl

include deeper

theorem binary_follows (levels bound : Nat) (enough : BinaryOp.minus.precedence < levels + bound) :
    J.Follows Live (J.rests bound Found) n (binary J.names nested levels bound)
      (binary J.names nested' levels bound) := by
  induction levels generalizing bound n with
  | zero =>
    rw [Nat.zero_add] at enough
    exact (unary_follows deeper).mono fun _ _ => rests_mono fun _ _ => enough
  | succ levels ih =>
    have behind (n : Nat) (left : Expr) : J.Follows Any (J.rests bound Found) n
        (do return some (← climb (binary J.names nested levels) bound (← remaining) left))
        (do return some (← climb (binary J.names nested' levels) bound (← remaining) left)) := by
      apply Follows.bind_remaining
      intro s m m' _ hm hm'
      have rights (b n : Nat) (tighter : bound < b) : J.Follows Live (J.rests b Found) n
          (binary J.names nested levels b) (binary J.names nested' levels b) := ih b (by omega)
      exact (climb_follows rights (fun b => blank_of_none (binary_edge levels b))
        (takesLast_binary _ _) hm hm' left).map_rests some id fun e _ => Option.some_ne_none e
    apply (unary_follows deeper).bind_rests
    · intro left
      cases left with
      | none => exact .result_live none
      | some left => exact (behind n left).on fun _ _ => trivial
    · intro left found _
      obtain ⟨left, rfl⟩ := Option.ne_none_iff_exists'.1 found
      exact (behind 1 left).at_end Nat.one_pos
    · intro left left' c' found found' gone a c₁ outcome
      obtain ⟨left, rfl⟩ := Option.ne_none_iff_exists'.1 found
      obtain ⟨left', rfl⟩ := Option.ne_none_iff_exists'.1 found'
      obtain ⟨rfl, found₁, -⟩ := ((behind 1 left).at_end Nat.one_pos).ended outcome
      have left_ : remaining c' = .ok (c'.remaining, c') := rfl
      refine .inr ⟨rfl, found₁, some left', c', ?_, Option.some_ne_none left', .inr gone⟩
      dsimp only
      rw [bind_of_ok left_, bind_of_ok (climb_beyond gone left' _)]
      rfl

theorem conditional_follows :
    J.Follows Live (J.rests 1 Found) n (conditional J.names nested)
      (conditional J.names nested') := by
  apply (binary_follows deeper _ 1 (by decide)).bind_rests
  · intro test
    cases test with
    | none => exact .result_live none
    | some test =>
      apply Follows.branch
      · apply Follows.take_symbol (by decide)
        apply (expression_follows deeper).bind_stuck
        · intro consequent
          refine Follows.on (Follows.expects (by decide) ?_) fun _ _ => trivial
          exact (expression_follows deeper).map_rests
            (fun alternate => some (Expr.conditional test consequent alternate)) id
            fun e _ => Option.some_ne_none _
        · exact fun consequent => (stuck_expect ":").bind _
      · exact .result_live (some test)
  · intro test found leaves a c₁ outcome
    obtain ⟨test, rfl⟩ := Option.ne_none_iff_exists'.1 found
    dsimp only at outcome ⊢
    rw [bind_of_ok (check_edge "?")] at outcome
    cases outcome
    rw [bind_of_ok (check_here_of_ne (by decide))]
    exact .inr ⟨rfl, exact_rests leaves ⟨Option.some_ne_none test, rfl⟩⟩
  · intro test test' c' found found' gone a c₁ outcome
    obtain ⟨test, rfl⟩ := Option.ne_none_iff_exists'.1 found
    obtain ⟨test', rfl⟩ := Option.ne_none_iff_exists'.1 found'
    dsimp only at outcome ⊢
    rw [bind_of_ok (check_edge "?")] at outcome
    cases outcome
    have shown : check "?" c' = .ok (false, c') := by
      change Except.ok (c'.current.kind.isPunctuator "?", c') = _
      rw [gone.kind]
      rfl
    rw [bind_of_ok shown]
    exact .inr ⟨rfl, Option.some_ne_none test, some test', c', rfl, Option.some_ne_none test',
      .inr gone⟩

end Conditionals

/-- Nested goals are followed, if there is no less depth to spend. -/
theorem deeper_nestedGoal (J : Seam) {d d' : Nat} (le : d ≤ d') :
    J.Deeper (nestedGoal J.names d) (nestedGoal J.names d') := by
  have uniform (d : Nat) : Uniform (nestedGoal J.names d) :=
    fun P => nestedGoal_keeps (P := P) J.names d
  induction d generalizing d' with
  | zero =>
    refine ⟨?_, ?_, uniform 0⟩
    · rintro g n ts c c' - - - a c₁ ⟨⟩
    · rintro g a c₁ ⟨⟩
  | succ d ih =>
    obtain ⟨d', rfl⟩ := Nat.exists_eq_add_one_of_ne_zero (show d' ≠ 0 by omega)
    have deeper := ih (Nat.le_of_succ_le_succ le)
    refine ⟨?_, ?_, uniform (d + 1)⟩
    · intro g n
      cases g with
      | expression => exact conditional_follows deeper
      | operand => exact operand_follows deeper
    · intro g
      apply blank_of_none
      rw [edge_eq]
      cases g <;> rfl

/-- Where the expression alone is all of the text, it is read in the longer text too, and the second
cursor stands at what follows or has gone through all of it. -/
theorem expression_continues {d d' : Nat} (le : d ≤ d') {ts : List Token} {c c' c₁ : Cursor}
    {a : Expr} (ahead : J.Ahead ts c c')
    (outcome : expression (nestedGoal J.names d) c = .ok (a, c₁)) (ended : c₁.current.kind = .eof) :
    ∃ a' c₁', expression (nestedGoal J.names d') c' = .ok (a', c₁') ∧ J.Rest 1 a a' c₁' := by
  have follows := expression_follows (n := ts.length + 1) (deeper_nestedGoal J le) ts c c' ahead
    trivial (Nat.lt_succ_self _) a c₁ outcome
  rcases follows with ⟨us, c₁', some_, -, ahead₁, -⟩ | ⟨-, -, a', c₁', outcome', -, rest⟩
  · obtain ⟨t, us, rfl⟩ := List.exists_cons_of_ne_nil some_
    rw [ahead₁.shows.current] at ended
    exact absurd ended (ahead₁.inked t List.mem_cons_self)
  · exact ⟨a', c₁', outcome', rest⟩

end TemplateFormula.Parser.Seam
