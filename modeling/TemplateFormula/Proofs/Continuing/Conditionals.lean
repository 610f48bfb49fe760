import TemplateFormula.Proofs.Continuing.Sources

/-!
# Conditionals made of expressions

An expression in parentheses with a question mark behind it is the test of a conditional, and any
two expressions may be its branches. Only the name of a namespace at the end of the first branch
takes the colon for itself.
-/

namespace TemplateFormula

/-- The cursor in front of which this token stands, moved back to the token. -/
def Cursor.behind (c : Cursor) (t : Token) : Cursor := ⟨t, c.tokens, c.failure⟩

namespace Parser

open Written

variable {nested : Nested} {names : List String} {p q r s t : Token} {c c₁ c₂ c₃ c₄ : Cursor}
  {a a₁ a₂ a₃ : Expr}

section Steps

theorem advance_behind (c : Cursor) (t : Token) : advance (c.behind t) = .ok (⟨⟩, c) := rfl

theorem check_behind {symbol : String} {b : Bool} (h : t.kind.isPunctuator symbol = b) :
    check symbol (c.behind t) = .ok (b, c.behind t) := by
  rw [← h]
  rfl

theorem firstOf_hit {p : Parser (Option Expr)} (h : p c = .ok (some a, c₁))
    (ps : List (Parser (Option Expr))) : firstOf (p :: ps) c = .ok (some a, c₁) :=
  bind_of_ok h

/-- Without parameters in front of an arrow nothing is taken. -/
theorem arrow_stays (h : arrow nested c = .ok (none, c₁)) : c₁ = c := by
  rw [arrow, bind_apply, Seam.arrowHead_eq, attempt_apply] at h
  generalize (parameterList >>= Seam.arrowAfter) c = head at h
  rcases head with e | ⟨_ | params, c₂⟩
  · cases h
  · cases h
    rfl
  · dsimp only at h
    rw [bind_apply] at h
    generalize expression nested c₂ = body at h
    rcases body with e | ⟨body, c₃⟩ <;> cases h

end Steps

section Groups

variable (opens : p.kind = .punctuator "(") (closes : q.kind = .punctuator ")")
  (asks : r.kind = .punctuator "?")

include opens closes in
/-- An expression in parentheses. -/
theorem parenthesized_group (first : c₁.current.kind.isPunctuator ")" = false)
    (inner : expression nested c₁ = .ok (a, c₂.behind q)) :
    parenthesized nested (c₁.behind p) = .ok (some a, c₂) := by
  have opening : check "(" (c₁.behind p) = .ok (true, c₁.behind p) :=
    check_behind (by rw [opens]; rfl)
  have plain : check ")" c₁ = .ok (false, c₁) := by rw [← first]; rfl
  have single : check "," (c₂.behind q) = .ok (false, c₂.behind q) :=
    check_behind (by rw [closes]; rfl)
  have closing : check ")" (c₂.behind q) = .ok (true, c₂.behind q) :=
    check_behind (by rw [closes]; rfl)
  have one (n : Nat) : members nested ")" (n + 1) c₁ = .ok ([a], c₂) := by
    rw [members, bind_of_ok inner, bind_of_ok single, if_neg Bool.false_ne_true,
      bind_of_ok closing, if_pos rfl, bind_of_ok (advance_behind c₂ q)]
    rfl
  have left : remaining c₁ = .ok (c₁.rest.length + 1, c₁) := rfl
  have grouped : list nested "(" ")" (c₁.behind p) = .ok (some [a], c₂) := by
    rw [list, bind_of_ok opening, if_pos rfl, bind_of_ok (advance_behind c₁ p), bind_of_ok plain,
      if_neg Bool.false_ne_true, bind_of_ok left, bind_of_ok (one _)]
    rfl
  rw [parenthesized, bind_of_ok grouped]
  rfl

include opens in
theorem primary_group (h : parenthesized nested (c.behind p) = .ok (some a, c₂)) :
    primary names nested (c.behind p) = .ok (some a, c₂) := by
  obtain ⟨_, raw, start, stop⟩ := p
  obtain rfl : _ = _ := opens
  rw [primary, firstOf_none rfl, firstOf_none rfl, firstOf_none rfl, firstOf_none rfl,
    firstOf_none rfl, firstOf_none rfl, firstOf_none rfl, firstOf_hit h]

include opens in
/-- A parenthesis begins neither a call nor the operators in front of an operand. -/
theorem call_group : call nested (c.behind p) = .ok (none, c.behind p) := by
  obtain ⟨_, raw, start, stop⟩ := p
  obtain rfl : _ = _ := opens
  rfl

include opens in
theorem unaryOps_group (n : Nat) : unaryOps (n + 1) (c.behind p) = .ok ([], c.behind p) := by
  obtain ⟨_, raw, start, stop⟩ := p
  obtain rfl : _ = _ := opens
  rfl

include asks in
/-- A question mark continues neither a chain of members nor one of operators. -/
theorem membersOf_asks (n : Nat) :
    membersOf nested (n + 1) a (c.behind r) = .ok (a, c.behind r) := by
  obtain ⟨_, raw, start, stop⟩ := r
  obtain rfl : _ = _ := asks
  rfl

include asks in
theorem climb_asks (right : Nat → Parser (Option Expr)) (bound n : Nat) :
    climb right bound (n + 1) a (c.behind r) = .ok (a, c.behind r) := by
  obtain ⟨_, raw, start, stop⟩ := r
  obtain rfl : _ = _ := asks
  rfl

include opens asks in
/-- A group without an arrow behind it is a test, if a question mark follows. -/
theorem binary_group (h : parenthesized nested (c.behind p) = .ok (some a, c₂.behind r))
    (plain : arrow nested (c.behind p) = .ok (none, c.behind p)) (n bound : Nat) :
    binary names nested (n + 1) bound (c.behind p) = .ok (some a, c₂.behind r) := by
  have left (c : Cursor) : remaining c = .ok (c.rest.length + 1, c) := rfl
  have head : operandHead names nested (c.behind p) = .ok (some a, c₂.behind r) := by
    rw [operandHead, firstOf_none (call_group opens), firstOf_none plain,
      firstOf_hit (primary_group opens h)]
  have host : operand names nested (c.behind p) = .ok (some a, c₂.behind r) := by
    rw [operand, withMembers, bind_of_ok head]
    dsimp only
    rw [bind_of_ok (left _), bind_of_ok (membersOf_asks asks _)]
    rfl
  have first : unary names nested (c.behind p) = .ok (some a, c₂.behind r) := by
    rw [unary, bind_of_ok (left _), bind_of_ok (unaryOps_group opens _), bind_of_ok host]
    rfl
  rw [binary, bind_of_ok first]
  dsimp only
  rw [bind_of_ok (left _), bind_of_ok (climb_asks asks _ _ _)]
  rfl

include asks in
/-- A test, a question mark and two expressions with a colon between them. -/
theorem conditional_parts
    (test : binary names nested (BinaryOp.maxPrecedence + 1) 1 c = .ok (some a₁, c₂.behind r))
    (consequent : expression nested c₂ = .ok (a₂, c₃.behind s)) (colon : s.kind = .punctuator ":")
    (alternate : expression nested c₃ = .ok (a₃, c₄)) :
    conditional names nested c = .ok (some (.conditional a₁ a₂ a₃), c₄) := by
  have asked : check "?" (c₂.behind r) = .ok (true, c₂.behind r) :=
    check_behind (by rw [asks]; rfl)
  have parted : expect ":" (c₃.behind s) = .ok (⟨⟩, c₃) := by
    have shown : check ":" (c₃.behind s) = .ok (true, c₃.behind s) :=
      check_behind (by rw [colon]; rfl)
    rw [expect, bind_of_ok shown, if_pos rfl, advance_behind]
  rw [conditional, bind_of_ok test]
  dsimp only
  rw [bind_of_ok asked, if_pos rfl, bind_of_ok (advance_behind c₂ r), bind_of_ok consequent,
    bind_of_ok parted, bind_of_ok alternate]
  rfl

end Groups

section Fronts

/-- No expression begins with a closing parenthesis. -/
theorem expression_closed (closes : c.current.kind = .punctuator ")") (d : Nat) :
    expression (nestedGoal names d) c ≠ .ok (a, c₁) := by
  obtain ⟨⟨_, raw, start, stop⟩, rest, failure⟩ := c
  obtain rfl : _ = _ := closes
  cases d <;> rintro ⟨⟩

/-- An expression that begins with a name and a comma or a closing parenthesis ends between them. -/
theorem expression_name {name : String} {k : TokenKind} {ks : List TokenKind} {d : Nat}
    (on : c.On (.identifier name :: k :: ks)) (mark : k = .punctuator "," ∨ k = .punctuator ")")
    (outcome : expression (nestedGoal names d) c = .ok (a, c₁)) : c₁.current.kind = k := by
  cases d with
  | zero => cases outcome
  | succ d =>
    have ends : Ends k ∧ k.isPunctuator "(" = false ∧ k.isPunctuator ":" = false := by
      rcases mark with rfl | rfl <;> exact ⟨⟨rfl, rfl, rfl, rfl, rfl⟩, rfl, rfl⟩
    have alone : Parses (nestedGoal names (d + 1) .expression) (.identifier name :: k :: ks)
        (some (.variable name)) (k :: ks) := parses_alone ends.1 ends.2.1 ends.2.2
    obtain ⟨c₂, outcome₂, on₂⟩ := alone.required c on
    cases outcome.symm.trans outcome₂
    exact (List.cons.inj on₂.2).1

/-- An expression does not begin like a list of parameters. -/
theorem opens_of_expression {us : List Token} {stop : Token} {d : Nat} (some_ : us ≠ [])
    (inked : ∀ t ∈ us, t.kind ≠ .eof) (shows : Shows stop [] none us c)
    (outcome : expression (nestedGoal names d) c = .ok (a, c₁)) (ended : c₁.current.kind = .eof) :
    Opens (us.map (·.kind)) := by
  obtain ⟨u, us, rfl⟩ := List.exists_cons_of_ne_nil some_
  rw [List.map_cons]
  have unclosed : u.kind.isPunctuator ")" = false := by
    rw [Bool.eq_false_iff]
    intro closes
    have first := Lexer.punctuator_of_isPunctuator closes
    exact expression_closed (by rw [shows.current, first]) d outcome
  cases named : isIdentifier u.kind with
  | false => exact .other _ named unclosed (inked u List.mem_cons_self)
  | true =>
    obtain ⟨name, kind_eq⟩ : ∃ name, u.kind = .identifier name := by
      cases kind_eq : u.kind with
      | identifier name => exact ⟨name, rfl⟩
      | _ =>
        rw [kind_eq] at named
        cases named
    rw [kind_eq]
    cases us with
    | nil => exact .name name
    | cons v us =>
      have on : c.On (.identifier name :: v.kind :: (us ++ [stop]).map (·.kind)) := by
        have tokens : c.current :: c.rest = (u :: v :: us) ++ [stop] := shows.tokens
        refine ⟨shows.failure, ?_⟩
        rw [tokens, ← kind_eq]
        rfl
      have unmarked (symbol : String) (mark : symbol = "," ∨ symbol = ")") :
          v.kind.isPunctuator symbol = false := by
        rw [Bool.eq_false_iff]
        intro found
        have kind_v := Lexer.punctuator_of_isPunctuator found
        have either : v.kind = .punctuator "," ∨ v.kind = .punctuator ")" := by
          rw [kind_v]
          rcases mark with rfl | rfl <;> simp
        have stays := expression_name on either outcome
        exact TokenKind.noConfusion (ended.symm.trans (stays.trans kind_v))
      exact .named name _ (unmarked "," (.inl rfl)) (unmarked ")" (.inr rfl))

end Fronts

section Arrows

/-- An expression in parentheses with a question mark behind it is no list of parameters. -/
theorem arrow_group {us more : List Token} (opens : p.kind = .punctuator "(")
    (closes : q.kind = .punctuator ")") (asks : r.kind = .punctuator "?")
    (front : Opens (us.map (·.kind))) (shows : Shows q (r :: more) none us c) :
    arrow nested (c.behind p) = .ok (none, c.behind p) := by
  have on : (c.behind p).On (groupTokens (us.map (·.kind)) ++ punct "?" :: more.map (·.kind)) := by
    refine ⟨shows.failure, ?_⟩
    change (p :: c.tokens).map (·.kind) = _
    rw [shows.tokens, List.map_cons, List.map_append, List.map_cons, List.map_cons, opens, closes,
      asks, groupTokens_append]
    rfl
  obtain ⟨c₁, outcome, -⟩ := parses_arrow_group front rfl _ on
  obtain rfl := arrow_stays outcome
  exact outcome

end Arrows

section Texts

variable {o : ParseOptions} {src₁ src₂ src₃ : String} {d₁ d₂ d₃ : Nat} {ts₁ ts₂ ts₃ : List Token}
  {t₁ t₂ t₃ stop₁ stop₂ stop₃ : Token}

/-- The text of a conditional with these parts. -/
def conditionalText (test consequent alternate : String) : String :=
  "(" ++ test ++ ") ? " ++ consequent ++ " : " ++ alternate

/-- The signs between the parts. -/
structure ConditionalSigns (p q r s : Token) : Prop where
  opens : p.kind = .punctuator "("
  closes : q.kind = .punctuator ")"
  asks : r.kind = .punctuator "?"
  colon : s.kind = .punctuator ":"

/-- The tokens of a conditional are those of its parts with four signs between them. -/
theorem pulls_conditional (h₁ : Sourced src₁ { o with maxDepth := d₁ } a₁ ts₁ t₁ stop₁)
    (h₂ : Sourced src₂ { o with maxDepth := d₂ } a₂ ts₂ t₂ stop₂)
    (h₃ : Sourced src₃ { o with maxDepth := d₃ } a₃ ts₃ t₃ stop₃) :
    ∃ us₁ us₂ us₃ p q r s l after, ConditionalSigns p q r s ∧
      (Lexer.ofSource (conditionalText src₁ src₂ src₃).toList ⟨true, o.allowFilter⟩).Pulls
        (p :: (us₁ ++ q :: r :: (us₂ ++ s :: us₃))) l ∧
      Lexer.At 2 (Lexer.baseModes true) [] after l ∧
      List.Forall₂ Token.Alike (ts₁ ++ [t₁]) us₁ ∧ List.Forall₂ Token.Alike (ts₂ ++ [t₂]) us₂ ∧
      List.Forall₂ Token.Alike (ts₃ ++ [t₃]) us₃ := by
  have inside : Lexer.InExpression (Lexer.baseModes true) := .inl rfl
  have whole : (conditionalText src₁ src₂ src₃).toList =
      ['('] ++ (src₁.toList ++ ([')'] ++ ([' ', '?'] ++ ([' '] ++
        (src₂.toList ++ ([' ', ':'] ++ ([' '] ++ (src₃.toList ++ [])))))))) := by
    simp [conditionalText]
  have start : Lexer.At 2 (Lexer.baseModes true) _ false
      (Lexer.ofSource (conditionalText src₁ src₂ src₃).toList ⟨true, o.allowFilter⟩) :=
    ⟨congrArg _ whole, rfl, rfl, rfl, rfl⟩
  obtain ⟨p, l₁, pulls₁, opens, at₁, allow₁⟩ :=
    (Lexer.spells_bracket (p := "(") inside (by decide) rfl).pull start
  obtain ⟨us₁, l₂, pulls₂, alike₁, at₂, allow₂⟩ :=
    at₁.pulls h₁.tokens h₁.good (Lexer.partedIn_parenthesis _) allow₁
  obtain ⟨q, l₃, pulls₃, closes, at₃, allow₃⟩ :=
    (Lexer.spells_bracket (p := ")") inside (by decide) rfl).pull at₂
  obtain ⟨r, l₄, pulls₄, asks, at₄, allow₄⟩ :=
    (Lexer.spells_bracket (p := "?") inside (by decide) rfl).space.pull at₃
  obtain ⟨us₂, l₅, pulls₅, alike₂, at₅, allow₅⟩ :=
    (at₄.behind_gap Lexer.isGap_space).pulls h₂.tokens h₂.good (Lexer.partedIn_space _)
      (allow₄.trans (allow₃.trans allow₂))
  obtain ⟨s, l₆, pulls₆, colon, at₆, allow₆⟩ :=
    (Lexer.spells_bracket (p := ":") inside (by decide) rfl).space.pull at₅
  obtain ⟨us₃, l₇, pulls₇, alike₃, at₇, -⟩ :=
    (at₆.behind_gap Lexer.isGap_space).pulls h₃.tokens h₃.good (Lexer.partedIn_nil _)
      (allow₆.trans allow₅)
  have pulls := pulls₁.append (pulls₂.append (pulls₃.append (pulls₄.append (pulls₅.append
    (pulls₆.append pulls₇)))))
  exact ⟨us₁, us₂, us₃, p, q, r, s, l₇, _, ⟨opens, closes, asks, colon⟩, pulls, at₇, alike₁, alike₂,
    alike₃⟩

/-- An expression in parentheses as a test. -/
theorem Sourced.test {d : Nat} {us : List Token}
    (h : Sourced src₁ { o with maxDepth := d₁ } a ts₁ t₁ stop₁) (le : d₁ ≤ d)
    (alike : List.Forall₂ Token.Alike (ts₁ ++ [t₁]) us) (opens : p.kind = .punctuator "(")
    (closes : q.kind = .punctuator ")") (asks : r.kind = .punctuator "?") (good : c₂.failure = none)
    (shows : Shows q (r :: c₂.tokens) none us c) (n bound : Nat) :
    binary o.namespaces (nestedGoal o.namespaces d) (n + 1) bound (c.behind p) =
      .ok (some a, c₂.behind r) := by
  have stops : Stop q (r :: c₂.tokens) := .bracket closes (by rw [asks]; rfl)
  have inner : expression (nestedGoal o.namespaces d) c = .ok (a, (c₂.behind r).behind q) := by
    rw [Cursor.behind, Cursor.behind, good]
    exact h.same stops (by rw [closes]; simp) (by rw [closes]; simp) le alike shows
  have front : Opens (us.map (·.kind)) := by
    obtain ⟨c₀, shows₀⟩ := exists_shows stop₁ (ts₁ ++ [t₁])
    obtain ⟨c₁, outcome, ended⟩ := h.parsed c₀ shows₀
    rw [← kinds_alike alike]
    exact opens_of_expression (by simp) h.inked shows₀ outcome ended
  have first : c.current.kind.isPunctuator ")" = false := by
    obtain ⟨k, ks, kinds, unclosed, -⟩ := front.first
    obtain ⟨u, us, rfl, rfl, -⟩ := List.map_eq_cons_iff.1 kinds
    rw [shows.current]
    exact unclosed
  exact binary_group opens asks (parenthesized_group opens closes first inner)
    (arrow_group opens closes asks front shows) n bound

/-- The tokens of three expressions with these signs between them make a conditional. -/
theorem expression_conditional {d : Nat} {us₁ us₂ us₃ : List Token} {stop : Token}
    (form : o.form = .expression) (h₁ : Sourced src₁ { o with maxDepth := d₁ } a₁ ts₁ t₁ stop₁)
    (h₂ : Sourced src₂ { o with maxDepth := d₂ } a₂ ts₂ t₂ stop₂)
    (h₃ : Sourced src₃ { o with maxDepth := d₃ } a₃ ts₃ t₃ stop₃)
    (clear : endsBare o.namespaces (kindsFromEnd src₂ o) = false)
    (deep : max d₁ (max d₂ d₃) ≤ d) (alike₁ : List.Forall₂ Token.Alike (ts₁ ++ [t₁]) us₁)
    (alike₂ : List.Forall₂ Token.Alike (ts₂ ++ [t₂]) us₂)
    (alike₃ : List.Forall₂ Token.Alike (ts₃ ++ [t₃]) us₃) (signs : ConditionalSigns p q r s)
    (ends : stop.kind = .eof)
    (shows : Shows stop [] none (p :: (us₁ ++ q :: r :: (us₂ ++ s :: us₃))) c) :
    expression (nestedGoal o.namespaces (d + 1)) c =
      .ok (.conditional a₁ a₂ a₃, ⟨stop, [], none⟩) := by
  obtain ⟨le₁, le⟩ := Nat.max_le.1 deep
  obtain ⟨le₂, le₃⟩ := Nat.max_le.1 le
  -- Each cursor stands at the front of a part, and the next one behind the sign that ends it.
  obtain ⟨c₃, -, shows₃, -⟩ := ofTokens_shows stop [] none us₃
  obtain ⟨c₂, -, shows₂, -⟩ := ofTokens_shows s c₃.tokens none us₂
  obtain ⟨c₁, -, shows₁, -⟩ := ofTokens_shows q (r :: c₂.tokens) none us₁
  obtain rfl : c = c₁.behind p := by
    refine Shows.eq shows ⟨?_, shows₁.failure⟩
    change p :: c₁.tokens = _
    rw [shows₁.tokens, shows₂.tokens, shows₃.tokens]
    simp
  have test := h₁.test le₁ alike₁ signs.opens signs.closes signs.asks
    shows₂.failure shows₁ BinaryOp.maxPrecedence 1
  have consequent : expression (nestedGoal o.namespaces d) c₂ = .ok (a₂, c₃.behind s) := by
    rw [Cursor.behind, shows₃.failure]
    have apart := h₂.kindsFromEnd_eq form
    exact h₂.same (.colon _ signs.colon) (by rw [signs.colon]; simp) (fun _ => apart ▸ clear) le₂
      alike₂ shows₂
  have alternate : expression (nestedGoal o.namespaces d) c₃ = .ok (a₃, ⟨stop, [], none⟩) :=
    h₃.same (.text ends) (by rw [ends]; simp) (by rw [ends]; simp) le₃ alike₃ shows₃
  exact bind_of_ok (conditional_parts signs.asks test consequent signs.colon alternate)

/-- Expressions make a conditional, if the colon does not make a namespace of the name that the
second one ends with, and if one level more may be nested than in the three alone. -/
theorem parse_conditional (form : o.form = .expression)
    (parsed₁ : parse src₁ { o with maxDepth := d₁ } = .ok a₁)
    (parsed₂ : parse src₂ { o with maxDepth := d₂ } = .ok a₂)
    (parsed₃ : parse src₃ { o with maxDepth := d₃ } = .ok a₃)
    (inked₁ : ∃ c ∈ src₁.toList, Lexer.isSpace c = false)
    (inked₂ : ∃ c ∈ src₂.toList, Lexer.isSpace c = false)
    (inked₃ : ∃ c ∈ src₃.toList, Lexer.isSpace c = false)
    (clear : endsBare o.namespaces (kindsFromEnd src₂ o) = false) :
    ∃ least, ∀ d, least ≤ d → parse (conditionalText src₁ src₂ src₃) { o with maxDepth := d } =
      .ok (.conditional a₁ a₂ a₃) := by
  obtain ⟨ts₁, t₁, stop₁, h₁⟩ := exists_sourced (o := { o with maxDepth := d₁ }) form parsed₁ inked₁
  obtain ⟨ts₂, t₂, stop₂, h₂⟩ := exists_sourced (o := { o with maxDepth := d₂ }) form parsed₂ inked₂
  obtain ⟨ts₃, t₃, stop₃, h₃⟩ := exists_sourced (o := { o with maxDepth := d₃ }) form parsed₃ inked₃
  obtain ⟨us₁, us₂, us₃, p, q, r, s, l, after, signs, pulls, last, alike₁, alike₂, alike₃⟩ :=
    pulls_conditional h₁ h₂ h₃
  refine ⟨max d₁ (max d₂ d₃) + 1, fun d deep => ?_⟩
  obtain ⟨d, rfl⟩ := Nat.exists_eq_add_one_of_ne_zero (show d ≠ 0 by omega)
  obtain ⟨stop, ends, -, parses⟩ :=
    parse_of_pulls (o := { o with maxDepth := d + 1 }) form pulls last (by simp)
  obtain ⟨c, -, shows, -⟩ := ofTokens_shows stop [] none (p :: (us₁ ++ q :: r :: (us₂ ++ s :: us₃)))
  have outcome := expression_conditional form h₁ h₂ h₃ clear (Nat.le_of_succ_le_succ deep) alike₁
    alike₂ alike₃ signs ends shows
  exact (parses c _ shows).2 ⟨_, outcome, ends⟩

theorem parse_conditional_member :
    let o : ParseOptions := .expression
    o.form = .expression ∧
      parse "a > b" o = .ok (.binary .gt (.variable "a") (.variable "b")) ∧
      parse "x.ls" o = .ok (.getter (.variable "x") (.identifier "ls")) ∧
      parse "f(c)" o = .ok (.call "f" [.variable "c"]) ∧
      (∃ c ∈ "a > b".toList, Lexer.isSpace c = false) ∧
      (∃ c ∈ "x.ls".toList, Lexer.isSpace c = false) ∧
      (∃ c ∈ "f(c)".toList, Lexer.isSpace c = false) ∧
      endsBare o.namespaces (kindsFromEnd "x.ls" o) = false ∧
      ∃ least, ∀ d, least ≤ d →
        parse (conditionalText "a > b" "x.ls" "f(c)") { o with maxDepth := d } =
          .ok (.conditional (.binary .gt (.variable "a") (.variable "b"))
            (.getter (.variable "x") (.identifier "ls")) (.call "f" [.variable "c"])) := by
  intro o
  have parsed₁ : parse "a > b" o = .ok (.binary .gt (.variable "a") (.variable "b")) := by cbv
  have parsed₂ : parse "x.ls" o = .ok (.getter (.variable "x") (.identifier "ls")) := by cbv
  have parsed₃ : parse "f(c)" o = .ok (.call "f" [.variable "c"]) := by cbv
  have inked₁ : ∃ c ∈ "a > b".toList, Lexer.isSpace c = false := ⟨'a', by decide, by decide⟩
  have inked₂ : ∃ c ∈ "x.ls".toList, Lexer.isSpace c = false := ⟨'x', by decide, by decide⟩
  have inked₃ : ∃ c ∈ "f(c)".toList, Lexer.isSpace c = false := ⟨'f', by decide, by decide⟩
  have clear : endsBare o.namespaces (kindsFromEnd "x.ls" o) = false := by cbv
  exact ⟨rfl, parsed₁, parsed₂, parsed₃, inked₁, inked₂, inked₃, clear,
    parse_conditional (o := o) rfl parsed₁ parsed₂ parsed₃ inked₁ inked₂ inked₃ clear⟩

/-- The name of a namespace takes the colon of the conditional, and then the second branch is
missing. -/
theorem conditional_namespace :
    parse "x" .expression = .ok (.variable "x") ∧ parse "ls" .expression = .ok (.variable "ls") ∧
      parse "y" .expression = .ok (.variable "y") ∧
      ¬ ∃ least, ∀ d, least ≤ d →
        parse (conditionalText "x" "ls" "y") { ParseOptions.expression with maxDepth := d } =
          .ok (.conditional (.variable "x") (.variable "ls") (.variable "y")) := by
  refine ⟨by cbv, by cbv, by cbv, ?_⟩
  rintro ⟨least, parsed⟩
  have failed : parse (conditionalText "x" "ls" "y")
      { ParseOptions.expression with maxDepth := least + 4 } =
        .error (.unexpectedToken "EOF" ⟨12, 1, 13⟩) := by cbv
  cases failed.symm.trans (parsed (least + 4) (Nat.le_add_right least 4))

end Texts

end Parser

end TemplateFormula
