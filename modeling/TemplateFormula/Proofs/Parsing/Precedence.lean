import TemplateFormula.Expr
import TemplateFormula.Proofs.Printing.Flat

/-!
# Precedence climbing

A tree of binary operators is read from left to right as operands with operators between them. Of
all the trees of one reading, only one puts operators that bind tighter below those that bind less
tightly and, where they bind alike, the left one below the right one.

A row of operands with operators between them is parsed as its one stratified tree, whatever the
operators and however long the row is. Climbing with a bound takes the front of the row, up to the
first operator that binds less tightly than the bound.
-/

namespace TemplateFormula.Expr

/-- Operands and operators from left to right. What is no combination of two is one operand. -/
def reading : Expr → List (Expr ⊕ BinaryOp)
  | .binary op left right => left.reading ++ .inr op :: right.reading
  | e => [.inl e]

def root? : Expr → Option BinaryOp
  | .binary op _ _ => some op
  | _ => none

/-- No operator stands above one that binds less tightly, nor above one on its right that binds
alike. -/
inductive Stratified : Expr → Prop where
  | operand {e : Expr} (h : e.root? = none) : Stratified e
  | binary {op : BinaryOp} {left right : Expr} (hl : Stratified left) (hr : Stratified right)
      (onLeft : ∀ op' ∈ left.root?, op.precedence ≤ op'.precedence)
      (onRight : ∀ op' ∈ right.root?, op.precedence < op'.precedence) :
      Stratified (.binary op left right)

variable {e t t' : Expr}

theorem reading_operand (h : e.root? = none) : e.reading = [.inl e] := by
  cases e with
  | binary op left right => cases h
  | _ =>
    rw [reading]
    exact fun _ _ _ => Expr.noConfusion

theorem reading_binary (op : BinaryOp) (left right : Expr) :
    (Expr.binary op left right).reading = left.reading ++ .inr op :: right.reading := by
  rw [reading]

/-- Operators that bind less tightly than the root stand nowhere below it. -/
theorem Stratified.least {p : Nat} (h : t.Stratified)
    (hroot : ∀ op ∈ t.root?, p ≤ op.precedence) :
    ∀ op, .inr op ∈ t.reading → p ≤ op.precedence := by
  induction h generalizing p with
  | operand h =>
    intro op hmem
    rw [reading_operand h] at hmem
    cases List.mem_singleton.1 hmem
  | @binary root left right _ _ onLeft onRight ihl ihr =>
    have here : p ≤ root.precedence := hroot root rfl
    intro op hmem
    rw [reading_binary, List.mem_append, List.mem_cons] at hmem
    rcases hmem with hleft | hhere | hright
    · exact ihl (fun op' h => Nat.le_trans here (onLeft op' h)) op hleft
    · cases hhere
      exact here
    · exact ihr (fun op' h => Nat.le_trans here (Nat.le_of_lt (onRight op' h))) op hright

/-- The root of one tree cannot stand to the left of the root of the other. -/
theorem Stratified.not_before {op op' : BinaryOp} {right left' : Expr}
    {between : List (Expr ⊕ BinaryOp)} {before after : List (Expr ⊕ BinaryOp)}
    (hr : right.Stratified) (hl : left'.Stratified)
    (onRight : ∀ o ∈ right.root?, op.precedence < o.precedence)
    (onLeft : ∀ o ∈ left'.root?, op'.precedence ≤ o.precedence)
    (hleft : left'.reading = before ++ .inr op :: between)
    (hright : right.reading = between ++ .inr op' :: after) : False := by
  have tighter : op.precedence + 1 ≤ op'.precedence := hr.least onRight op' (by simp [hright])
  have looser : op'.precedence ≤ op.precedence := hl.least onLeft op (by simp [hleft])
  omega

/-- A reading has one stratified tree. -/
theorem Stratified.eq_of_reading (h : t.Stratified) (h' : t'.Stratified)
    (same : t.reading = t'.reading) : t = t' := by
  induction h generalizing t' with
  | operand h =>
    rw [reading_operand h] at same
    cases h' with
    | operand h' =>
      rw [reading_operand h'] at same
      exact Sum.inl.inj (List.cons.inj same).1
    | @binary op left right _ _ _ _ =>
      have hmem : .inr op ∈ (Expr.binary op left right).reading := by simp [reading_binary]
      rw [← same] at hmem
      cases List.mem_singleton.1 hmem
  | @binary op left right hl hr onLeft onRight ihl ihr =>
    rw [reading_binary] at same
    cases h' with
    | operand h' =>
      rw [reading_operand h'] at same
      have hmem : .inr op ∈ [Sum.inl t'] := by simp [← same]
      cases List.mem_singleton.1 hmem
    | @binary op' left' right' hl' hr' onLeft' onRight' =>
      rw [reading_binary] at same
      rcases List.append_eq_append_iff.1 same with ⟨as, hleft, hbehind⟩ | ⟨as, hleft, hbehind⟩
      · cases as with
        | nil =>
          obtain ⟨hop, hright⟩ := List.cons.inj hbehind
          rw [ihl hl' (by simpa using hleft.symm), Sum.inr.inj hop, ihr hr' hright]
        | cons x as =>
          obtain ⟨rfl, hright⟩ := List.cons.inj hbehind
          exact (not_before hr hl' onRight onLeft' hleft hright).elim
      · cases as with
        | nil =>
          obtain ⟨hop, hright⟩ := List.cons.inj hbehind
          rw [ihl hl' (by simpa using hleft), Sum.inr.inj hop, ihr hr' hright.symm]
        | cons x as =>
          obtain ⟨rfl, hright⟩ := List.cons.inj hbehind
          exact (not_before hr' hl onRight' onLeft hleft hright).elim

end TemplateFormula.Expr

namespace TemplateFormula

/-- An operand of one token: a name or a numeral without a sign. -/
inductive Atom where
  | name (s : String) (h : IsName s)
  | numeral (cs : List Char) (h : Scan.IsNumeral cs)

namespace Atom

def written : Atom → List Char
  | name s _ => s.toList
  | numeral cs _ => cs

def token : Atom → TokenKind
  | name s _ => .identifier s
  | numeral _ h => .number (Number.value h)

def leaf : Atom → Expr
  | name s _ => .variable s
  | numeral _ h => .number (Number.value h)

theorem root?_leaf (x : Atom) : x.leaf.root? = none := by
  cases x <;> rfl

end Atom

/-- Operands with operators between them. -/
structure Chain where
  first : Atom
  steps : List (BinaryOp × Atom)

namespace Chain

/-- An operator and the operand behind it. -/
def behind (s : BinaryOp × Atom) : List Char := ' ' :: s.1.symbol.toList ++ ' ' :: s.2.written

def written (c : Chain) : List Char := c.first.written ++ c.steps.flatMap behind

def tokens (steps : List (BinaryOp × Atom)) : List TokenKind :=
  steps.flatMap fun s => [.punctuator s.1.symbol, s.2.token]

def marks (steps : List (BinaryOp × Atom)) : List (Expr ⊕ BinaryOp) :=
  steps.flatMap fun s => [.inr s.1, .inl s.2.leaf]

def reading (c : Chain) : List (Expr ⊕ BinaryOp) := .inl c.first.leaf :: marks c.steps

theorem tokens_cons (s : BinaryOp × Atom) (steps : List (BinaryOp × Atom)) :
    tokens (s :: steps) = .punctuator s.1.symbol :: s.2.token :: tokens steps := rfl

theorem marks_cons (s : BinaryOp × Atom) (steps : List (BinaryOp × Atom)) :
    marks (s :: steps) = .inr s.1 :: .inl s.2.leaf :: marks steps := rfl

theorem length_lt_tokens (steps : List (BinaryOp × Atom)) :
    steps.length < (tokens steps ++ [TokenKind.eof]).length := by
  induction steps with
  | nil => exact Nat.one_pos
  | cons s steps ih =>
    simp only [tokens_cons, List.cons_append, List.length_cons] at ih ⊢
    omega

/-- The front of a row as a tree, up to the first operator that binds less tightly than the
bound. -/
structure Takes (bound : Nat) (read : List (Expr ⊕ BinaryOp)) (steps : List (BinaryOp × Atom))
    (t : Expr) (rest : List (BinaryOp × Atom)) : Prop where
  reading : t.reading ++ marks rest = read ++ marks steps
  stratified : t.Stratified
  root : ∀ op ∈ t.root?, bound ≤ op.precedence
  next : ∀ s ∈ rest.head?, s.1.precedence < bound
  shorter : rest.length ≤ steps.length

/-- Where the next operator binds less tightly than the bound, the row ends with what was read. -/
theorem takes_none {bound : Nat} {t : Expr} {steps : List (BinaryOp × Atom)} (h : t.Stratified)
    (root : ∀ op ∈ t.root?, bound ≤ op.precedence)
    (next : ∀ s ∈ steps.head?, s.1.precedence < bound) : Takes bound t.reading steps t steps :=
  ⟨rfl, h, root, next, Nat.le_refl _⟩

theorem takes_atom {bound : Nat} (x : Atom) {steps : List (BinaryOp × Atom)}
    (next : ∀ s ∈ steps.head?, s.1.precedence < bound) :
    Takes bound [.inl x.leaf] steps x.leaf steps := by
  rw [← Expr.reading_operand x.root?_leaf]
  exact takes_none (.operand x.root?_leaf) (by simp [x.root?_leaf]) next

/-- The least bound leaves nothing of a row. -/
theorem Takes.all {read : List (Expr ⊕ BinaryOp)} {steps rest : List (BinaryOp × Atom)} {t : Expr}
    (h : Takes 1 read steps t rest) : rest = [] := by
  cases rest with
  | nil => rfl
  | cons s rest => exact absurd (h.next s rfl) (Nat.not_lt.2 s.1.one_le_precedence)

end Chain

namespace Lexer

theorem spells_atom {base : Nat} {ms : List Mode} {a : Bool} {rest : List Char}
    (hm : InExpression ms) (x : Atom) (hrest : EndsWord rest) :
    Spells base ms a x.written [x.token] true rest := by
  cases x with
  | name s h => exact spells_name hm h hrest
  | numeral cs h => exact spells_numeral hm h hrest.endsNumeral

/-- What stands behind an operand ends it. -/
theorem endsWord_steps (steps : List (BinaryOp × Atom)) :
    EndsWord (steps.flatMap Chain.behind) := by
  cases steps with
  | nil => rintro _ ⟨⟩
  | cons s steps => exact endsWord_cons rfl _

theorem spells_steps {base : Nat} {ms : List Mode} (hm : InExpression ms)
    (steps : List (BinaryOp × Atom)) :
    Spells base ms true (steps.flatMap Chain.behind) (Chain.tokens steps) true [] := by
  induction steps with
  | nil => exact spells_gap isGap_nil
  | cons s steps ih =>
    have operator (rest : List Char) : Spells base ms true (' ' :: s.1.symbol.toList)
        [.punctuator s.1.symbol] false (' ' :: rest) :=
      ((joins_binary s.1).spells hm rest).space
    have operand : Spells base ms false (' ' :: s.2.written) [s.2.token] true
        (steps.flatMap Chain.behind ++ []) := by
      rw [List.append_nil]
      exact (spells_atom hm s.2 (endsWord_steps steps)).space
    have step := (operator _).append (operand.append ih)
    simpa only [List.flatMap_cons, Chain.behind, Chain.tokens_cons, List.append_assoc,
      List.cons_append, List.nil_append] using step

theorem spells_chain {base : Nat} {ms : List Mode} (hm : InExpression ms) (c : Chain) :
    Spells base ms false c.written (c.first.token :: Chain.tokens c.steps) true [] := by
  refine (spells_atom hm c.first ?_).append (spells_steps hm c.steps)
  rw [List.append_nil]
  exact endsWord_steps c.steps

end Lexer

namespace Parser

open Chain

variable {nested : Nested} {ns : List String} {k : TokenKind} {js : List TokenKind}
  {steps : List (BinaryOp × Atom)}

theorem parses_unary_number {x : Float} (hdot : k.isPunctuator "." = false)
    (hbracket : k.isPunctuator "[" = false) :
    Parses (unary ns nested) (.number x :: k :: js) (some (.number x)) (k :: js) := by
  have primary : Parses (primary ns nested) (.number x :: k :: js) (some (.number x)) (k :: js) :=
    .firstOf_tail (parses_variableName_none rfl rfl) <|
      .firstOf_tail (parses_literal_none fun v => by cases v <;> exact TokenKind.noConfusion)
        (parses_number x).firstOf_head
  exact parses_unary rfl (parses_operand (parses_head_of_primary rfl rfl primary) hdot hbracket)

theorem parses_unary_atom (x : Atom) (hk : Separates k) (hdot : k.isPunctuator "." = false)
    (hbracket : k.isPunctuator "[" = false) :
    Parses (unary ns nested) (x.token :: k :: js) (some x.leaf) (k :: js) := by
  cases x with
  | name s h => exact parses_unary_name hk hdot hbracket
  | numeral cs h => exact parses_unary_number hdot hbracket

/-- An operand of a row stands in front of an operator or the end of the text. -/
theorem parses_unary_chain (x : Atom) (steps : List (BinaryOp × Atom)) :
    Parses (unary ns nested) (x.token :: (tokens steps ++ [.eof])) (some x.leaf)
      (tokens steps ++ [.eof]) := by
  cases steps with
  | nil => exact parses_unary_atom x separates_eof rfl rfl
  | cons s steps =>
    have separates : Separates (.punctuator s.1.symbol) := by
      constructor <;> cases s.1 <;> decide
    exact parses_unary_atom x separates (by cases s.1 <;> decide) (by cases s.1 <;> decide)

theorem parses_climb_stop {right : Nat → Parser (Option Expr)} {bound m : Nat} {left : Expr}
    (next : ∀ s ∈ steps.head?, s.1.precedence < bound) :
    Parses (climb right bound (m + 1) left) (tokens steps ++ [.eof]) left
      (tokens steps ++ [.eof]) := by
  cases steps with
  | nil => exact parses_climb_none rfl
  | cons s steps =>
    have found : binaryOp? (.punctuator s.1.symbol) = some s.1 := BinaryOp.ofSymbol?_symbol s.1
    rw [climb]
    refine (parses_kind _ _).bind ?_
    simp only [found]
    rw [if_pos (next s rfl)]
    exact parses_pure _ _

/-- A parser of right operands takes the front of any row. -/
def TakesRows (p : Parser (Option Expr)) (bound : Nat) : Prop :=
  ∀ (x : Atom) (steps : List (BinaryOp × Atom)), ∃ t rest, Takes bound [.inl x.leaf] steps t rest ∧
    Parses p (x.token :: (tokens steps ++ [.eof])) (some t) (tokens rest ++ [.eof])

/-- The loop: what was read so far goes to the left of the next operator, unless that binds less
tightly than the bound. -/
theorem parses_climb_chain {right : Nat → Parser (Option Expr)} {bound m : Nat} {left : Expr}
    (hright : ∀ op : BinaryOp, bound ≤ op.precedence →
      TakesRows (right (op.precedence + 1)) (op.precedence + 1))
    (hm : steps.length < m) (hleft : left.Stratified)
    (root : ∀ op ∈ left.root?, bound ≤ op.precedence)
    (next : ∀ s ∈ steps.head?, ∀ op ∈ left.root?, s.1.precedence ≤ op.precedence) :
    ∃ t rest, Takes bound left.reading steps t rest ∧
      Parses (climb right bound m left) (tokens steps ++ [.eof]) t (tokens rest ++ [.eof]) := by
  induction m generalizing left steps with
  | zero => exact absurd hm (Nat.not_lt_zero _)
  | succ m ih =>
    by_cases stops : ∀ s ∈ steps.head?, s.1.precedence < bound
    · exact ⟨left, steps, takes_none hleft root stops, parses_climb_stop stops⟩
    obtain ⟨⟨op, x⟩, steps, rfl⟩ : ∃ s steps', steps = s :: steps' := by
      cases steps with
      | nil => exact absurd (by rintro _ ⟨⟩) stops
      | cons s steps => exact ⟨s, steps, rfl⟩
    have tight : ¬ op.precedence < bound := fun h => stops (by rintro _ ⟨⟩; exact h)
    obtain ⟨e, behind, takes, parses⟩ := hright op (Nat.not_lt.1 tight) x steps
    have joined : (Expr.binary op left e).Stratified :=
      .binary hleft takes.stratified (next (op, x) rfl) takes.root
    have fewer : behind.length < m :=
      Nat.lt_of_le_of_lt takes.shorter (Nat.lt_of_succ_lt_succ hm)
    obtain ⟨t, rest, more, goes⟩ := ih fewer joined
      (by rintro _ ⟨⟩; exact Nat.not_lt.1 tight)
      (by rintro s hs _ ⟨⟩; exact Nat.le_of_lt_succ (takes.next s hs))
    refine ⟨t, rest, ⟨?_, more.stratified, more.root, more.next, ?_⟩, ?_⟩
    · calc t.reading ++ marks rest
          = (Expr.binary op left e).reading ++ marks behind := more.reading
        _ = left.reading ++ .inr op :: (e.reading ++ marks behind) := by
          rw [Expr.reading_binary, List.append_assoc, List.cons_append]
        _ = left.reading ++ marks ((op, x) :: steps) := by
          rw [takes.reading, marks_cons]
          rfl
    · exact Nat.le_succ_of_le (Nat.le_trans more.shorter takes.shorter)
    · have found : binaryOp? (.punctuator op.symbol) = some op := BinaryOp.ofSymbol?_symbol op
      rw [climb]
      refine (parses_kind _ _).bind ?_
      simp only [found]
      rw [if_neg tight]
      refine (parses_advance _ _ _).bind ?_
      exact parses.required.bind goes

/-- The bound rises with each nesting, so that where the levels run out no operator reaches it. -/
theorem takesRows_binary {n bound : Nat} (hn : BinaryOp.maxPrecedence < n + bound) :
    TakesRows (binary ns nested n bound) bound := by
  induction n generalizing bound with
  | zero =>
    intro x steps
    rw [Nat.zero_add] at hn
    have stops : ∀ s ∈ steps.head?, s.1.precedence < bound :=
      fun s _ => Nat.lt_of_le_of_lt s.1.precedence_le_max hn
    exact ⟨x.leaf, steps, takes_atom x stops, parses_unary_chain x steps⟩
  | succ n ih =>
    intro x steps
    have hright (op : BinaryOp) (tight : bound ≤ op.precedence) :
        TakesRows (binary ns nested n (op.precedence + 1)) (op.precedence + 1) := ih (by omega)
    obtain ⟨t, rest, takes, climbs⟩ := parses_climb_chain hright (length_lt_tokens steps)
      (.operand x.root?_leaf) (by simp [x.root?_leaf]) (by simp [x.root?_leaf])
    rw [Expr.reading_operand x.root?_leaf] at takes
    refine ⟨t, rest, takes, ?_⟩
    rw [binary]
    refine (parses_unary_chain x steps).bind ?_
    exact (parses_remaining _).bind (climbs.bind (parses_pure _ _))

/-- A whole row. -/
theorem parses_chain (c : Chain) : ∃ t, t.reading = c.reading ∧ t.Stratified ∧
    Parses (conditional ns nested) (c.first.token :: (tokens c.steps ++ [.eof])) (some t)
      [.eof] := by
  obtain ⟨t, rest, takes, parses⟩ := @takesRows_binary nested ns (BinaryOp.maxPrecedence + 1) 1
    (by omega) c.first c.steps
  obtain rfl := takes.all
  refine ⟨t, ?_, takes.stratified, parses_conditional parses rfl⟩
  rw [← List.append_nil t.reading]
  exact takes.reading

end Parser

section Accepted

variable {o : ParseOptions} (hform : o.form = .expression) (hdepth : 0 < o.maxDepth)
include hform hdepth

/-- A row of operators needs one level, however long it is. -/
theorem parse_row (c : Chain) :
    ∃ t, parse (String.ofList c.written) o = .ok t ∧ t.reading = c.reading ∧ t.Stratified := by
  obtain ⟨d, hd⟩ : ∃ d, o.maxDepth = d + 1 := ⟨o.maxDepth - 1, by omega⟩
  obtain ⟨t, reads, stratified, parses⟩ := @Parser.parses_chain
    (Parser.nestedGoal o.namespaces d) o.namespaces c
  refine ⟨t, ?_, reads, stratified⟩
  refine parse_of_spells hform (Lexer.spells_chain (.inl rfl) c) ⟨_, _, rfl, ?_⟩ ?_
  · cases c.first <;> exact TokenKind.noConfusion
  · rw [hd]
    exact parses

/-- Operands with operators between them are parsed as the one tree in which operators that bind
tighter stand deeper and those that bind alike stand deeper on the left. -/
theorem parse_chain (c : Chain) :
    ∃ t, parse (String.ofList c.written) o = .ok t ∧ t.reading = c.reading ∧ t.Stratified ∧
      ∀ t' : Expr, t'.reading = c.reading → t'.Stratified → t' = t := by
  obtain ⟨t, parses, reads, stratified⟩ := parse_row hform hdepth c
  exact ⟨t, parses, reads, stratified, fun t' reads' stratified' =>
    stratified'.eq_of_reading stratified (reads'.trans reads.symm)⟩

end Accepted

theorem isNumeral_exponent : Scan.IsNumeral ['2', '.', '5', 'E', '1'] :=
  ⟨['2'], ['.', '5'], ['E', '1'], rfl, .inr ⟨⟨by simp, by simp⟩, by simp⟩,
    .inr ⟨['5'], rfl, by simp, by simp⟩,
    .inr ⟨'E', [], ['1'], rfl, .inr rfl, .inl rfl, by simp, by simp⟩⟩

/-- Two operators that bind alike with one that binds tighter between them. -/
def mixedChain : Chain where
  first := .name "x" isName_x
  steps := [(.minus, .numeral _ isNumeral_exponent), (.power, .name "x" isName_x),
    (.add, .name "x" isName_x)]

theorem parse_mixedChain : ParseOptions.expression.form = .expression ∧
    0 < ParseOptions.expression.maxDepth ∧
    parse (String.ofList mixedChain.written) .expression =
      .ok (.binary .add (.binary .minus (.variable "x")
        (.binary .power (.number (Number.value isNumeral_exponent)) (.variable "x")))
        (.variable "x")) := by
  obtain ⟨t, parses, -, -, unique⟩ := @parse_chain .expression rfl (by decide) mixedChain
  refine ⟨rfl, by decide, parses.trans (congrArg _ (unique _ rfl ?_).symm)⟩
  have power : (Expr.binary .power (.number (Number.value isNumeral_exponent))
      (.variable "x")).Stratified :=
    .binary (.operand rfl) (.operand rfl) (by rintro _ ⟨⟩) (by rintro _ ⟨⟩)
  have minus : (Expr.binary .minus (.variable "x") (.binary .power
      (.number (Number.value isNumeral_exponent)) (.variable "x"))).Stratified :=
    .binary (.operand rfl) power (by rintro _ ⟨⟩) (by rintro _ ⟨⟩; decide)
  exact .binary minus (.operand rfl) (by rintro _ ⟨⟩; decide) (by rintro _ ⟨⟩)

/-- One operator between copies of one name. -/
def Chain.uniform (op : BinaryOp) {name : String} (h : IsName name) (n : Nat) : Chain :=
  ⟨.name name h, List.replicate n (op, .name name h)⟩

theorem Chain.written_uniform (op : BinaryOp) {name : String} (h : IsName name) (n : Nat) :
    (uniform op h n).written = name.toList ++ repeated n (Flat.behind op.symbol name) := by
  simp only [written, uniform, Atom.written, List.flatMap_replicate]
  rfl

/-- Operators that bind alike are combined from left to right. -/
theorem Expr.stratified_combined (op : BinaryOp) {name : String} (h : IsName name) (n : Nat)
    {left : Expr} (hleft : left.Stratified)
    (root : ∀ op' ∈ left.root?, op.precedence ≤ op'.precedence) :
    (combined op name n left).Stratified ∧ (combined op name n left).reading =
      left.reading ++ Chain.marks (List.replicate n (op, .name name h)) := by
  induction n generalizing left with
  | zero => exact ⟨hleft, (List.append_nil _).symm⟩
  | succ n ih =>
    have joined : (Expr.binary op left (.variable name)).Stratified :=
      .binary hleft (.operand rfl) root (by rintro _ ⟨⟩)
    obtain ⟨stratified, reads⟩ := ih joined (by rintro _ ⟨⟩; exact Nat.le_refl _)
    refine ⟨stratified, reads.trans ?_⟩
    rw [reading_binary, @reading_operand (.variable name) rfl, List.replicate_succ,
      Chain.marks_cons, List.append_assoc]
    rfl

theorem parse_operators {name : String} (hname : IsName name) {o : ParseOptions}
    (hform : o.form = .expression) (hdepth : 0 < o.maxDepth) (op : BinaryOp) (n : Nat) :
    parse (String.ofList (name.toList ++ repeated n (Flat.behind op.symbol name))) o =
      .ok (Expr.combined op name n (.variable name)) := by
  obtain ⟨t, parses, reads, stratified⟩ := parse_row hform hdepth (.uniform op hname n)
  obtain ⟨stratified', reads'⟩ := Expr.stratified_combined op hname n
    (@Expr.Stratified.operand (.variable name) rfl) (by rintro _ ⟨⟩)
  rw [← Chain.written_uniform op hname n, parses,
    stratified.eq_of_reading stratified' (reads.trans reads'.symm)]

end TemplateFormula
