import TemplateFormula.Proofs.Parsing.Combinators
import TemplateFormula.Proofs.Printing.Written
import Mathlib.Data.List.Forall2

/-!
# Parsing written expressions

The tokens of a plain expression are parsed as the expression. In front of every operator stands an
operand in parentheses, so each alternative that comes before the right one gives up on its first
tokens.
-/

namespace TemplateFormula.Parser

open Written

/-- Tokens that no expression goes on with. -/
structure Ends (k : TokenKind) : Prop where
  member : k.isPunctuator "." = false
  bracket : k.isPunctuator "[" = false
  operator : binaryOp? k = none
  test : k.isPunctuator "?" = false
  equal : k.isPunctuator "=" = false

/-- The end of the text and a closing parenthesis. -/
def Closes (k : TokenKind) : Prop := k = .eof ∨ k = punct ")"

theorem Closes.ends {k : TokenKind} (h : Closes k) : Ends k := by
  rcases h with rfl | rfl <;> exact ⟨rfl, rfl, rfl, rfl, rfl⟩

theorem ends_of_punct {p : String} (h : p ∈ [")", "]", ",", "\x7d", ":"]) : Ends (punct p) := by
  simp only [List.mem_cons, List.not_mem_nil, or_false] at h
  rcases h with rfl | rfl | rfl | rfl | rfl <;> exact ⟨rfl, rfl, rfl, rfl, rfl⟩

variable {nested : Nested} {ns : List String} {k k' : TokenKind}
  {ks js js' : List TokenKind} {e : Expr}

theorem parses_membersOf_none {n : Nat} (hdot : k.isPunctuator "." = false)
    (hbracket : k.isPunctuator "[" = false) :
    Parses (membersOf nested (n + 1) e) (k :: ks) e (k :: ks) := by
  rw [membersOf]
  refine (parses_check "." k ks).bind ?_
  rw [hdot, if_neg Bool.false_ne_true]
  refine (parses_check "[" k ks).bind ?_
  rw [hbracket, if_neg Bool.false_ne_true]
  exact parses_pure _ _

theorem parses_operand (hhead : Parses (operandHead ns nested) ks (some e) (k :: js))
    (hdot : k.isPunctuator "." = false) (hbracket : k.isPunctuator "[" = false) :
    Parses (operand ns nested) ks (some e) (k :: js) := by
  refine hhead.bind ?_
  refine (parses_remaining (k :: js)).bind ?_
  exact (parses_membersOf_none hdot hbracket).bind (parses_pure _ _)

def unaryOp? : TokenKind → Option UnaryOp
  | .punctuator s => UnaryOp.ofSymbol? s
  | _ => none

theorem parses_unaryOps_none {n : Nat} (hk : unaryOp? k = none) :
    Parses (unaryOps (n + 1)) (k :: ks) [] (k :: ks) := by
  rw [unaryOps]
  refine (parses_kind k ks).bind ?_
  cases k with
  | punctuator s =>
    simp only [unaryOp?] at hk
    simp only [hk]
    exact parses_pure _ _
  | _ => exact parses_pure _ _

theorem parses_unary (hk : unaryOp? k = none)
    (hoperand : Parses (operand ns nested) (k :: ks) (some e) js) :
    Parses (unary ns nested) (k :: ks) (some e) js := by
  refine (parses_remaining (k :: ks)).bind ?_
  refine (parses_unaryOps_none hk).bind ?_
  exact hoperand.bind (parses_pure _ _)

theorem parses_climb_none {right : Nat → Parser (Option Expr)} {bound n : Nat}
    (hk : binaryOp? k = none) : Parses (climb right bound (n + 1) e) (k :: ks) e (k :: ks) := by
  rw [climb]
  refine (parses_kind k ks).bind ?_
  rw [hk]
  exact parses_pure _ _

theorem parses_binary (n bound : Nat) (hunary : Parses (unary ns nested) ks (some e) (k :: js))
    (hk : binaryOp? k = none) : Parses (binary ns nested n bound) ks (some e) (k :: js) := by
  cases n with
  | zero => exact hunary
  | succ n =>
    rw [binary]
    refine hunary.bind ?_
    refine (parses_remaining (k :: js)).bind ?_
    exact (parses_climb_none hk).bind (parses_pure _ _)

theorem parses_conditional
    (hbinary : Parses (binary ns nested (BinaryOp.maxPrecedence + 1) 1) ks (some e) (k :: js))
    (hk : k.isPunctuator "?" = false) : Parses (conditional ns nested) ks (some e) (k :: js) := by
  refine hbinary.bind ?_
  refine (parses_check "?" k js).bind ?_
  rw [hk, if_neg Bool.false_ne_true]
  exact parses_pure _ _

/-- An expression that is one operand. -/
theorem parses_conditional_of_head (hk : unaryOp? k = none)
    (hhead : Parses (operandHead ns nested) (k :: ks) (some e) (k' :: js)) (hk' : Ends k') :
    Parses (conditional ns nested) (k :: ks) (some e) (k' :: js) := by
  have hoperand := parses_operand hhead hk'.member hk'.bracket
  have hunary := parses_unary hk hoperand
  exact parses_conditional (parses_binary _ _ hunary hk'.operator) hk'.test

def isIdentifier : TokenKind → Bool
  | .identifier _ => true
  | _ => false

theorem parses_list_none {p q : String} (hk : k.isPunctuator p = false) :
    Parses (list nested p q) (k :: ks) none (k :: ks) := by
  refine (parses_check p k ks).bind ?_
  rw [hk, if_neg Bool.false_ne_true]
  exact parses_pure _ _

theorem parses_call_none (hk : isIdentifier k = false) :
    Parses (call nested) (k :: ks) none (k :: ks) := by
  refine Parses.attempt_none (k :: ks) ((parses_kind k ks).bind ?_)
  cases k with
  | identifier name => cases hk
  | _ => exact parses_pure _ _

theorem parses_call_name_none {name : String} (hk : k.isPunctuator "(" = false) :
    Parses (call nested) (.identifier name :: k :: ks) none (.identifier name :: k :: ks) := by
  refine Parses.attempt_none (k :: ks) ((parses_kind _ _).bind ?_)
  refine (parses_advance _ k ks).bind ?_
  exact (parses_list_none hk).bind (parses_pure _ _)

theorem parses_parameterList_none (hk : k.isPunctuator "(" = false) :
    Parses parameterList (k :: ks) none (k :: ks) := by
  refine Parses.attempt_none (k :: ks) ((parses_check "(" k ks).bind ?_)
  rw [hk, if_neg Bool.false_ne_true]
  exact parses_pure _ _

theorem parses_parameter_none (hk : isIdentifier k = false) :
    Parses parameter (k :: ks) none (k :: ks) := by
  refine (parses_kind k ks).bind ?_
  cases k with
  | identifier name => cases hk
  | _ => exact parses_pure _ _

/-- What stands behind the parameters when no arrow does. -/
theorem parses_arrow_of_parameters {params : List String}
    (h : Parses parameterList ks (some params) (k :: js)) (hk : k.isPunctuator "=" = false) :
    Parses (arrow nested) ks none ks := by
  have hhead : Parses arrowHead ks none ks := by
    refine Parses.attempt_none (k :: js) ?_
    refine h.bind ?_
    refine (parses_pure (some params) (k :: js)).bind ?_
    refine (parses_check "=" k js).bind ?_
    rw [hk, if_neg Bool.false_ne_true]
    exact parses_pure _ _
  exact hhead.bind (parses_pure _ _)

theorem parses_arrow_none (hlist : Parses parameterList (k :: ks) none (k :: ks))
    (hk : isIdentifier k = false) : Parses (arrow nested) (k :: ks) none (k :: ks) := by
  have hhead : Parses arrowHead (k :: ks) none (k :: ks) := by
    refine Parses.attempt_none (k :: ks) ?_
    refine hlist.bind ?_
    exact (parses_parameter_none hk).bind (parses_pure _ _)
  exact hhead.bind (parses_pure _ _)

theorem parses_arrow_name_none {name : String} (hk : k.isPunctuator "=" = false) :
    Parses (arrow nested) (.identifier name :: k :: ks) none (.identifier name :: k :: ks) := by
  have hparameter : Parses parameter (.identifier name :: k :: ks) (some [name]) (k :: ks) := by
    refine (parses_kind _ _).bind ?_
    exact (parses_advance _ k ks).bind (parses_pure _ _)
  have hhead :
      Parses arrowHead (.identifier name :: k :: ks) none (.identifier name :: k :: ks) := by
    refine Parses.attempt_none (k :: ks) ?_
    refine (parses_parameterList_none rfl).bind ?_
    refine hparameter.bind ?_
    refine (parses_check "=" k ks).bind ?_
    rw [hk, if_neg Bool.false_ne_true]
    exact parses_pure _ _
  exact hhead.bind (parses_pure _ _)

/-- The tokens of an expression, as far as the search for parameters looks at them. -/
inductive Opens : List TokenKind → Prop where
  | name (s : String) : Opens [.identifier s]
  | named (s : String) {k : TokenKind} (ks : List TokenKind) (hcomma : k.isPunctuator "," = false)
      (hclose : k.isPunctuator ")" = false) : Opens (.identifier s :: k :: ks)
  | other {k : TokenKind} (ks : List TokenKind) (hk : isIdentifier k = false)
      (hclose : k.isPunctuator ")" = false) (heof : k ≠ .eof) : Opens (k :: ks)

theorem Opens.first (h : Opens ks) :
    ∃ k is, ks = k :: is ∧ k.isPunctuator ")" = false ∧ k ≠ .eof := by
  cases h with
  | name s => exact ⟨_, _, rfl, rfl, TokenKind.noConfusion⟩
  | named s ks _ _ => exact ⟨_, _, rfl, rfl, TokenKind.noConfusion⟩
  | other ks hk hclose heof => exact ⟨_, _, rfl, hclose, heof⟩

theorem parses_parameters_close {n : Nat} {expectName : Bool} :
    Parses (parameters (n + 1) expectName) (punct ")" :: k :: ks) (some []) (k :: ks) := by
  rw [parameters]
  refine (parses_check ")" _ _).bind ?_
  rw [if_pos (by rfl)]
  exact (parses_advance _ k ks).bind (parses_pure _ _)

theorem parses_parameters_none {n : Nat} (hclose : k.isPunctuator ")" = false)
    (hk : isIdentifier k = false) :
    Parses (parameters (n + 1) true) (k :: ks) none (k :: ks) := by
  rw [parameters]
  refine (parses_check ")" k ks).bind ?_
  rw [hclose, if_neg Bool.false_ne_true]
  refine (parses_kind k ks).bind ?_
  cases k with
  | identifier name => cases hk
  | _ => exact parses_pure _ _

theorem parses_parameters_name {n : Nat} {name : String} {r : Option (List String)}
    (h : Parses (parameters n false) (k :: ks) r js) :
    Parses (parameters (n + 1) true) (.identifier name :: k :: ks) (r.map (name :: ·)) js := by
  rw [parameters]
  refine (parses_check ")" _ _).bind ?_
  have hclose : (TokenKind.identifier name).isPunctuator ")" = false := rfl
  rw [hclose, if_neg Bool.false_ne_true]
  refine (parses_kind _ _).bind ?_
  refine (parses_advance _ k ks).bind ?_
  exact h.bind (parses_pure _ _)

/-- Only a comma goes on with names. -/
theorem parses_parameters_behind {n : Nat} (hcomma : k.isPunctuator "," = false)
    (hclose : k.isPunctuator ")" = false) :
    Parses (parameters (n + 1) false) (k :: ks) none (k :: ks) := by
  rw [parameters]
  refine (parses_check ")" k ks).bind ?_
  rw [hclose, if_neg Bool.false_ne_true]
  refine (parses_kind k ks).bind ?_
  cases k with
  | identifier name => exact parses_pure _ _
  | _ =>
    simp only [hcomma, Bool.and_false, Bool.false_eq_true, if_false]
    exact parses_pure _ _

theorem parses_opening {r : Option (List String)}
    (h : Parses (parameters (ks.length + 1) true) (k :: ks) r js) :
    Parses (do if ← check "(" then advance; parameters (← remaining) true else return none)
      (punct "(" :: k :: ks) r js := by
  refine (parses_check "(" _ _).bind ?_
  rw [if_pos (by rfl)]
  refine (parses_advance _ k ks).bind ?_
  exact (parses_remaining (k :: ks)).bind h

/-- An expression in parentheses is not the head of a function. -/
theorem parses_arrow_group (h : Opens ks) (hk : k.isPunctuator "=" = false) :
    Parses (arrow nested) (groupTokens ks ++ k :: js) none (groupTokens ks ++ k :: js) := by
  cases h with
  | name s =>
    have hparams : Parses parameterList (groupTokens [.identifier s] ++ k :: js) (some [s])
        (k :: js) :=
      Parses.attempt_some (parses_opening (parses_parameters_name parses_parameters_close))
    exact parses_arrow_of_parameters hparams hk
  | @named s k' ks hcomma hclose =>
    have hparams : Parses parameterList (groupTokens (.identifier s :: k' :: ks) ++ k :: js)
        none (groupTokens (.identifier s :: k' :: ks) ++ k :: js) :=
      Parses.attempt_none _
        (parses_opening (parses_parameters_name (parses_parameters_behind hcomma hclose)))
    exact parses_arrow_none hparams rfl
  | @other k' ks hk' hclose _ =>
    have hparams : Parses parameterList (groupTokens (k' :: ks) ++ k :: js)
        none (groupTokens (k' :: ks) ++ k :: js) :=
      Parses.attempt_none _ (parses_opening (parses_parameters_none hclose hk'))
    exact parses_arrow_none hparams rfl

theorem parses_variableName_none (hamp : k.isPunctuator "&" = false) (hk : isIdentifier k = false) :
    Parses (variableName ns nested) (k :: ks) none (k :: ks) := by
  refine (parses_check "&" k ks).bind ?_
  rw [hamp, if_neg Bool.false_ne_true]
  refine (parses_kind k ks).bind ?_
  cases k with
  | identifier name => cases hk
  | _ => exact parses_pure _ _

theorem parses_variableName {name : String} (hcolon : k.isPunctuator ":" = false) :
    Parses (variableName ns nested) (.identifier name :: k :: ks) (some (.variable name))
      (k :: ks) := by
  refine (parses_check "&" _ _).bind ?_
  have hamp : (TokenKind.identifier name).isPunctuator "&" = false := rfl
  rw [hamp, if_neg Bool.false_ne_true]
  refine (parses_kind _ _).bind ?_
  refine (parses_advance _ k ks).bind ?_
  refine (parses_check ":" k ks).bind ?_
  rw [hcolon, Bool.false_and, if_neg Bool.false_ne_true]
  exact parses_pure _ _

theorem parses_literal_none (hk : ∀ v : Literal, k ≠ v.token) :
    Parses literal (k :: ks) none (k :: ks) := by
  refine (parses_kind k ks).bind ?_
  cases k with
  | boolean b => exact absurd rfl (hk (.boolean b))
  | null => exact absurd rfl (hk .null)
  | undefined => exact absurd rfl (hk .undefined)
  | _ => exact parses_pure _ _

theorem parses_literal (v : Literal) :
    Parses literal (v.token :: k :: ks) (some (.literal v)) (k :: ks) := by
  refine (parses_kind _ _).bind ?_
  cases v <;> exact (parses_advance _ k ks).bind (parses_pure _ _)

theorem parses_number_none (hk : ∀ x, k ≠ .number x) :
    Parses number (k :: ks) none (k :: ks) := by
  refine (parses_kind k ks).bind ?_
  cases k with
  | number x => exact absurd rfl (hk x)
  | _ => exact parses_pure _ _

theorem parses_number (x : Float) :
    Parses number (.number x :: k :: ks) (some (.number x)) (k :: ks) :=
  (parses_kind _ _).bind ((parses_advance _ k ks).bind (parses_pure _ _))

theorem parses_text_none (hk : ∀ s, k ≠ .text s) : Parses text (k :: ks) none (k :: ks) := by
  refine (parses_kind k ks).bind ?_
  cases k with
  | text s => exact absurd rfl (hk s)
  | _ => exact parses_pure _ _

theorem parses_text (s : String) :
    Parses text (.text s :: k :: ks) (some (.text s)) (k :: ks) :=
  (parses_kind _ _).bind ((parses_advance _ k ks).bind (parses_pure _ _))

theorem parses_template_none (hk : k.isPunctuator backtick = false) :
    Parses (template nested) (k :: ks) none (k :: ks) := by
  refine (parses_check backtick k ks).bind ?_
  rw [hk, if_neg Bool.false_ne_true]
  exact parses_pure _ _

theorem parses_array_none (hk : k.isPunctuator "[" = false) :
    Parses (array nested) (k :: ks) none (k :: ks) :=
  (parses_list_none hk).bind (parses_pure _ _)

theorem parses_object_none (hk : k.isPunctuator "\x7b" = false) :
    Parses (object nested) (k :: ks) none (k :: ks) := by
  refine (parses_check "\x7b" k ks).bind ?_
  rw [hk, if_neg Bool.false_ne_true]
  exact parses_pure _ _

/-- Every alternative before the bracketed ones gives up on an opening bracket. -/
theorem parses_primary_of_bracketed {p : String} {ps : List (Parser (Option Expr))}
    (hamp : p ≠ "&") (htick : p ≠ backtick)
    (h : Parses (firstOf ps) (punct p :: ks) (some e) js) :
    Parses (firstOf (variableName ns nested :: literal :: number :: text :: template nested :: ps))
      (punct p :: ks) (some e) js := by
  refine .firstOf_tail (parses_variableName_none (beq_eq_false_iff_ne.2 hamp) rfl) ?_
  refine .firstOf_tail (parses_literal_none fun v => by cases v <;> exact TokenKind.noConfusion) ?_
  refine .firstOf_tail (parses_number_none fun _ => TokenKind.noConfusion) ?_
  refine .firstOf_tail (parses_text_none fun _ => TokenKind.noConfusion) ?_
  exact .firstOf_tail (parses_template_none (beq_eq_false_iff_ne.2 htick)) h

theorem parses_primary_array
    (h : Parses (array nested) (punct "[" :: ks) (some e) js) :
    Parses (primary ns nested) (punct "[" :: ks) (some e) js :=
  parses_primary_of_bracketed (by decide) (by decide) h.firstOf_head

theorem parses_primary_object
    (h : Parses (object nested) (punct "\x7b" :: ks) (some e) js) :
    Parses (primary ns nested) (punct "\x7b" :: ks) (some e) js :=
  parses_primary_of_bracketed (by decide) (by decide) (.firstOf_tail (parses_array_none rfl)
    h.firstOf_head)

theorem parses_primary_parenthesized
    (h : Parses (parenthesized nested) (punct "(" :: ks) (some e) js) :
    Parses (primary ns nested) (punct "(" :: ks) (some e) js :=
  parses_primary_of_bracketed (by decide) (by decide) (.firstOf_tail (parses_array_none rfl)
    (.firstOf_tail (parses_object_none rfl) h.firstOf_head))

/-- Where neither a call nor a function starts, an operand is a primary expression. -/
theorem parses_head_of_primary (hk : isIdentifier k = false) (hopen : k.isPunctuator "(" = false)
    (h : Parses (primary ns nested) (k :: ks) (some e) js) :
    Parses (operandHead ns nested) (k :: ks) (some e) js :=
  .firstOf_tail (parses_call_none hk) <|
    .firstOf_tail (parses_arrow_none (parses_parameterList_none hopen) hk) h.firstOf_head

/-- An expression in parentheses as the head of an operand. -/
theorem parses_head_group (hopens : Opens ks) (hk : k.isPunctuator "=" = false)
    (h : Parses (parenthesized nested) (groupTokens ks ++ k :: js) (some e) (k :: js)) :
    Parses (operandHead ns nested) (groupTokens ks ++ k :: js) (some e) (k :: js) :=
  .firstOf_tail (parses_call_none rfl) <|
    .firstOf_tail (parses_arrow_group hopens hk) (parses_primary_parenthesized h).firstOf_head

theorem parses_members_last {n : Nat} {q : String} (hq : q ≠ ",")
    (h : Parses (nested .expression) ks (some e) (punct q :: k :: js)) :
    Parses (members nested q (n + 1)) ks [e] (k :: js) := by
  rw [members]
  refine h.required.bind ?_
  refine (parses_check "," _ _).bind ?_
  have hcomma : (punct q).isPunctuator "," = false := beq_eq_false_iff_ne.2 hq
  rw [hcomma, if_neg Bool.false_ne_true]
  refine (parses_check q _ _).bind ?_
  have hself : (punct q).isPunctuator q = true := beq_iff_eq.2 rfl
  rw [if_pos hself]
  exact (parses_advance _ k js).bind (parses_pure _ _)

theorem parses_members_cons {n : Nat} {q : String} {es : List Expr}
    (h : Parses (nested .expression) ks (some e) (punct "," :: js)) (hjs : js ≠ [])
    (hes : Parses (members nested q n) js es js') :
    Parses (members nested q (n + 1)) ks (e :: es) js' := by
  rw [members]
  refine h.required.bind ?_
  refine (parses_check "," _ _).bind ?_
  rw [if_pos (by rfl)]
  refine (parses_advance_of_ne_nil _ hjs).bind ?_
  exact hes.bind (parses_pure _ _)

/-- The tokens are parsed as the expression in front of tokens that no expression goes on with. -/
def ParsesItem (nested : Nested) (ks : List TokenKind) (e : Expr) : Prop :=
  ∀ k js, Ends k → Parses (nested .expression) (ks ++ k :: js) (some e) (k :: js)

/-- The same for tokens in parentheses. -/
def ParsesGroup (nested : Nested) (ks : List TokenKind) (e : Expr) : Prop :=
  ParsesItem nested (groupTokens ks) e

/-- The first token is not this punctuator. -/
def Avoids (q : String) (ks : List TokenKind) : Prop :=
  ∃ k is, ks = k :: is ∧ k.isPunctuator q = false

theorem parses_members {kss : List (List TokenKind)} {es : List Expr} {n : Nat} {q : String}
    (hq : Ends (punct q)) (hcomma : q ≠ ",") (h : List.Forall₂ (ParsesItem nested) kss es)
    (hne : es ≠ []) (hn : es.length ≤ n) :
    Parses (members nested q n) (separated kss ++ punct q :: k :: js) es (k :: js) := by
  induction h generalizing n with
  | nil => exact absurd rfl hne
  | @cons ks e kss es hitem hitems ih =>
    obtain ⟨m, rfl⟩ : ∃ m, n = m + 1 := ⟨n - 1, by simp at hn; omega⟩
    cases hitems with
    | nil => exact parses_members_last hcomma (hitem _ _ hq)
    | @cons ks' e' kss es hnext hitems =>
      have hrest := ih (List.cons_ne_nil _ _) (Nat.le_of_succ_le_succ hn)
      have hfirst := parses_members_cons (hitem (punct ",") _ (ends_of_punct (by decide)))
        (by simp) hrest
      simpa only [separated, List.append_assoc, List.cons_append] using hfirst

theorem length_le_separated {q : String} (kss : List (List TokenKind))
    (h : ∀ ks ∈ kss, Avoids q ks) : kss.length ≤ (separated kss).length := by
  fun_induction separated kss with
  | case1 => simp
  | case2 ks =>
    obtain ⟨k, is, rfl, _⟩ := h ks (by simp)
    simp
  | case3 ks js kss ih =>
    have hrest := ih fun is his => h is (by simp [his])
    simp only [List.length_append, List.length_cons] at hrest ⊢
    omega

/-- The first token of a list that is not empty is the first of its first item. -/
theorem separated_avoids {q : String} {kss : List (List TokenKind)} (hne : kss ≠ [])
    (h : ∀ ks ∈ kss, Avoids q ks) : Avoids q (separated kss) := by
  obtain ⟨ks, kss, rfl⟩ := List.exists_cons_of_ne_nil hne
  obtain ⟨k, is, rfl, hk⟩ := h ks (by simp)
  cases kss with
  | nil => exact ⟨k, is, rfl, hk⟩
  | cons js kss => exact ⟨k, _, rfl, hk⟩

theorem groups_avoid {q : String} (hq : q ≠ "(") (kss : List (List TokenKind)) :
    ∀ ks ∈ kss.map groupTokens, Avoids q ks := by
  intro ks hks
  obtain ⟨js, _, rfl⟩ := List.mem_map.1 hks
  exact ⟨_, _, rfl, beq_eq_false_iff_ne.2 hq.symm⟩

theorem groupTokens_append (ks js : List TokenKind) :
    groupTokens ks ++ js = punct "(" :: (ks ++ punct ")" :: js) := by
  simp [groupTokens]

theorem listedTokens_append (p q : String) (kss : List (List TokenKind)) (js : List TokenKind) :
    listedTokens p q kss ++ js = punct p :: (separated kss ++ punct q :: js) := by
  simp [listedTokens]

/-- The two kinds of brackets around a list of expressions. -/
def IsBracket (p q : String) : Prop := (p = "(" ∧ q = ")") ∨ (p = "[" ∧ q = "]")

theorem parses_list {kss : List (List TokenKind)} {es : List Expr} {p q : String}
    (hpq : IsBracket p q) (h : List.Forall₂ (ParsesItem nested) kss es)
    (hfirst : ∀ ks ∈ kss, Avoids q ks) :
    Parses (list nested p q) (listedTokens p q kss ++ k :: js) (some es) (k :: js) := by
  have hp : (punct p).isPunctuator p = true := beq_iff_eq.2 rfl
  have hq : Ends (punct q) ∧ q ≠ "," ∧ (punct q).isPunctuator q = true := by
    rcases hpq with ⟨-, rfl⟩ | ⟨-, rfl⟩ <;> exact ⟨ends_of_punct (by decide), by decide, rfl⟩
  obtain ⟨hends, hcomma, hclose⟩ := hq
  rw [listedTokens_append]
  refine (parses_check p _ _).bind ?_
  rw [if_pos hp]
  refine (parses_advance_of_ne_nil _ (by simp)).bind ?_
  cases h with
  | nil =>
    refine (parses_check q _ _).bind ?_
    rw [if_pos hclose]
    exact (parses_advance _ k js).bind (parses_pure _ _)
  | @cons ks e kss es hitem hitems =>
    have hlength := length_le_separated (ks :: kss) hfirst
    have hsame := (List.Forall₂.cons hitem hitems).length_eq
    have hmembers : Parses
        (members nested q (separated (ks :: kss) ++ punct q :: k :: js).length)
        (separated (ks :: kss) ++ punct q :: k :: js) (e :: es) (k :: js) := by
      refine parses_members hends hcomma (.cons hitem hitems) (List.cons_ne_nil _ _) ?_
      simp only [List.length_append, List.length_cons] at hlength hsame ⊢
      omega
    obtain ⟨k', is, his, hopen⟩ := separated_avoids (List.cons_ne_nil _ _) hfirst
    rw [his] at hmembers ⊢
    refine (parses_check q _ _).bind ?_
    rw [hopen, if_neg Bool.false_ne_true]
    exact (parses_remaining _).bind (hmembers.bind (parses_pure _ _))

/-- A list of expressions in parentheses. -/
theorem parses_groups {kss : List (List TokenKind)} {es : List Expr}
    (h : List.Forall₂ (ParsesGroup nested) kss es) :
    Parses (list nested "(" ")") (listedTokens "(" ")" (kss.map groupTokens) ++ k :: js) (some es)
      (k :: js) :=
  parses_list (.inl ⟨rfl, rfl⟩) (List.forall₂_map_left_iff.2 h) (groups_avoid (by decide) kss)

theorem parses_parenthesized_one (hopens : Opens ks)
    (h : Parses (nested .expression) (ks ++ punct ")" :: k :: js) (some e)
      (punct ")" :: k :: js)) :
    Parses (parenthesized nested) (groupTokens ks ++ k :: js) (some e) (k :: js) := by
  have hmembers : Parses (members nested ")" (ks ++ punct ")" :: k :: js).length)
      (ks ++ punct ")" :: k :: js) [e] (k :: js) := by
    obtain ⟨n, hn⟩ : ∃ n, (ks ++ punct ")" :: k :: js).length = n + 1 :=
      ⟨_, by rw [List.length_append, List.length_cons, ← Nat.add_assoc]⟩
    rw [hn]
    exact parses_members_last (by decide) h
  have hlist : Parses (list nested "(" ")") (groupTokens ks ++ k :: js) (some [e]) (k :: js) := by
    rw [groupTokens_append]
    refine (parses_check "(" _ _).bind ?_
    rw [if_pos (by rfl)]
    refine (parses_advance_of_ne_nil _ (by simp)).bind ?_
    obtain ⟨k', is, rfl, hk', _⟩ := hopens.first
    refine (parses_check ")" _ _).bind ?_
    rw [hk', if_neg Bool.false_ne_true]
    exact (parses_remaining _).bind (hmembers.bind (parses_pure _ _))
  exact hlist.bind (parses_pure _ _)

/-- An operand in parentheses, in front of an operator or of what ends an expression. -/
theorem parses_unary_group (hopens : Opens ks)
    (h : Parses (nested .expression) (ks ++ punct ")" :: k :: js) (some e)
      (punct ")" :: k :: js))
    (hdot : k.isPunctuator "." = false) (hbracket : k.isPunctuator "[" = false)
    (hequal : k.isPunctuator "=" = false) :
    Parses (unary ns nested) (groupTokens ks ++ k :: js) (some e) (k :: js) :=
  parses_unary rfl <|
    parses_operand (parses_head_group hopens hequal (parses_parenthesized_one hopens h)) hdot
      hbracket

/-- What the parser for nested expressions does on the tokens of an expression up to a closing
parenthesis. -/
def ParsesInside (nested : Nested) (ks : List TokenKind) (e : Expr) : Prop :=
  ∀ k js, Closes k → Parses (nested .expression) (ks ++ k :: js) (some e) (k :: js)

theorem parses_conditional_group (hopens : Opens ks) (h : ParsesInside nested ks e)
    (hk : Ends k) : Parses (conditional ns nested) (groupTokens ks ++ k :: js) (some e) (k :: js) :=
  parses_conditional
    (parses_binary _ _ (parses_unary_group hopens (h _ _ (.inr rfl)) hk.member hk.bracket hk.equal)
      hk.operator) hk.test

theorem parses_signed (op : UnaryOp) (hopens : Opens ks) (h : ParsesInside nested ks e)
    (hk : Ends k) :
    Parses (conditional ns nested) (punct op.symbol :: groupTokens ks ++ k :: js)
      (some (.unary op e)) (k :: js) := by
  have hgroup : Parses (operand ns nested) (groupTokens ks ++ k :: js) (some e) (k :: js) :=
    parses_operand (parses_head_group hopens hk.equal
      (parses_parenthesized_one hopens (h _ _ (.inr rfl)))) hk.member hk.bracket
  rw [List.cons_append]
  rw [groupTokens_append] at hgroup ⊢
  generalize ks ++ punct ")" :: k :: js = is at hgroup
  have hops : Parses (unaryOps (punct op.symbol :: punct "(" :: is).length)
      (punct op.symbol :: punct "(" :: is) [op] (punct "(" :: is) := by
    rw [List.length_cons, unaryOps]
    refine (parses_kind _ _).bind ?_
    simp only [punct, UnaryOp.ofSymbol?_symbol]
    refine (parses_advance _ _ is).bind ?_
    exact (parses_unaryOps_none rfl).bind (parses_pure _ _)
  have hunary : Parses (unary ns nested) (punct op.symbol :: punct "(" :: is) (some (.unary op e))
      (k :: js) := by
    refine (parses_remaining _).bind ?_
    refine hops.bind ?_
    exact hgroup.bind (parses_pure _ _)
  exact parses_conditional (parses_binary _ _ hunary hk.operator) hk.test

theorem parses_operator {l r : Expr} (op : BinaryOp) {is : List TokenKind}
    (hleft : Opens ks) (hl : ParsesInside nested ks l)
    (hright : Opens is) (hr : ParsesInside nested is r) (hk : Ends k) :
    Parses (conditional ns nested)
      (groupTokens ks ++ punct op.symbol :: groupTokens is ++ k :: js)
      (some (.binary op l r)) (k :: js) := by
  have hsymbol : (punct op.symbol).isPunctuator "." = false ∧
      (punct op.symbol).isPunctuator "[" = false ∧ (punct op.symbol).isPunctuator "=" = false ∧
      binaryOp? (punct op.symbol) = some op := by
    cases op <;> decide
  obtain ⟨hdot, hbracket, hequal, hop⟩ := hsymbol
  have hoperand : Parses (unary ns nested)
      (groupTokens ks ++ punct op.symbol :: (groupTokens is ++ k :: js)) (some l)
      (punct op.symbol :: (groupTokens is ++ k :: js)) :=
    parses_unary_group hleft (hl _ _ (.inr rfl)) hdot hbracket hequal
  have hbehind : Parses (binary ns nested BinaryOp.maxPrecedence (op.precedence + 1))
      (groupTokens is ++ k :: js) (some r) (k :: js) :=
    parses_binary _ _
      (parses_unary_group hright (hr _ _ (.inr rfl)) hk.member hk.bracket hk.equal) hk.operator
  have hclimb : Parses (climb (binary ns nested BinaryOp.maxPrecedence) 1
      (punct op.symbol :: (groupTokens is ++ k :: js)).length l)
      (punct op.symbol :: (groupTokens is ++ k :: js)) (.binary op l r) (k :: js) := by
    have hlength :
        (groupTokens is ++ k :: js).length = (is ++ punct ")" :: k :: js).length + 1 := by
      rw [groupTokens_append, List.length_cons]
    rw [List.length_cons, climb]
    refine (parses_kind _ _).bind ?_
    simp only [hop]
    rw [if_neg (Nat.not_lt.2 op.one_le_precedence)]
    refine (parses_advance_of_ne_nil _ (by simp [groupTokens])).bind ?_
    refine hbehind.required.bind ?_
    rw [hlength]
    exact parses_climb_none hk.operator
  have hbinary : Parses (binary ns nested (BinaryOp.maxPrecedence + 1) 1)
      (groupTokens ks ++ punct op.symbol :: groupTokens is ++ k :: js)
      (some (.binary op l r)) (k :: js) := by
    rw [List.append_assoc, List.cons_append, binary]
    refine hoperand.bind ?_
    refine (parses_remaining _).bind ?_
    exact hclimb.bind (parses_pure _ _)
  exact parses_conditional hbinary hk.test

theorem parses_choice {t c a : Expr} {is hs : List TokenKind} (htest : Opens ks)
    (ht : ParsesInside nested ks t) (hc : ParsesGroup nested is c) (ha : ParsesGroup nested hs a)
    (hk : Ends k) :
    Parses (conditional ns nested)
      (groupTokens ks ++ punct "?" :: groupTokens is ++ punct ":" :: groupTokens hs ++ k :: js)
      (some (.conditional t c a)) (k :: js) := by
  have htest (js : List TokenKind) :
      Parses (binary ns nested (BinaryOp.maxPrecedence + 1) 1) (groupTokens ks ++ punct "?" :: js)
        (some t) (punct "?" :: js) :=
    parses_binary _ _ (parses_unary_group htest (ht _ _ (.inr rfl)) rfl rfl rfl) rfl
  simp only [List.append_assoc, List.cons_append]
  refine (htest _).bind ?_
  refine (parses_check "?" _ _).bind ?_
  rw [if_pos (by rfl)]
  refine (parses_advance_of_ne_nil _ (by simp)).bind ?_
  refine (hc _ _ (ends_of_punct (by decide))).required.bind ?_
  rw [groupTokens_append hs]
  refine (parses_expect (by rfl)).bind ?_
  rw [← groupTokens_append]
  exact (ha k js hk).required.bind (parses_pure _ _)

theorem parses_getter {host key : Expr} {is : List TokenKind} (hopens : Opens ks)
    (hhost : ParsesInside nested ks host) (hkey : ParsesGroup nested is key) (hk : Ends k) :
    Parses (conditional ns nested)
      (groupTokens ks ++ punct "[" :: groupTokens is ++ [punct "]"] ++ k :: js)
      (some (.getter host key)) (k :: js) := by
  have hhead (js : List TokenKind) : Parses (operandHead ns nested)
      (groupTokens ks ++ punct "[" :: js) (some host) (punct "[" :: js) :=
    parses_head_group hopens rfl (parses_parenthesized_one hopens (hhost _ _ (.inr rfl)))
  have hmembers : Parses (membersOf nested
      (punct "[" :: (groupTokens is ++ punct "]" :: k :: js)).length host)
      (punct "[" :: (groupTokens is ++ punct "]" :: k :: js)) (.getter host key) (k :: js) := by
    have hlength : (groupTokens is ++ punct "]" :: k :: js).length =
        (is ++ punct ")" :: punct "]" :: k :: js).length + 1 := by
      rw [groupTokens_append, List.length_cons]
    rw [List.length_cons, membersOf]
    refine (parses_check "." _ _).bind ?_
    rw [if_neg (by decide)]
    refine (parses_check "[" _ _).bind ?_
    rw [if_pos (by rfl)]
    refine (parses_advance_of_ne_nil _ (by simp)).bind ?_
    refine (hkey _ _ (ends_of_punct (by decide))).required.bind ?_
    refine (parses_expect (by rfl)).bind ?_
    rw [hlength]
    exact parses_membersOf_none hk.member hk.bracket
  have hoperand : Parses (operand ns nested)
      (groupTokens ks ++ punct "[" :: (groupTokens is ++ punct "]" :: k :: js))
      (some (.getter host key)) (k :: js) := by
    refine (hhead _).bind ?_
    refine (parses_remaining _).bind ?_
    exact hmembers.bind (parses_pure _ _)
  simp only [List.append_assoc, List.cons_append, List.nil_append]
  rw [groupTokens_append ks] at hoperand ⊢
  exact parses_conditional (parses_binary _ _ (parses_unary rfl hoperand) hk.operator) hk.test

theorem parses_call {name : String} {kss : List (List TokenKind)} {es : List Expr}
    (h : List.Forall₂ (ParsesGroup nested) kss es) (hk : Ends k) :
    Parses (conditional ns nested)
      (.identifier name :: listedTokens "(" ")" (kss.map groupTokens) ++ k :: js)
      (some (.call name es)) (k :: js) := by
  have hlist : Parses (list nested "(" ")") (listedTokens "(" ")" (kss.map groupTokens) ++ k :: js)
      (some es) (k :: js) := parses_groups h
  have hcall : Parses (call nested)
      (.identifier name :: (listedTokens "(" ")" (kss.map groupTokens) ++ k :: js))
      (some (.call name es)) (k :: js) := by
    refine Parses.attempt_some ((parses_kind _ _).bind ?_)
    refine (parses_advance_of_ne_nil _ (by simp)).bind ?_
    exact hlist.bind (parses_pure _ _)
  rw [List.cons_append]
  exact parses_conditional_of_head rfl hcall.firstOf_head hk

theorem parses_sequence {kss : List (List TokenKind)} {es : List Expr}
    (h : List.Forall₂ (ParsesGroup nested) kss es) (hlen : es.length ≠ 1) (hk : Ends k) :
    Parses (conditional ns nested) (listedTokens "(" ")" (kss.map groupTokens) ++ k :: js)
      (some (.sequence es)) (k :: js) := by
  have hlist : Parses (list nested "(" ")") (listedTokens "(" ")" (kss.map groupTokens) ++ k :: js)
      (some es) (k :: js) := parses_groups h
  have hprimary : Parses (parenthesized nested)
      (listedTokens "(" ")" (kss.map groupTokens) ++ k :: js) (some (.sequence es)) (k :: js) := by
    refine hlist.bind ?_
    match es, hlen with
    | [], _ => exact parses_pure _ _
    | _ :: _ :: _, _ => exact parses_pure _ _
  have harrow : Parses (arrow nested) (listedTokens "(" ")" (kss.map groupTokens) ++ k :: js) none
      (listedTokens "(" ")" (kss.map groupTokens) ++ k :: js) := by
    cases kss with
    | nil =>
      exact parses_arrow_of_parameters
        (Parses.attempt_some (parses_opening parses_parameters_close)) hk.equal
    | cons ks kss =>
      obtain ⟨is, his⟩ : ∃ is, separated ((ks :: kss).map groupTokens) ++ punct ")" :: k :: js =
          punct "(" :: is := by
        cases kss <;> exact ⟨_, rfl⟩
      rw [listedTokens_append, his]
      exact parses_arrow_none
        (Parses.attempt_none _ (parses_opening (parses_parameters_none rfl rfl))) rfl
  rw [listedTokens_append] at hprimary harrow ⊢
  exact parses_conditional_of_head rfl (.firstOf_tail (parses_call_none rfl) <|
    .firstOf_tail harrow (parses_primary_parenthesized hprimary).firstOf_head) hk

theorem parses_array {kss : List (List TokenKind)} {es : List Expr}
    (h : List.Forall₂ (ParsesItem nested) kss es) (hfirst : ∀ ks ∈ kss, Avoids "]" ks)
    (hk : Ends k) :
    Parses (conditional ns nested) (listedTokens "[" "]" kss ++ k :: js) (some (.array es))
      (k :: js) := by
  have harray : Parses (array nested) (listedTokens "[" "]" kss ++ k :: js) (some (.array es))
      (k :: js) :=
    (parses_list (.inr ⟨rfl, rfl⟩) h hfirst).bind (parses_pure _ _)
  rw [listedTokens_append] at harray ⊢
  exact parses_conditional_of_head rfl
    (parses_head_of_primary rfl rfl (parses_primary_array harray)) hk

theorem parses_objectKey (s : String) :
    Parses (objectKey nested) (.text s :: k :: ks) (.text s) (k :: ks) := by
  have hidentifier : Parses identifier (.text s :: k :: ks) none (.text s :: k :: ks) :=
    parses_bind_current fun t ht => by
      simp only [ht]
      exact parses_pure _ _
  exact (Parses.firstOf_tail hidentifier (parses_text s).firstOf_head).required

/-- The tokens of a member of an object. -/
def memberTokens (m : String × List TokenKind × Expr) : List TokenKind :=
  [.text m.1] ++ punct ":" :: m.2.1

theorem parses_objectMember_last {m : String × List TokenKind × Expr} {n : Nat}
    (h : ParsesItem nested m.2.1 m.2.2) :
    Parses (objectMembers nested (n + 1)) (memberTokens m ++ punct "\x7d" :: k :: js)
      [(.text m.1, m.2.2)] (k :: js) := by
  rw [objectMembers]
  refine (parses_objectKey _).bind ?_
  refine (parses_expect_of_ne_nil (by rfl) (by simp)).bind ?_
  refine (h _ _ (ends_of_punct (by decide))).required.bind ?_
  refine (parses_check "," _ _).bind ?_
  rw [if_neg (by decide)]
  refine (parses_check "\x7d" _ _).bind ?_
  rw [if_pos (by rfl)]
  exact (parses_advance _ k js).bind (parses_pure _ _)

theorem parses_objectMember_cons {m : String × List TokenKind × Expr} {n : Nat}
    {values : List (Expr × Expr)} (h : ParsesItem nested m.2.1 m.2.2) (hjs : js ≠ [])
    (hvalues : Parses (objectMembers nested n) js values js') :
    Parses (objectMembers nested (n + 1)) (memberTokens m ++ punct "," :: js)
      ((.text m.1, m.2.2) :: values) js' := by
  rw [objectMembers]
  refine (parses_objectKey _).bind ?_
  refine (parses_expect_of_ne_nil (by rfl) (by simp)).bind ?_
  refine (h _ _ (ends_of_punct (by decide))).required.bind ?_
  refine (parses_check "," _ _).bind ?_
  rw [if_pos (by rfl)]
  refine (parses_advance_of_ne_nil _ hjs).bind ?_
  exact hvalues.bind (parses_pure _ _)

theorem parses_objectMembers {ms : List (String × List TokenKind × Expr)} {n : Nat}
    (h : ∀ m ∈ ms, ParsesItem nested m.2.1 m.2.2) (hne : ms ≠ []) (hn : ms.length ≤ n) :
    Parses (objectMembers nested n) (separated (ms.map memberTokens) ++ punct "\x7d" :: k :: js)
      (ms.map fun m => (.text m.1, m.2.2)) (k :: js) := by
  induction ms generalizing n with
  | nil => exact absurd rfl hne
  | cons m ms ih =>
    obtain ⟨i, rfl⟩ : ∃ i, n = i + 1 := ⟨n - 1, by simp at hn; omega⟩
    cases ms with
    | nil => exact parses_objectMember_last (h m (by simp))
    | cons m' ms =>
      have hrest := ih (fun m hm => h m (by simp [hm])) (List.cons_ne_nil _ _)
        (Nat.le_of_succ_le_succ hn)
      have hfirst := parses_objectMember_cons (h m (by simp)) (by simp) hrest
      simpa only [List.map_cons, separated, List.append_assoc, List.cons_append] using hfirst

theorem parses_object {ms : List (String × List TokenKind × Expr)}
    (h : ∀ m ∈ ms, ParsesItem nested m.2.1 m.2.2) (hk : Ends k) :
    Parses (conditional ns nested)
      (listedTokens "\x7b" "\x7d" (ms.map memberTokens) ++ k :: js)
      (some (.object (ms.map fun m => (.text m.1, m.2.2)))) (k :: js) := by
  rw [listedTokens_append]
  have hobject : Parses (object nested)
      (punct "\x7b" :: (separated (ms.map memberTokens) ++ punct "\x7d" :: k :: js))
      (some (.object (ms.map fun m => (.text m.1, m.2.2)))) (k :: js) := by
    refine (parses_check "\x7b" _ _).bind ?_
    rw [if_pos (by rfl)]
    refine (parses_advance_of_ne_nil _ (by simp)).bind ?_
    cases ms with
    | nil =>
      refine (parses_check "\x7d" _ _).bind ?_
      rw [if_pos (by rfl)]
      exact (parses_advance _ k js).bind (parses_pure _ _)
    | cons m ms =>
      have hfirst : ∀ ks ∈ (m :: ms).map memberTokens, Avoids "\x7d" ks := by
        intro ks hks
        obtain ⟨m, _, rfl⟩ := List.mem_map.1 hks
        exact ⟨_, _, rfl, rfl⟩
      have hlength := length_le_separated _ hfirst
      have hmembers : Parses (objectMembers nested
          (separated ((m :: ms).map memberTokens) ++ punct "\x7d" :: k :: js).length)
          (separated ((m :: ms).map memberTokens) ++ punct "\x7d" :: k :: js)
          ((m :: ms).map fun m => (.text m.1, m.2.2)) (k :: js) := by
        refine parses_objectMembers h (List.cons_ne_nil _ _) ?_
        simp only [List.length_map, List.length_append] at hlength ⊢
        omega
      obtain ⟨k', is, his, hopen⟩ := separated_avoids (by simp) hfirst
      rw [his] at hmembers ⊢
      refine (parses_check "\x7d" _ _).bind ?_
      rw [hopen, if_neg Bool.false_ne_true]
      exact (parses_remaining _).bind (hmembers.bind (parses_pure _ _))
  exact parses_conditional_of_head rfl
    (parses_head_of_primary rfl rfl (parses_primary_object hobject)) hk

theorem parses_parameters_comma {n : Nat} {r : Option (List String)} (hks : ks ≠ [])
    (h : Parses (parameters n true) ks r js) :
    Parses (parameters (n + 1) false) (punct "," :: ks) r js := by
  rw [parameters]
  refine (parses_check ")" _ _).bind ?_
  rw [if_neg (by exact Bool.false_ne_true)]
  refine (parses_kind _ _).bind ?_
  exact (parses_advance_of_ne_nil _ hks).bind h

theorem parses_parameters {params : List String} {n : Nat}
    (hn : (separated (params.map fun p => [.identifier p])).length < n) :
    Parses (parameters n true)
      (separated (params.map fun p => [.identifier p]) ++ punct ")" :: k :: ks) (some params)
      (k :: ks) := by
  induction params generalizing n with
  | nil =>
    obtain ⟨m, rfl⟩ : ∃ m, n = m + 1 := ⟨n - 1, by omega⟩
    exact parses_parameters_close
  | cons p params ih =>
    cases params with
    | nil =>
      obtain ⟨m, rfl⟩ : ∃ m, n = m + 2 := ⟨n - 2, by simp [separated] at hn; omega⟩
      exact parses_parameters_name parses_parameters_close
    | cons q params =>
      have hlength : (separated ((p :: q :: params).map fun p => [.identifier p])).length =
          (separated ((q :: params).map fun p => [.identifier p])).length + 2 := by
        simp [separated]
      obtain ⟨m, rfl⟩ : ∃ m, n = m + 2 := ⟨n - 2, by omega⟩
      have hrest := ih (n := m) (by omega)
      exact parses_parameters_name (parses_parameters_comma (by simp) hrest)

theorem parses_function {params : List String} {body : Expr} (h : ParsesGroup nested ks body)
    (hk : Ends k) :
    Parses (conditional ns nested)
      (listedTokens "(" ")" (params.map fun p => [.identifier p]) ++
        punct "=" :: punct ">" :: groupTokens ks ++ k :: js)
      (some (.function params body)) (k :: js) := by
  have hparams : Parses parameterList
      (listedTokens "(" ")" (params.map fun p => [.identifier p]) ++
        punct "=" :: punct ">" :: (groupTokens ks ++ k :: js)) (some params)
      (punct "=" :: punct ">" :: (groupTokens ks ++ k :: js)) := by
    rw [listedTokens_append]
    refine Parses.attempt_some ?_
    refine (parses_check "(" _ _).bind ?_
    rw [if_pos (by rfl)]
    refine (parses_advance_of_ne_nil _ (by simp)).bind ?_
    exact (parses_remaining _).bind (parses_parameters (by simp))
  have hhead : Parses arrowHead
      (listedTokens "(" ")" (params.map fun p => [.identifier p]) ++
        punct "=" :: punct ">" :: (groupTokens ks ++ k :: js)) (some params)
      (groupTokens ks ++ k :: js) := by
    refine Parses.attempt_some ?_
    refine hparams.bind ?_
    refine (parses_pure (some params) _).bind ?_
    refine (parses_check "=" _ _).bind ?_
    rw [if_pos (by rfl)]
    refine (parses_advance _ _ _).bind ?_
    refine (parses_check ">" _ _).bind ?_
    rw [if_pos (by rfl)]
    exact (parses_advance_of_ne_nil _ (by simp)).bind (parses_pure _ _)
  have harrow : Parses (arrow nested)
      (listedTokens "(" ")" (params.map fun p => [.identifier p]) ++
        punct "=" :: punct ">" :: (groupTokens ks ++ k :: js)) (some (.function params body))
      (k :: js) :=
    hhead.bind ((h k js hk).required.bind (parses_pure _ _))
  simp only [List.append_assoc, List.cons_append]
  rw [listedTokens_append] at harrow ⊢
  exact parses_conditional_of_head rfl
    (.firstOf_tail (parses_call_none rfl) harrow.firstOf_head) hk

theorem opens_tokens (he : e.Plain) : Opens e.tokens := by
  cases he with
  | named _ => exact .name _
  | number _ => exact .other _ rfl rfl TokenKind.noConfusion
  | text _ => exact .other _ rfl rfl TokenKind.noConfusion
  | literal v => cases v <;> exact .other _ rfl rfl TokenKind.noConfusion
  | unary op _ =>
    rw [Expr.tokens]
    exact .other _ rfl (by cases op <;> decide) TokenKind.noConfusion
  | call _ _ =>
    rw [Expr.tokens]
    exact .named _ _ rfl rfl
  | array _ | object _ | getter _ _ | binary _ _ _ | conditional _ _ _ | sequence _ _
  | function _ _ =>
    rw [Expr.tokens]
    exact .other _ rfl rfl TokenKind.noConfusion

theorem nestedGoal_succ (ns : List String) (d : Nat) :
    nestedGoal ns (d + 1) .expression = conditional ns (nestedGoal ns d) := rfl

/-- An expression in parentheses takes one more level than the expression. -/
theorem parsesGroup_of_inside (hopens : Opens ks)
    (h : ∀ d, ks.length ≤ d → ParsesInside (nestedGoal ns d) ks e) {d : Nat}
    (hd : ks.length < d) : ParsesGroup (nestedGoal ns d) ks e := by
  obtain ⟨i, rfl⟩ : ∃ i, d = i + 1 := ⟨d - 1, by omega⟩
  intro k js hk
  rw [nestedGoal_succ]
  exact parses_conditional_group hopens (h i (by omega)) hk

theorem length_le_separated_of_mem {kss : List (List TokenKind)} (h : ks ∈ kss) :
    ks.length ≤ (separated kss).length := by
  fun_induction separated kss with
  | case1 => cases h
  | case2 js => exact Nat.le_of_eq (congrArg List.length (List.mem_singleton.1 h))
  | case3 is js kss ih =>
    rw [List.length_append, List.length_cons]
    rcases List.mem_cons.1 h with rfl | h
    · omega
    · have := ih h
      omega

theorem length_groupTokens (ks : List TokenKind) : (groupTokens ks).length = ks.length + 2 := by
  simp [groupTokens]

theorem length_listedTokens (p q : String) (kss : List (List TokenKind)) :
    (listedTokens p q kss).length = (separated kss).length + 2 := by
  simp [listedTokens]

theorem parsesGroup_all {es : List Expr} (he : ∀ e ∈ es, e.Plain)
    (h : ∀ e ∈ es, ∀ d, e.tokens.length ≤ d →
      ParsesInside (nestedGoal ns d) e.tokens e.unsignedZeros) {d : Nat}
    (hd : (separated (tokenGroups es)).length ≤ d) :
    List.Forall₂ (ParsesGroup (nestedGoal ns d)) (es.map Expr.tokens)
      (es.map Expr.unsignedZeros) := by
  rw [List.forall₂_map_left_iff, List.forall₂_map_right_iff, List.forall₂_same]
  intro e hmem
  refine parsesGroup_of_inside (opens_tokens (he e hmem)) (h e hmem) ?_
  have hgroup : groupTokens e.tokens ∈ tokenGroups es := by
    rw [tokenGroups_eq_map]
    exact List.mem_map_of_mem hmem
  have hlength := length_le_separated_of_mem hgroup
  rw [length_groupTokens] at hlength
  omega

theorem tokenGroups_eq (es : List Expr) :
    tokenGroups es = (es.map Expr.tokens).map groupTokens := by
  rw [tokenGroups_eq_map, List.map_map]
  rfl

/-- A name in front of what is neither an argument nor a body nor anything that goes on. -/
theorem parses_alone {name : String} (hk : Ends k) (hopen : k.isPunctuator "(" = false)
    (hcolon : k.isPunctuator ":" = false) :
    Parses (conditional ns nested) (.identifier name :: k :: js) (some (.variable name))
      (k :: js) :=
  parses_conditional_of_head rfl (.firstOf_tail (parses_call_name_none hopen) <|
    .firstOf_tail (parses_arrow_name_none hk.equal)
      (parses_variableName hcolon).firstOf_head.firstOf_head) hk

theorem parses_name {name : String} (hk : Closes k) :
    Parses (conditional ns nested) (.identifier name :: k :: js) (some (.variable name))
      (k :: js) := by
  have hnone : k.isPunctuator "(" = false ∧ k.isPunctuator ":" = false := by
    rcases hk with rfl | rfl <;> exact ⟨rfl, rfl⟩
  exact parses_alone hk.ends hnone.1 hnone.2

theorem parses_leaf (v : Literal) (hk : Ends k) :
    Parses (conditional ns nested) (v.token :: k :: js) (some (.literal v)) (k :: js) := by
  have hprimary : Parses (primary ns nested) (v.token :: k :: js) (some (.literal v)) (k :: js) :=
    .firstOf_tail (parses_variableName_none (by cases v <;> rfl) (by cases v <;> rfl))
      (parses_literal v).firstOf_head
  exact parses_conditional_of_head (by cases v <;> rfl)
    (parses_head_of_primary (by cases v <;> rfl) (by cases v <;> rfl) hprimary) hk

theorem parses_numeral (x : Float) (hk : Ends k) :
    Parses (conditional ns nested) (.number x :: k :: js) (some (.number x)) (k :: js) := by
  have hprimary : Parses (primary ns nested) (.number x :: k :: js) (some (.number x)) (k :: js) :=
    .firstOf_tail (parses_variableName_none rfl rfl) <|
      .firstOf_tail (parses_literal_none fun v => by cases v <;> exact TokenKind.noConfusion)
        (parses_number x).firstOf_head
  exact parses_conditional_of_head rfl (parses_head_of_primary rfl rfl hprimary) hk

theorem parses_quoted (s : String) (hk : Ends k) :
    Parses (conditional ns nested) (.text s :: k :: js) (some (.text s)) (k :: js) := by
  have hprimary : Parses (primary ns nested) (.text s :: k :: js) (some (.text s)) (k :: js) :=
    .firstOf_tail (parses_variableName_none rfl rfl) <|
      .firstOf_tail (parses_literal_none fun v => by cases v <;> exact TokenKind.noConfusion) <|
        .firstOf_tail (parses_number_none fun _ => TokenKind.noConfusion)
          (parses_text s).firstOf_head
  exact parses_conditional_of_head rfl (parses_head_of_primary rfl rfl hprimary) hk

theorem parses_members_of_object {ms : List (String × Expr)} (hm : ∀ m ∈ ms, m.2.Plain)
    (h : ∀ m ∈ ms, ∀ d, m.2.tokens.length ≤ d →
      ParsesInside (nestedGoal ns d) m.2.tokens m.2.unsignedZeros) {d : Nat}
    (hd : (separated (tokenMembers (ms.map fun m => (.text m.1, m.2)))).length ≤ d)
    (hk : Ends k) :
    Parses (conditional ns (nestedGoal ns d))
      (listedTokens "\x7b" "\x7d" (tokenMembers (ms.map fun m => (.text m.1, m.2))) ++ k :: js)
      (some (.object (ms.map fun m => (.text m.1, m.2.unsignedZeros)))) (k :: js) := by
  have hgroups : ∀ triple ∈ ms.map fun m => (m.1, groupTokens m.2.tokens, m.2.unsignedZeros),
      ParsesItem (nestedGoal ns d) triple.2.1 triple.2.2 := by
    intro triple htriple
    obtain ⟨m, hmem, rfl⟩ := List.mem_map.1 htriple
    have hmember : [.text m.1] ++ punct ":" :: groupTokens m.2.tokens ∈
        tokenMembers (ms.map fun m => (.text m.1, m.2)) := by
      rw [tokenMembers_eq_map]
      exact List.mem_map_of_mem hmem
    have hlength := length_le_separated_of_mem hmember
    simp only [List.length_append, List.length_cons, length_groupTokens] at hlength
    exact parsesGroup_of_inside (opens_tokens (hm m hmem)) (h m hmem) (by omega)
  have hobject : Parses (conditional ns (nestedGoal ns d)) _ _ (k :: js) := parses_object hgroups hk
  rw [List.map_map, List.map_map] at hobject
  rw [tokenMembers_eq_map]
  exact hobject

theorem inside_of_conditional (hpos : 0 < ks.length)
    (h : ∀ i, ks.length ≤ i + 1 → ∀ k js, Closes k →
      Parses (conditional ns (nestedGoal ns i)) (ks ++ k :: js) (some e) (k :: js))
    (d : Nat) (hd : ks.length ≤ d) : ParsesInside (nestedGoal ns d) ks e := by
  obtain ⟨i, rfl⟩ : ∃ i, d = i + 1 := ⟨d - 1, by omega⟩
  intro k js hk
  rw [nestedGoal_succ]
  exact h i hd k js hk

/-- The tokens of an expression are parsed as the expression, with as many levels to spend as there
are tokens. -/
theorem parses_tokens (he : e.Plain) :
    ∀ d, e.tokens.length ≤ d → ParsesInside (nestedGoal ns d) e.tokens e.unsignedZeros := by
  induction he with
  | named h =>
    simp only [Expr.tokens, Expr.unsignedZeros]
    exact inside_of_conditional Nat.one_pos fun i hi k js hk => parses_name hk
  | number h =>
    simp only [Expr.tokens, Expr.unsignedZeros]
    exact inside_of_conditional Nat.one_pos fun i hi k js hk => parses_numeral _ hk.ends
  | text s =>
    simp only [Expr.tokens, Expr.unsignedZeros]
    exact inside_of_conditional Nat.one_pos fun i hi k js hk => parses_quoted s hk.ends
  | literal v =>
    simp only [Expr.tokens, Expr.unsignedZeros]
    exact inside_of_conditional Nat.one_pos fun i hi k js hk => parses_leaf v hk.ends
  | array he ih =>
    simp only [Expr.tokens, Expr.unsignedZeros, unsignedZerosAll_eq_map]
    refine inside_of_conditional (Nat.succ_pos _) fun i hi k js hk => ?_
    rw [length_listedTokens] at hi
    rw [tokenGroups_eq]
    exact parses_array (List.forall₂_map_left_iff.2 (parsesGroup_all he ih (by omega)))
      (groups_avoid (by decide) _) hk.ends
  | object hm ih =>
    simp only [Expr.tokens, Expr.unsignedZeros, unsignedZerosMembers_eq_map]
    refine inside_of_conditional (Nat.succ_pos _) fun i hi k js hk => ?_
    rw [length_listedTokens] at hi
    exact parses_members_of_object hm ih (by omega) hk.ends
  | getter hh hk ihh ihk =>
    simp only [Expr.tokens, Expr.unsignedZeros]
    refine inside_of_conditional (Nat.succ_pos _) fun i hi k js hclose => ?_
    simp only [List.length_append, List.length_cons, length_groupTokens] at hi
    exact parses_getter (opens_tokens hh) (ihh i (by omega))
      (parsesGroup_of_inside (opens_tokens hk) ihk (by omega)) hclose.ends
  | unary op he ih =>
    simp only [Expr.tokens, Expr.unsignedZeros]
    refine inside_of_conditional (Nat.succ_pos _) fun i hi k js hk => ?_
    simp only [List.length_cons, length_groupTokens] at hi
    exact parses_signed op (opens_tokens he) (ih i (by omega)) hk.ends
  | binary op hl hr ihl ihr =>
    simp only [Expr.tokens, Expr.unsignedZeros]
    refine inside_of_conditional (by simp [groupTokens]) fun i hi k js hk => ?_
    simp only [List.length_append, List.length_cons, length_groupTokens] at hi
    exact parses_operator op (opens_tokens hl) (ihl i (by omega)) (opens_tokens hr)
      (ihr i (by omega)) hk.ends
  | conditional ht hc ha iht ihc iha =>
    simp only [Expr.tokens, Expr.unsignedZeros]
    refine inside_of_conditional (by simp [groupTokens]) fun i hi k js hk => ?_
    simp only [List.length_append, List.length_cons, length_groupTokens] at hi
    exact parses_choice (opens_tokens ht) (iht i (by omega))
      (parsesGroup_of_inside (opens_tokens hc) ihc (by omega))
      (parsesGroup_of_inside (opens_tokens ha) iha (by omega)) hk.ends
  | call hn he ih =>
    simp only [Expr.tokens, Expr.unsignedZeros, unsignedZerosAll_eq_map]
    refine inside_of_conditional (Nat.succ_pos _) fun i hi k js hk => ?_
    rw [List.length_cons, length_listedTokens] at hi
    rw [tokenGroups_eq]
    exact parses_call (parsesGroup_all he ih (by omega)) hk.ends
  | sequence hlen he ih =>
    simp only [Expr.tokens, Expr.unsignedZeros, unsignedZerosAll_eq_map]
    refine inside_of_conditional (Nat.succ_pos _) fun i hi k js hk => ?_
    rw [length_listedTokens] at hi
    rw [tokenGroups_eq]
    exact parses_sequence (parsesGroup_all he ih (by omega)) (by simpa using hlen) hk.ends
  | function hp hb ih =>
    simp only [Expr.tokens, Expr.unsignedZeros]
    refine inside_of_conditional (by simp [listedTokens]) fun i hi k js hk => ?_
    simp only [List.length_append, List.length_cons, length_groupTokens] at hi
    exact parses_function (parsesGroup_of_inside (opens_tokens hb) ih (by omega)) hk.ends

end TemplateFormula.Parser
