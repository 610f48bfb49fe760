import TemplateFormula.Proofs.Printing.RoundTrip
import TemplateFormula.Proofs.Parsing.Height

/-!
# Chains that spend no depth

Members behind a name and signs in front of one are parsed by loops: with one level to nest, chains
of every length are accepted, and their trees are as high as they are long. So are the trees of
operators that bind alike.
-/

namespace TemplateFormula

/-- A piece of a chain so many times. -/
def repeated {α : Type} (n : Nat) (piece : List α) : List α := (List.replicate n piece).flatten

@[simp] theorem repeated_zero {α : Type} (piece : List α) : repeated 0 piece = [] := rfl

@[simp] theorem repeated_succ {α : Type} (n : Nat) (piece : List α) :
    repeated (n + 1) piece = piece ++ repeated n piece := rfl

namespace Flat

/-- A symbol and a name behind an operand. -/
def behind (symbol name : String) : List Char := ' ' :: symbol.toList ++ ' ' :: name.toList

def behindTokens (symbol name : String) : List TokenKind :=
  [.punctuator symbol, .identifier name]

/-- A sign in front of an operand. -/
def before (sign : String) : List Char := sign.toList ++ [' ']

end Flat

namespace Expr

/-- An operand combined with a name so many times, from left to right. -/
def combined (op : BinaryOp) (name : String) : Nat → Expr → Expr
  | 0, left => left
  | n + 1, left => combined op name n (.binary op left (.variable name))

/-- So many members of one name, each of the one before. -/
def reaching (name : String) : Nat → Expr → Expr
  | 0, host => host
  | n + 1, host => reaching name n (.getter host (.identifier name))

def signed (op : UnaryOp) : Nat → Expr → Expr
  | 0, e => e
  | n + 1, e => .unary op (signed op n e)

theorem height_combined (op : BinaryOp) (name : String) (n : Nat) (left : Expr) :
    left.height + n ≤ (combined op name n left).height := by
  induction n generalizing left with
  | zero => exact Nat.le_refl _
  | succ n ih =>
    have more := ih (.binary op left (.variable name))
    have grows : left.height + 1 ≤ (Expr.binary op left (.variable name)).height :=
      Nat.succ_le_succ (Nat.le_max_left _ _)
    rw [combined]
    omega

theorem height_reaching (name : String) (n : Nat) (host : Expr) :
    host.height + n ≤ (reaching name n host).height := by
  induction n generalizing host with
  | zero => exact Nat.le_refl _
  | succ n ih =>
    have more := ih (.getter host (.identifier name))
    have grows : host.height + 1 ≤ (Expr.getter host (.identifier name)).height :=
      Nat.succ_le_succ (Nat.le_max_left _ _)
    rw [reaching]
    omega

theorem height_signed (op : UnaryOp) (n : Nat) (e : Expr) :
    (signed op n e).height = e.height + n := by
  induction n with
  | zero => rfl
  | succ n ih => exact congrArg (· + 1) ih

end Expr

namespace Lexer

/-- A piece that is read as some tokens in front of whatever satisfies a condition, and keeps it. -/
theorem Spells.repeated {base : Nat} {ms : List Mode} {a : Bool} {us rest : List Char}
    {ks : List TokenKind} {G : List Char → Prop} (keeps : ∀ rest, G rest → G (us ++ rest))
    (piece : ∀ rest, G rest → Spells base ms a us ks a rest) (n : Nat) (hrest : G rest) :
    G (TemplateFormula.repeated n us ++ rest) ∧
      Spells base ms a (TemplateFormula.repeated n us) (TemplateFormula.repeated n ks) a rest := by
  induction n with
  | zero => exact ⟨hrest, spells_gap isGap_nil⟩
  | succ n ih =>
    rw [repeated_succ, repeated_succ, List.append_assoc]
    exact ⟨keeps _ ih.1, (piece _ ih.1).append ih.2⟩

/-- Symbols that may stand between names. -/
structure Joins (symbol : String) : Prop where
  punctuates : ∀ rest, Punctuates symbol (' ' :: rest)
  opening : symbol ≠ "\x7b"
  closing : symbol ≠ "\x7d"
  backtick : symbol ≠ String.singleton Scan.backtick
  operand : (symbol == ")" || symbol == "]") = false

theorem joins_binary (op : BinaryOp) : Joins op.symbol where
  punctuates _ := punctuates_binary op
  opening := by cases op <;> decide
  closing := by cases op <;> decide
  backtick := by cases op <;> decide
  operand := by cases op <;> rfl

theorem joins_unary (op : UnaryOp) : Joins op.symbol where
  punctuates _ := by
    cases op <;> exact ⟨⟨_, _, rfl, by decide⟩, fun after => by cases after <;> rfl, rfl⟩
  opening := by cases op <;> decide
  closing := by cases op <;> decide
  backtick := by cases op <;> decide
  operand := by cases op <;> rfl

theorem joins_member : Joins "." where
  punctuates _ := ⟨⟨_, _, rfl, by decide⟩, fun after => by cases after <;> rfl, rfl⟩
  opening := by decide
  closing := by decide
  backtick := by decide
  operand := rfl

theorem Joins.spells {symbol : String} (h : Joins symbol) {base : Nat} {ms : List Mode} {a : Bool}
    (hm : InExpression ms) (rest : List Char) :
    Spells base ms a symbol.toList [.punctuator symbol] false (' ' :: rest) := by
  rw [← h.operand]
  exact spells_punct hm (h.punctuates rest) h.opening h.closing h.backtick

theorem spells_behind {symbol name : String} (h : Joins symbol) (hname : IsName name) (n : Nat) :
    Spells 2 [.expression, .start] false (name.toList ++ repeated n (Flat.behind symbol name))
      (.identifier name :: repeated n (Flat.behindTokens symbol name)) true [] := by
  have hm : InExpression [.expression, .start] := .inl rfl
  have piece (rest : List Char) (hrest : EndsWord rest) :
      Spells 2 [.expression, .start] true (Flat.behind symbol name)
        (Flat.behindTokens symbol name) true rest :=
    ((h.spells hm _).append (spells_name hm hname hrest).space).space
  have hend : EndsWord [] := by simp [EndsWord]
  obtain ⟨ends, chain⟩ := Spells.repeated (fun _ _ => endsWord_cons rfl _) piece n hend
  exact (spells_name hm hname ends).append chain

theorem spells_before {sign name : String} (h : Joins sign) (hname : IsName name) (n : Nat) :
    Spells 2 [.expression, .start] false (repeated n (Flat.before sign) ++ name.toList)
      (repeated n [.punctuator sign] ++ [.identifier name]) true [] := by
  have hm : InExpression [.expression, .start] := .inl rfl
  have piece (rest : List Char) :
      Spells 2 [.expression, .start] false (Flat.before sign) [.punctuator sign] false rest :=
    (h.spells hm _).append (spells_gap isGap_space)
  have signs (rest : List Char) :
      Spells 2 [.expression, .start] false (repeated n (Flat.before sign))
        (repeated n [.punctuator sign]) false rest :=
    (Spells.repeated (G := fun _ => True) (fun _ _ => trivial) (fun rest _ => piece rest) n
      trivial).2
  exact (signs _).append (spells_name hm hname (by simp [EndsWord]))

end Lexer

namespace Parser

variable {nested : Nested} {ns : List String} {name : String} {k : TokenKind}
  {js : List TokenKind}

/-- Tokens behind a name that make it the name of a variable. -/
structure Separates (k : TokenKind) : Prop where
  opening : k.isPunctuator "(" = false
  equal : k.isPunctuator "=" = false
  colon : k.isPunctuator ":" = false

theorem parses_head_name (hk : Separates k) :
    Parses (operandHead ns nested) (.identifier name :: k :: js) (some (.variable name))
      (k :: js) :=
  .firstOf_tail (parses_call_name_none hk.opening) <|
    .firstOf_tail (parses_arrow_name_none hk.equal)
      (parses_variableName hk.colon).firstOf_head.firstOf_head

theorem parses_unary_name (hk : Separates k) (hdot : k.isPunctuator "." = false)
    (hbracket : k.isPunctuator "[" = false) :
    Parses (unary ns nested) (.identifier name :: k :: js) (some (.variable name)) (k :: js) :=
  parses_unary rfl (parses_operand (parses_head_name hk) hdot hbracket)

theorem length_lt_repeated (n : Nat) (symbol : String) :
    n < (repeated n (Flat.behindTokens symbol name) ++ [TokenKind.eof]).length := by
  simp [repeated, Flat.behindTokens]
  omega

theorem separates_eof : Separates .eof := ⟨rfl, rfl, rfl⟩

theorem parses_membersOf {m n : Nat} (hm : n < m) (host : Expr) :
    Parses (membersOf nested m host) (repeated n (Flat.behindTokens "." name) ++ [.eof])
      (Expr.reaching name n host) [.eof] := by
  induction n generalizing m host with
  | zero =>
    obtain ⟨m, rfl⟩ : ∃ m', m = m' + 1 := ⟨m - 1, by omega⟩
    exact parses_membersOf_none rfl rfl
  | succ n ih =>
    obtain ⟨m, rfl⟩ : ∃ m', m = m' + 1 := ⟨m - 1, by omega⟩
    have key : Parses (memberKey nested)
        (.identifier name :: (repeated n (Flat.behindTokens "." name) ++ [.eof]))
        (.identifier name) (repeated n (Flat.behindTokens "." name) ++ [.eof]) := by
      refine (Parses.firstOf_head (parses_bind_current fun t ht => ?_)).required
      simp only [ht]
      exact (parses_advance_of_ne_nil _ (by simp)).bind (parses_pure _ _)
    rw [membersOf]
    refine (parses_check "." _ _).bind ?_
    rw [if_pos (by rfl)]
    refine (parses_advance _ _ _).bind ?_
    exact key.bind (ih (by omega) _)

theorem parses_members_of_name (n : Nat) :
    Parses (conditional ns nested)
      (.identifier name :: (repeated n (Flat.behindTokens "." name) ++ [.eof]))
      (some (Expr.reaching name n (.variable name))) [.eof] := by
  have next : ∃ k js, repeated n (Flat.behindTokens "." name) ++ [.eof] = k :: js ∧
      Separates k := by
    cases n with
    | zero => exact ⟨.eof, [], rfl, separates_eof⟩
    | succ n => exact ⟨.punctuator ".", _, rfl, rfl, rfl, rfl⟩
  obtain ⟨k, js, heq, separates⟩ := next
  have head : Parses (operandHead ns nested) (.identifier name :: k :: js)
      (some (.variable name)) (repeated n (Flat.behindTokens "." name) ++ [.eof]) := by
    rw [heq]
    exact parses_head_name separates
  have chain : Parses (operand ns nested) (.identifier name :: k :: js)
      (some (Expr.reaching name n (.variable name))) [.eof] :=
    head.bind <| (parses_remaining _).bind <|
      (parses_membersOf (length_lt_repeated n ".") _).bind (parses_pure _ _)
  rw [heq]
  exact parses_conditional (parses_binary _ _ (parses_unary rfl chain) rfl) rfl

theorem parses_unaryOps {op : UnaryOp} {m n : Nat} (hm : n < m) (hk : unaryOp? k = none) :
    Parses (unaryOps m) (repeated n [.punctuator op.symbol] ++ k :: js) (List.replicate n op)
      (k :: js) := by
  induction n generalizing m with
  | zero =>
    obtain ⟨m, rfl⟩ : ∃ m', m = m' + 1 := ⟨m - 1, by omega⟩
    exact parses_unaryOps_none hk
  | succ n ih =>
    obtain ⟨m, rfl⟩ : ∃ m', m = m' + 1 := ⟨m - 1, by omega⟩
    rw [unaryOps]
    refine (parses_kind _ _).bind ?_
    simp only [UnaryOp.ofSymbol?_symbol]
    refine (parses_advance_of_ne_nil _ (by simp)).bind ?_
    exact (ih (by omega)).bind (parses_pure _ _)

theorem foldr_unary (op : UnaryOp) (n : Nat) (e : Expr) :
    (List.replicate n op).foldr .unary e = Expr.signed op n e := by
  induction n with
  | zero => rfl
  | succ n ih => exact congrArg (Expr.unary op) ih

theorem parses_signs {op : UnaryOp} (n : Nat) :
    Parses (conditional ns nested) (repeated n [.punctuator op.symbol] ++ [.identifier name, .eof])
      (some (Expr.signed op n (.variable name))) [.eof] := by
  have long : n < (repeated n [TokenKind.punctuator op.symbol] ++
      [TokenKind.identifier name, TokenKind.eof]).length := by
    simp [repeated]
  have operand : Parses (operand ns nested) [.identifier name, .eof] (some (.variable name))
      [.eof] := parses_operand (parses_head_name separates_eof) rfl rfl
  refine parses_conditional (parses_binary _ _ ?_ rfl) rfl
  refine (parses_remaining _).bind ((parses_unaryOps long rfl).bind (operand.bind ?_))
  simp only [foldr_unary]
  exact parses_pure _ _

end Parser

section Accepted

variable {name : String} (hname : IsName name) {o : ParseOptions} (hform : o.form = .expression)
  (hdepth : 0 < o.maxDepth)
include hname hform hdepth

theorem parse_members (n : Nat) :
    parse (String.ofList (name.toList ++ repeated n (Flat.behind "." name))) o =
      .ok (Expr.reaching name n (.variable name)) := by
  obtain ⟨d, hd⟩ : ∃ d, o.maxDepth = d + 1 := ⟨o.maxDepth - 1, by omega⟩
  refine parse_of_spells hform (Lexer.spells_behind Lexer.joins_member hname n)
    ⟨_, _, rfl, TokenKind.noConfusion⟩ ?_
  rw [hd, List.cons_append]
  exact Parser.parses_members_of_name n

theorem parse_signs (op : UnaryOp) (n : Nat) :
    parse (String.ofList (repeated n (Flat.before op.symbol) ++ name.toList)) o =
      .ok (Expr.signed op n (.variable name)) := by
  obtain ⟨d, hd⟩ : ∃ d, o.maxDepth = d + 1 := ⟨o.maxDepth - 1, by omega⟩
  have first : ∃ k is, repeated n [TokenKind.punctuator op.symbol] ++ [.identifier name] =
      k :: is ∧ k ≠ .eof := by
    cases n with
    | zero => exact ⟨_, _, rfl, TokenKind.noConfusion⟩
    | succ n => exact ⟨_, _, rfl, TokenKind.noConfusion⟩
  refine parse_of_spells hform (Lexer.spells_before (Lexer.joins_unary op) hname n) first ?_
  rw [hd, List.append_assoc]
  exact Parser.parses_signs n

end Accepted

theorem isName_x : IsName "x" := ⟨⟨'x', [], rfl, rfl, by simp⟩, by decide⟩

end TemplateFormula
