import TemplateFormula.Proofs.Lexing.Pieces
import TemplateFormula.Proofs.Parsing.Enclosing
import TemplateFormula.Proofs.Resolving.Agreement

/-!
# Free text in filter arguments

The argument of a filter may be free text. The parser puts its pieces together again, but keeps
keywords and numerals as expressions of their own.
-/

namespace TemplateFormula

namespace FreeText

/-- The expression that a token of free text is parsed as. -/
def typed? : TokenKind → Option Expr
  | .boolean v => some (.literal (.boolean v))
  | .null => some (.literal .null)
  | .undefined => some (.literal .undefined)
  | .number x => some (.number x)
  | _ => none

/-- Adds a piece to the parts of an argument, the last of which comes first. -/
def add (parts : List FilterArg) (p : Piece) : List FilterArg :=
  match typed? p.kind with
  | some e => .expr e :: parts
  | none => Parser.addText (String.ofList p.spelling) parts

end FreeText

namespace Parser

open FreeText

section Pieces

variable {nested : Nested} {stop brace t : Token} {us : List Token} {ps : List Piece} {p : Piece}
  {parts : List FilterArg} {m n : Nat}

/-- A piece is a part of its own or joins the text in front of it. -/
theorem argumentParts_piece (word : t.word = p.token) (valid : p.Valid) :
    argumentParts nested (islandNested nested m) (n + 1) parts (ahead stop (t :: us)) =
      argumentParts nested (islandNested nested m) n (add parts p) (ahead stop us) := by
  have spelled : t.text.toList = p.spelling := congrArg Prod.snd word
  have text : t.text = String.ofList p.spelling := by rw [← spelled, String.ofList_toList]
  have kind_eq : t.kind = p.kind := congrArg Prod.fst word
  unfold add
  rw [← text]
  obtain ⟨k, r, start, close⟩ := t
  obtain rfl : k = p.kind := kind_eq
  cases p with
  | word cs =>
    dsimp only [Piece.kind]
    rcases Scan.wordKind_cases (String.ofList cs) with name | ⟨v, keyword⟩
    · rw [name]
      cases m <;> cases us <;> rfl
    · rw [keyword]
      cases v <;> cases us <;> rfl
  | numeral cs => cases us <;> rfl
  | mark cs =>
    rcases valid with rfl | member
    · cases m <;> cases us <;> rfl
    · simp only [signs, List.mem_cons, List.not_mem_nil, or_false] at member
      rcases member with rfl | rfl | rfl | rfl | rfl | rfl | rfl | rfl <;>
        · cases m <;> cases us <;> rfl

/-- Up to the end of the island the pieces are added one after another. -/
theorem argumentParts_pieces (words : us.map Token.word = ps.map Piece.token)
    (valid : ∀ p ∈ ps, p.Valid) (closes : brace.kind = .closeIsland) (enough : ps.length < n) :
    argumentParts nested (islandNested nested m) n parts (ahead stop (us ++ [brace])) =
      .ok (ps.foldl add parts, ahead stop [brace]) := by
  obtain ⟨k, rfl⟩ : ∃ k, n = k + 1 := ⟨n - 1, by omega⟩
  induction ps generalizing us parts k with
  | nil =>
    obtain rfl := List.map_eq_nil_iff.1 words
    obtain ⟨kind, r, p, q⟩ := brace
    obtain rfl : kind = .closeIsland := closes
    rfl
  | cons p ps ih =>
    obtain ⟨first, others⟩ := List.forall_mem_cons.1 valid
    obtain ⟨t, vs, rfl, word, more⟩ := List.map_eq_cons_iff.1 words
    rw [List.length_cons] at enough
    obtain ⟨j, rfl⟩ : ∃ j, k = j + 1 := ⟨k - 1, by omega⟩
    rw [List.cons_append, argumentParts_piece word first]
    exact ih more others j (by omega)

theorem isBlankChar_piece (valid : p.Valid) (inked : p.spelling.head? ≠ some ' ') :
    isBlankChar p.kind = false := by
  cases p with
  | word cs =>
    rw [Piece.kind]
    rcases Scan.wordKind_cases (String.ofList cs) with name | ⟨v, keyword⟩
    · rw [name]
      rfl
    · rw [keyword]
      cases v <;> rfl
  | numeral cs => rfl
  | mark cs =>
    rcases valid with rfl | member
    · exact absurd rfl inked
    · rw [Piece.kind, if_neg (signs_plain cs member).2.2]
      rfl

theorem skipBlanks_stays {c : Cursor} (inked : isBlankChar c.current.kind = false) :
    skipBlanks c = .ok (⟨⟩, c) := by
  have left : remaining c = .ok (c.rest.length + 1, c) := rfl
  have shown : kind c = .ok (c.current.kind, c) := rfl
  rw [skipBlanks, bind_of_ok left, skipBlankChars, bind_of_ok shown, inked]
  rfl

/-- In front of a text that does not begin with a space no blanks are skipped. -/
theorem skipBlanks_pieces (words : us.map Token.word = ps.map Piece.token)
    (valid : ∀ p ∈ ps, p.Valid) (inked : ∀ p ∈ ps.head?, p.spelling.head? ≠ some ' ')
    (closes : brace.kind = .closeIsland) :
    skipBlanks (ahead stop (us ++ [brace])) = .ok (⟨⟩, ahead stop (us ++ [brace])) := by
  refine skipBlanks_stays ?_
  cases ps with
  | nil =>
    obtain rfl := List.map_eq_nil_iff.1 words
    change isBlankChar brace.kind = false
    rw [closes]
    rfl
  | cons p ps =>
    obtain ⟨t, vs, rfl, word, -⟩ := List.map_eq_cons_iff.1 words
    have kind_eq : t.kind = p.kind := congrArg Prod.fst word
    change isBlankChar t.kind = false
    rw [kind_eq]
    exact isBlankChar_piece (valid p List.mem_cons_self) (inked p rfl)

theorem arguments_nil {c : Cursor} (plain : c.current.kind.isPunctuator ":" = false) :
    arguments nested (islandNested nested m) n c = .ok ([], c) := by
  have shown : check ":" c = .ok (c.current.kind.isPunctuator ":", c) := rfl
  rw [plain] at shown
  cases n with
  | zero => rfl
  | succ n =>
    rw [arguments, bind_of_ok shown]
    rfl

/-- The only argument of a filter in front of the end of the island. -/
theorem arguments_pieces {colon : Token} (opens : colon.kind = .punctuator ":")
    (words : us.map Token.word = ps.map Piece.token) (valid : ∀ p ∈ ps, p.Valid)
    (inked : ∀ p ∈ ps.head?, p.spelling.head? ≠ some ' ') (closes : brace.kind = .closeIsland) :
    arguments nested (islandNested nested m) (n + 1)
        (ahead stop (colon :: (us ++ [brace]))) =
      .ok ([argument (ps.foldl add [])], ahead stop [brace]) := by
  have asked : check ":" (ahead stop (colon :: (us ++ [brace]))) =
      .ok (true, ahead stop (colon :: (us ++ [brace]))) := by
    change Except.ok (colon.kind.isPunctuator ":", _) = _
    rw [opens]
    rfl
  have moves : advance (ahead stop (colon :: (us ++ [brace]))) =
      .ok (⟨⟩, ahead stop (us ++ [brace])) := by
    cases us <;> rfl
  have enough : ps.length < (us ++ [brace] ++ [stop]).length := by
    have length := congrArg List.length words
    rw [List.length_map, List.length_map] at length
    simp only [List.length_append, List.length_singleton]
    omega
  have stops : arguments nested (islandNested nested m) n (ahead stop [brace]) =
      .ok ([], ahead stop [brace]) := by
    refine arguments_nil ?_
    change brace.kind.isPunctuator ":" = false
    rw [closes]
    rfl
  rw [arguments, bind_of_ok asked, if_pos rfl, bind_of_ok moves,
    bind_of_ok (skipBlanks_pieces words valid inked closes), bind_of_ok (remaining_ahead _ _),
    bind_of_ok (argumentParts_pieces words valid closes enough), bind_of_ok stops]
  rfl

/-- The tokens from a bar to the colon in front of the argument of a filter. -/
structure FilterSigns (name : String) (bar space f colon : Token) : Prop where
  bar : bar.kind = .openFilter
  space : space.kind = .char ' '
  name : f.kind = .identifier name
  colon : colon.kind = .punctuator ":"

variable {name : String} {bar space f colon : Token}

/-- A filter with free text as its argument. -/
theorem filterCalls_pieces (signs : FilterSigns name bar space f colon)
    (words : us.map Token.word = ps.map Piece.token) (valid : ∀ p ∈ ps, p.Valid)
    (inked : ∀ p ∈ ps.head?, p.spelling.head? ≠ some ' ') (closes : brace.kind = .closeIsland) :
    filterCalls nested (islandNested nested m) (n + 1)
        (ahead stop (bar :: space :: f :: colon :: (us ++ [brace]))) =
      .ok ([.mk name [argument (ps.foldl add [])]], ahead stop [brace]) := by
  obtain ⟨_, r₁, p₁, q₁⟩ := bar
  obtain ⟨_, r₂, p₂, q₂⟩ := space
  obtain ⟨_, r₃, p₃, q₃⟩ := f
  obtain ⟨_, r₄, p₄, q₄⟩ := colon
  obtain ⟨⟨⟩, ⟨⟩, ⟨⟩, ⟨⟩⟩ := signs
  let c₃ : Cursor := ahead stop (⟨.punctuator ":", r₄, p₄, q₄⟩ :: (us ++ [brace]))
  let c₂ : Cursor := ⟨⟨.identifier name, r₃, p₃, q₃⟩, c₃.current :: c₃.rest, none⟩
  let c₁ : Cursor := ⟨⟨.char ' ', r₂, p₂, q₂⟩, c₂.current :: c₂.rest, none⟩
  let c₀ : Cursor := ⟨⟨.openFilter, r₁, p₁, q₁⟩, c₁.current :: c₁.rest, none⟩
  have opened : kind c₀ = .ok (.openFilter, c₀) := rfl
  have same : (TokenKind.openFilter == .openFilter) = true := rfl
  have moves : advance c₀ = .ok (⟨⟩, c₁) := rfl
  have skips : skipBlanks c₁ = .ok (⟨⟩, c₂) := rfl
  have named : filterName c₂ = .ok (name, c₃) := rfl
  have stays : skipBlanks c₃ = .ok (⟨⟩, c₃) := skipBlanks_stays rfl
  have left : remaining c₃ = .ok (c₃.rest.length + 1, c₃) := rfl
  have last : arguments nested (islandNested nested m) (c₃.rest.length + 1) c₃ =
      .ok ([argument (ps.foldl add [])], ahead stop [brace]) :=
    arguments_pieces rfl words valid inked closes
  have stops : filterCalls nested (islandNested nested m) n (ahead stop [brace]) =
      .ok ([], ahead stop [brace]) := by
    refine filterCalls_nil ?_ n
    change brace.kind ≠ .openFilter
    rw [closes]
    exact TokenKind.noConfusion
  change filterCalls nested (islandNested nested m) (n + 1) c₀ = _
  rw [filterCalls, bind_of_ok opened, if_pos same, bind_of_ok moves, bind_of_ok skips,
    bind_of_ok named, bind_of_ok stays, bind_of_ok left, bind_of_ok last, bind_of_ok stops]
  rfl

/-- What an island holds with a variable in front of the filter. -/
theorem contents_pieces {names : List String} {d : Nat} {x : Token} {y : String}
    (variable_ : x.kind = .identifier y) (signs : FilterSigns name bar space f colon)
    (words : us.map Token.word = ps.map Piece.token) (valid : ∀ p ∈ ps, p.Valid)
    (inked : ∀ p ∈ ps.head?, p.spelling.head? ≠ some ' ') (closes : brace.kind = .closeIsland) :
    contents (nestedGoal names (d + 1)) m
        (ahead stop (x :: bar :: space :: f :: colon :: (us ++ [brace]))) =
      .ok (.filter (.variable y) [.mk name [argument (ps.foldl add [])]], ahead stop [brace]) := by
  let c₁ : Cursor := ahead stop (bar :: space :: f :: colon :: (us ++ [brace]))
  have host : operand names (nestedGoal names d)
      (ahead stop (x :: bar :: space :: f :: colon :: (us ++ [brace]))) =
        .ok (some (.variable y), c₁) := by
    obtain ⟨_, r, p, q⟩ := x
    obtain ⟨_, r', p', q'⟩ := bar
    cases variable_
    cases signs.bar
    rfl
  have plain (s : String) : x.kind ≠ .punctuator s := by
    rw [variable_]
    exact TokenKind.noConfusion
  have inner : nestedGoal names (d + 1) .expression
      (ahead stop (x :: bar :: space :: f :: colon :: (us ++ [brace]))) =
        .ok (some (.variable y), c₁) := by
    refine conditional_operand plain host ?_ ?_
    · change binaryOp? bar.kind = none
      rw [signs.bar]
      rfl
    · change bar.kind.isPunctuator "?" = false
      rw [signs.bar]
      rfl
  have left : remaining c₁ = .ok (c₁.rest.length + 1, c₁) := rfl
  have calls : filterCalls (nestedGoal names (d + 1)) (islandNested (nestedGoal names (d + 1)) m)
      (c₁.rest.length + 1) c₁ =
        .ok ([.mk name [argument (ps.foldl add [])]], ahead stop [brace]) :=
    filterCalls_pieces signs words valid inked closes
  have piped_ : piped (nestedGoal names (d + 1)) (islandNested (nestedGoal names (d + 1)) m)
      (ahead stop (x :: bar :: space :: f :: colon :: (us ++ [brace]))) =
        .ok (some (.filter (.variable y) [.mk name [argument (ps.foldl add [])]]),
          ahead stop [brace]) := by
    rw [piped, bind_of_ok inner]
    dsimp only
    rw [bind_of_ok left, bind_of_ok calls]
    rfl
  rw [contents, required, bind_of_ok piped_]
  rfl

end Pieces

end Parser

/-! ### The whole source text -/

namespace FreeText

open Lexer

variable {name : String} {t : List Char}

/-- A variable that is piped through a filter with one argument. -/
def filtered (name : String) (t : List Char) : List Char :=
  '$' :: '\x7b' :: 'x' :: ' ' :: '|' :: ' ' :: (name.toList ++ ':' :: (t ++ ['\x7d']))

theorem leads_filtered (named : IsName name) (free : ∀ c ∈ t, IsFree c) :
    Leads true ⟨baseModes false, false, filtered name t⟩
      ((.openIsland, ['$', '\x7b']) :: (.identifier "x", ['x']) :: (.openFilter, ['|']) ::
        (.char ' ', [' ']) :: (.identifier name, name.toList) :: (.punctuator ":", [':']) ::
        ((pieces t).map Piece.token ++ [(.closeIsland, ['\x7d'])]))
      ⟨baseModes false, false, []⟩ := by
  have host (us : List Char) : Leads true
      ⟨.script :: baseModes false, false, 'x' :: ' ' :: us⟩ [(.identifier "x", ['x'])]
      ⟨.script :: baseModes false, true, ' ' :: us⟩ := by
    have word : Scan.IsWord "x" := ⟨'x', [], rfl, rfl, by simp⟩
    exact leads_name word inside_script rfl (by rintro c ⟨⟩; exact ⟨rfl, by decide⟩)
  have filter (us : List Char) : Leads true
      ⟨.filter :: .script :: baseModes false, false, name.toList ++ ':' :: us⟩
      [(.identifier name, name.toList)]
      ⟨.filter :: .script :: baseModes false, true, ':' :: us⟩ := by
    rw [← Scan.wordKind_eq_identifier named]
    exact leads_name named.1 inside_filter rfl (by rintro c ⟨⟩; exact ⟨rfl, by decide⟩)
  have colon (us : List Char) : Leads true
      ⟨.filter :: .script :: baseModes false, true, ':' :: us⟩ [(.punctuator ":", [':'])]
      ⟨.filter :: .script :: baseModes false, false, us⟩ :=
    leads_plain (p := ":") ⟨by decide, by decide, by decide⟩ inside_filter rfl
      (.of_punctuates (punctuates_bracket (by decide)) true)
  obtain ⟨after, inner⟩ : ∃ after, Leads true
      ⟨.filter :: .script :: baseModes false, false, t ++ ['\x7d']⟩
      ((pieces t).map Piece.token)
      ⟨.filter :: .script :: baseModes false, after, ['\x7d']⟩ := leads_cut free (Nat.le_refl _)
  have last : Leads true ⟨.filter :: .script :: baseModes false, after, ['\x7d']⟩
      [(.closeIsland, ['\x7d'])] ⟨baseModes false, false, []⟩ := leads_close (.inr rfl) rfl
  exact leads_open.cons ((host _).cons ((leads_bar rfl).cons (leads_space.cons
    ((filter _).cons ((colon _).cons (inner.trans last))))))

/-- A text that does not begin with a space has no space for its first piece. -/
theorem head_pieces (first : t.head? ≠ some ' ') :
    ∀ p ∈ (pieces t).head?, p.spelling.head? ≠ some ' ' := by
  cases t with
  | nil => nofun
  | cons c cs =>
    rintro p ⟨⟩ space
    obtain ⟨d, ds, split⟩ := List.exists_cons_of_ne_nil (spelling_front false c cs).1
    have initial := (spelling_front false c cs).2
    rw [split] at initial space
    rw [List.cons_prefix_cons.1 initial |>.1] at space
    exact first space

/-- The argument that free text is parsed as. -/
def freeArgument (t : List Char) : FilterArg := Parser.argument ((pieces t).foldl add [])

theorem parse_filtered (named : IsName name) (free : ∀ c ∈ t, IsFree c)
    (first : t.head? ≠ some ' ') (names : List String) (d : Nat) :
    parse (String.ofList (filtered name t)) ⟨.template, true, names, d + 1⟩ =
      .ok (.document [.island (.filter (.variable "x") [.mk name [freeArgument t]])]) := by
  obtain ⟨opening, ts, stop, read, words, ends⟩ := (leads_filtered named free).cursor
  obtain ⟨opens, more⟩ := List.cons.inj words
  obtain ⟨x, ts, rfl, word_x, more⟩ := List.map_eq_cons_iff.1 more
  obtain ⟨bar, ts, rfl, word_bar, more⟩ := List.map_eq_cons_iff.1 more
  obtain ⟨space, ts, rfl, word_space, more⟩ := List.map_eq_cons_iff.1 more
  obtain ⟨f, ts, rfl, word_f, more⟩ := List.map_eq_cons_iff.1 more
  obtain ⟨colon, ts, rfl, word_colon, more⟩ := List.map_eq_cons_iff.1 more
  obtain ⟨us, ws, rfl, inner, last⟩ := List.map_eq_append_iff.1 more
  obtain ⟨brace, ts, rfl, word_brace, none_⟩ := List.map_eq_cons_iff.1 last
  obtain rfl := List.map_eq_nil_iff.1 none_
  have signs : Parser.FilterSigns name bar space f colon :=
    ⟨congrArg Prod.fst word_bar, congrArg Prod.fst word_space, congrArg Prod.fst word_f,
      congrArg Prod.fst word_colon⟩
  have closes : brace.kind = .closeIsland := congrArg Prod.fst word_brace
  have valid : ∀ p ∈ pieces t, p.Valid := fun p member => valid_of_mem_cut free member
  refine Parser.parse_enclosed
    (c := Parser.ahead stop (x :: bar :: space :: f :: colon :: (us ++ [brace]))) rfl ?_ rfl
    (congrArg Prod.fst opens) closes ends fun n => ?_
  · rw [String.toList_ofList]
    exact read
  · exact Parser.contents_pieces (congrArg Prod.fst word_x) signs inner valid (head_pieces first)
      closes

end FreeText

end TemplateFormula
