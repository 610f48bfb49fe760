import TemplateFormula.Proofs.Continuing.Minus
import TemplateFormula.Proofs.Lexing.Literals
import TemplateFormula.Proofs.Lexing.Spots

/-!
# Pieces of free text

Free text in a filter is cut into names and keywords, numerals, and the signs and spaces between
them. The pieces are told here from the characters alone; put together they are the text, and up to
the brace that ends the filter the lexer reads each of them as one word.
-/

namespace TemplateFormula

namespace FreeText

open Lexer

/-- Letters, digits, spaces and the signs of free text. -/
def IsFree (c : Char) : Prop :=
  c.isAlphanum = true ∨ c ∈ [' ', '.', ',', '-', '_', '/', '+', '%']

instance : DecidablePred IsFree := fun _ => inferInstanceAs (Decidable (_ ∨ _))

inductive Piece where
  /-- A name or a keyword. -/
  | word (cs : List Char)
  /-- A numeral with its sign. -/
  | numeral (cs : List Char)
  /-- A space, a sign, or two plus or minus signs. -/
  | mark (cs : List Char)

/-- The marks that are signs. -/
def signs : List (List Char) :=
  [['.'], [','], ['-'], ['/'], ['+'], ['%'], ['+', '+'], ['-', '-']]

namespace Piece

def spelling : Piece → List Char
  | word cs | numeral cs | mark cs => cs

def endsOperand : Piece → Bool
  | word _ | numeral _ => true
  | mark _ => false

/-- The kind of the token that the piece is read as. -/
def kind : Piece → TokenKind
  | word cs => wordKind (String.ofList cs)
  | numeral cs => .number ((Number.parse? cs).getD 0)
  | mark cs => if cs = [' '] then .char ' ' else .punctuator (String.ofList cs)

/-- A space is a piece of its own, and the other marks are signs. -/
def Valid : Piece → Prop
  | word cs | numeral cs => ' ' ∉ cs
  | mark cs => cs = [' '] ∨ cs ∈ signs

/-- The word that the piece is read as. -/
def token (p : Piece) : Word := (p.kind, p.spelling)

end Piece

/-- The piece that a text begins with. A minus sign belongs to the numeral behind it unless an
operand stands before it. -/
def front (behind : Bool) (c : Char) (cs : List Char) : Piece :=
  if Scan.isIdentifierStart c then .word (c :: cs.takeWhile Scan.isIdentifierPart)
  else if Scan.numeralChars behind (c :: cs) ≠ [] then
    .numeral (Scan.numeralChars behind (c :: cs))
  else if (c = '+' ∨ c = '-') ∧ cs.head? = some c then .mark [c, c]
  else .mark [c]

/-- Cuts a text into pieces, each of which takes a character at least. -/
def cut : Nat → Bool → List Char → List Piece
  | 0, _, _ | _ + 1, _, [] => []
  | n + 1, behind, c :: cs =>
    let p := front behind c cs
    p :: cut n p.endsOperand ((c :: cs).drop p.spelling.length)

/-- The pieces of a text behind no operand. -/
def pieces (t : List Char) : List Piece := cut t.length false t

variable {allow b : Bool} {ms : List Mode} {c d : Char} {cs t u : List Char} {n : Nat} {p : Piece}

section Spellings

theorem spelling_front (b : Bool) (c : Char) (cs : List Char) :
    (front b c cs).spelling ≠ [] ∧ (front b c cs).spelling <+: c :: cs := by
  unfold front
  split
  · exact ⟨List.cons_ne_nil _ _, (List.prefix_cons_inj c).2 (List.takeWhile_prefix _)⟩
  · split
    · next some_ => exact ⟨some_, Scan.numeralChars_initial b _⟩
    · split
      · next double =>
        obtain ⟨ds, rfl⟩ := List.head?_eq_some_iff.1 double.2
        exact ⟨List.cons_ne_nil _ _, List.prefix_append [c, c] ds⟩
      · exact ⟨List.cons_ne_nil _ _, List.prefix_append [c] cs⟩

theorem spelling_front_append (b : Bool) (c : Char) (cs : List Char) :
    (front b c cs).spelling ++ (c :: cs).drop (front b c cs).spelling.length = c :: cs :=
  List.prefix_iff_eq_append.1 (spelling_front b c cs).2

theorem length_drop_front (b : Bool) (c : Char) (cs : List Char) :
    ((c :: cs).drop (front b c cs).spelling.length).length ≤ cs.length := by
  have pos := List.length_pos_iff.2 (spelling_front b c cs).1
  rw [List.length_drop, List.length_cons]
  omega

/-- Put together, the pieces are the text. -/
theorem spelling_cut (enough : t.length ≤ n) (b : Bool) :
    (cut n b t).flatMap Piece.spelling = t := by
  induction n generalizing b t with
  | zero =>
    obtain rfl := List.length_eq_zero_iff.1 (Nat.le_zero.1 enough)
    rfl
  | succ n ih =>
    cases t with
    | nil => rfl
    | cons c cs =>
      have short := length_drop_front b c cs
      rw [List.length_cons] at enough
      rw [cut, List.flatMap_cons, ih (by omega)]
      exact spelling_front_append b c cs

theorem spelling_pieces (t : List Char) : (pieces t).flatMap Piece.spelling = t :=
  spelling_cut (Nat.le_refl _) false

theorem ne_nil_of_mem_cut (b : Bool) (member : p ∈ cut n b t) : p.spelling ≠ [] := by
  induction n generalizing b t with
  | zero => cases member
  | succ n ih =>
    cases t with
    | nil => cases member
    | cons c cs =>
      rw [cut] at member
      rcases List.mem_cons.1 member with rfl | member
      · exact (spelling_front b c cs).1
      · exact ih _ member

end Spellings

/-! ### Reading the pieces -/

section Signs

theorem numeralChars_ne_nil (digit : c.isDigit = true) : Scan.numeralChars b (c :: cs) ≠ [] := by
  have some_ : Scan.wholeChars (c :: cs) ≠ [] := by
    by_cases zero : c = '0'
    · subst zero
      exact List.cons_ne_nil _ _
    · rw [Scan.wholeChars_of_ne zero, List.takeWhile_cons_of_pos digit]
      exact List.cons_ne_nil _ _
  have more : ¬ (Scan.wholeChars (c :: cs)).isEmpty = true := by rwa [List.isEmpty_iff]
  rw [Scan.numeralChars_digit b digit, Scan.unsignedChars]
  simp only [if_neg more, ne_eq, List.append_eq_nil_iff, some_, false_and, not_false_eq_true]

/-- What free text is made of besides names and numerals. -/
def marks : List Char := [' ', '.', ',', '-', '/', '+', '%']

theorem mem_marks (free : IsFree c) (start : Scan.isIdentifierStart c = false)
    (digit : ¬ c.isDigit = true) : c ∈ marks := by
  rcases free with alnum | member
  · have alpha : c.isAlpha = true := by
      simp only [Char.isAlphanum, Bool.or_eq_true] at alnum
      exact alnum.resolve_right digit
    have low : c.toNat < 128 := Scan.ascii_of_isAlphanum alnum
    simp [Scan.isIdentifierStart, Text.isLetter, if_pos low, alpha] at start
  · simp only [List.mem_cons, List.not_mem_nil, or_false] at member
    rcases member with rfl | rfl | rfl | rfl | rfl | rfl | rfl | rfl <;>
      first | decide | cases start

/-- What a text of free text may begin with. -/
theorem front_cases (b : Bool) (cs : List Char) (free : IsFree c) :
    (Scan.isIdentifierStart c = true ∧
      front b c cs = .word (c :: cs.takeWhile Scan.isIdentifierPart)) ∨
    (Scan.numeralChars b (c :: cs) ≠ [] ∧
      front b c cs = .numeral (Scan.numeralChars b (c :: cs))) ∨
    (((c = '+' ∨ c = '-') ∧ cs.head? = some c) ∧ front b c cs = .mark [c, c]) ∨
    ((c ∈ marks ∧ Scan.numeralChars b (c :: cs) = [] ∧
      ¬ ((c = '+' ∨ c = '-') ∧ cs.head? = some c)) ∧ front b c cs = .mark [c]) := by
  unfold front
  by_cases start : Scan.isIdentifierStart c = true
  · exact .inl ⟨start, if_pos start⟩
  rw [if_neg start]
  by_cases some_ : Scan.numeralChars b (c :: cs) ≠ []
  · exact .inr (.inl ⟨some_, if_pos some_⟩)
  rw [if_neg some_]
  have none_ := not_not.1 some_
  by_cases double : (c = '+' ∨ c = '-') ∧ cs.head? = some c
  · exact .inr (.inr (.inl ⟨double, if_pos double⟩))
  · have member : c ∈ marks := mem_marks free (Bool.eq_false_iff.2 start) fun digit =>
      numeralChars_ne_nil digit none_
    exact .inr (.inr (.inr ⟨⟨member, none_, double⟩, if_neg double⟩))

theorem single_mem_signs (member : c ∈ marks) (space : c ≠ ' ') : [c] ∈ signs := by
  simp only [marks, List.mem_cons, List.not_mem_nil, or_false] at member
  rcases member with rfl | rfl | rfl | rfl | rfl | rfl | rfl
  · exact absurd rfl space
  all_goals decide

theorem double_mem_signs (sign : c = '+' ∨ c = '-') : [c, c] ∈ signs := by
  rcases sign with rfl | rfl <;> decide

theorem space_notMem_digits {ds : List Char} (h : Scan.AreDigits ds) : ' ' ∉ ds := fun member =>
  absurd (h.2 _ member) (by decide)

theorem space_notMem_unsigned {us : List Char} (h : Scan.IsNumeral us) : ' ' ∉ us := by
  obtain ⟨whole, fraction, power, rfl, whole_, fraction_, power_⟩ := h
  simp only [List.mem_append, not_or]
  refine ⟨⟨?_, ?_⟩, ?_⟩
  · rcases whole_ with rfl | ⟨whole_, -⟩
    · decide
    · exact space_notMem_digits whole_
  · rcases fraction_ with rfl | ⟨ds, rfl, fraction_⟩
    · exact List.not_mem_nil
    · exact List.not_mem_cons_of_ne_of_not_mem (by decide) (space_notMem_digits fraction_)
  · rcases power_ with rfl | ⟨mark, sign, ds, rfl, mark_, sign_, power_⟩
    · exact List.not_mem_nil
    · refine List.not_mem_cons_of_ne_of_not_mem ?_
        (List.not_mem_append ?_ (space_notMem_digits power_))
      · rcases mark_ with rfl | rfl <;> decide
      · rcases sign_ with rfl | rfl | rfl <;> decide

/-- No numeral holds a space. -/
theorem space_notMem_numeral (some_ : Scan.numeralChars b t ≠ []) :
    ' ' ∉ Scan.numeralChars b t := by
  obtain ⟨c, cs, rfl, -⟩ := Scan.numeral_head some_
  by_cases minus : c = '-'
  · subst minus
    simp only [Scan.numeralChars] at some_ ⊢
    split at some_
    · exact absurd rfl some_
    · next goes =>
      simp only [Bool.or_eq_true, List.isEmpty_iff, not_or] at goes
      rw [if_neg (by simpa using goes)]
      exact List.not_mem_cons_of_ne_of_not_mem (by decide)
        (space_notMem_unsigned (Scan.isNumeral_unsignedChars goes.2))
  · rw [Scan.numeralChars_of_ne b minus] at some_ ⊢
    exact space_notMem_unsigned (Scan.isNumeral_unsignedChars some_)

theorem valid_front (b : Bool) (cs : List Char) (free : IsFree c) : (front b c cs).Valid := by
  rcases front_cases b cs free with ⟨start, eq⟩ | ⟨some_, eq⟩ | ⟨double, eq⟩ | ⟨single, eq⟩ <;>
    rw [eq]
  · refine List.not_mem_cons_of_ne_of_not_mem ?_ fun member => ?_
    · rintro rfl
      cases start
    · exact absurd (List.mem_takeWhile_imp member) (by decide)
  · exact space_notMem_numeral some_
  · exact .inr (double_mem_signs double.1)
  · by_cases space : c = ' '
    · exact .inl (by rw [space])
    · exact .inr (single_mem_signs single.1 space)

theorem valid_of_mem_cut (free : ∀ d ∈ t, IsFree d) (member : p ∈ cut n b t) : p.Valid := by
  induction n generalizing b t with
  | zero => cases member
  | succ n ih =>
    cases t with
    | nil => cases member
    | cons c cs =>
      rw [cut] at member
      rcases List.mem_cons.1 member with rfl | member
      · exact valid_front b cs (free c List.mem_cons_self)
      · exact ih (fun d among => free d (List.mem_of_mem_drop among)) member

/-- A sign that is not doubled is found as itself in front of what may follow it. -/
theorem signAt_single (member : c ∈ marks) (space : c ≠ ' ')
    (numeral : Scan.numeralChars b (c :: cs) = [])
    (double : ¬ ((c = '+' ∨ c = '-') ∧ cs.head? = some c)) (assigns : cs.head? ≠ some '=') :
    SignAt b (String.ofList [c]) cs := by
  simp only [marks, List.mem_cons, List.not_mem_nil, or_false] at member
  rcases member with rfl | rfl | rfl | rfl | rfl | rfl | rfl
  · exact absurd rfl space
  · exact .of_punctuates Path.punctuates_dot b
  · exact .of_punctuates (punctuates_bracket (by decide)) b
  · refine ⟨⟨'-', [], rfl, by decide⟩, numeral, ?_⟩
    exact Scan.punctuator?_sign fun same => double ⟨.inr rfl, same⟩
  · refine ⟨⟨'/', [], rfl, by decide⟩, numeral, ?_⟩
    cases cs with
    | nil => rfl
    | cons d cs =>
      have other : ('=' == d) = false :=
        beq_false_of_ne fun same => assigns (congrArg some same.symm)
      simp [Scan.punctuator?, Scan.punctuators, List.find?, List.isPrefixOf, other]
  · refine ⟨⟨'+', [], rfl, by decide⟩, numeral, ?_⟩
    cases cs with
    | nil => rfl
    | cons d cs =>
      have other : ('=' == d) = false :=
        beq_false_of_ne fun same => assigns (congrArg some same.symm)
      have single : ('+' == d) = false :=
        beq_false_of_ne fun same => double ⟨.inl rfl, congrArg some same.symm⟩
      simp [Scan.punctuator?, Scan.punctuators, List.find?, List.isPrefixOf, other, single]
  · exact ⟨⟨'%', [], rfl, by decide⟩, numeral, rfl⟩

theorem signAt_double (sign : c = '+' ∨ c = '-') : SignAt b (String.ofList [c, c]) cs := by
  rcases sign with rfl | rfl <;>
    exact ⟨⟨_, _, rfl, by decide⟩, by cases b <;> rfl, rfl⟩

end Signs

section Reading

theorem IsFree.ne (h : IsFree c) (other : ¬ IsFree d) : c ≠ d := by
  rintro rfl
  exact other h

/-- The text behind a piece of free text begins with free text or with the closing brace. -/
theorem head_free {more : List Char} (free : ∀ d ∈ more, IsFree d) :
    ∀ d ∈ (more ++ '\x7d' :: u).head?, IsFree d ∨ d = '\x7d' := by
  intro d head
  cases more with
  | nil => exact .inr (Option.some.inj head).symm
  | cons e more => exact .inl (Option.some.inj head ▸ free e List.mem_cons_self)

theorem leads_word_piece (start : Scan.isIdentifierStart c = true)
    (free : ∀ d ∈ c :: cs, IsFree d) :
    Leads allow ⟨.filter :: ms, b, c :: cs ++ '\x7d' :: u⟩
      [(Piece.word (c :: cs.takeWhile Scan.isIdentifierPart)).token]
      ⟨.filter :: ms, true, cs.dropWhile Scan.isIdentifierPart ++ '\x7d' :: u⟩ := by
  have word : Scan.IsWord (String.ofList (c :: cs.takeWhile Scan.isIdentifierPart)) :=
    ⟨c, _, String.toList_ofList, start, fun d member => List.mem_takeWhile_imp member⟩
  have more : ∀ d ∈ cs.dropWhile Scan.isIdentifierPart, IsFree d := fun d member =>
    free d (List.mem_cons_of_mem c ((List.dropWhile_suffix _).subset member))
  have split : c :: cs ++ '\x7d' :: u =
      (String.ofList (c :: cs.takeWhile Scan.isIdentifierPart)).toList ++
        (cs.dropWhile Scan.isIdentifierPart ++ '\x7d' :: u) := by
    rw [String.toList_ofList, List.cons_append, List.cons_append, ← List.append_assoc,
      List.takeWhile_append_dropWhile]
  suffices leads : Leads allow ⟨.filter :: ms, b, c :: cs ++ '\x7d' :: u⟩
      [(wordKind (String.ofList (c :: cs.takeWhile Scan.isIdentifierPart)),
        (String.ofList (c :: cs.takeWhile Scan.isIdentifierPart)).toList)]
      ⟨.filter :: ms, true, cs.dropWhile Scan.isIdentifierPart ++ '\x7d' :: u⟩ by
    rwa [String.toList_ofList] at leads
  refine leads_name word inside_filter split fun d head => ?_
  · refine ⟨?_, ?_⟩
    · cases rest_eq : cs.dropWhile Scan.isIdentifierPart with
      | nil =>
        rw [rest_eq] at head
        obtain rfl := Option.some.inj head
        decide
      | cons e es =>
        have some_ : cs.dropWhile Scan.isIdentifierPart ≠ [] := by
          rw [rest_eq]
          exact List.cons_ne_nil _ _
        have stops := List.head_dropWhile_not Scan.isIdentifierPart some_
        rw [rest_eq] at head
        obtain rfl := Option.some.inj head
        simpa only [rest_eq, List.head_cons] using stops
    · rcases head_free more d head with free | rfl
      · exact free.ne (by decide)
      · decide

/-- The number that a numeral is found to be. -/
theorem number?_numeral_piece (some_ : Scan.numeralChars b (c :: cs) ≠ []) :
    Scan.number? b (c :: cs ++ '\x7d' :: u) =
      some ⟨(Piece.numeral (Scan.numeralChars b (c :: cs))).kind,
        some (String.ofList (Scan.numeralChars b (c :: cs))),
        (Scan.numeralChars b (c :: cs)).length⟩ := by
  have more : ¬ (Scan.numeralChars b (c :: cs)).isEmpty = true := by rwa [List.isEmpty_iff]
  rw [Scan.number?_closing Scan.parting_brace (absurd · Scan.not_isSign_brace)
    (absurd · Scan.not_isSign_brace)]
  obtain ⟨x, -, found⟩ := Scan.number?_literal some_
  rw [Scan.number?] at found ⊢
  simp only [if_neg more] at found ⊢
  obtain ⟨y, parsed, -⟩ := Option.map_eq_some_iff.1 found
  rw [Piece.kind, parsed]
  rfl

theorem leads_numeral_piece (some_ : Scan.numeralChars b (c :: cs) ≠ []) :
    Leads allow ⟨.filter :: ms, b, c :: cs ++ '\x7d' :: u⟩
      [(Piece.numeral (Scan.numeralChars b (c :: cs))).token]
      ⟨.filter :: ms, true,
        (c :: cs).drop (Scan.numeralChars b (c :: cs)).length ++ '\x7d' :: u⟩ := by
  obtain ⟨d, ds, split⟩ := List.exists_cons_of_ne_nil some_
  have initial := Scan.numeralChars_initial b (c :: cs)
  have first : d = c := by
    rw [split, List.cons_prefix_cons] at initial
    exact initial.1
  have whole : c :: cs ++ '\x7d' :: u =
      d :: ds ++ ((c :: cs).drop (Scan.numeralChars b (c :: cs)).length ++ '\x7d' :: u) := by
    rw [← split, ← List.append_assoc, List.prefix_iff_eq_append.1 initial]
  have start : Scan.isIdentifierStart d = false := by
    obtain ⟨e, es, front, sign | digit⟩ := Scan.numeral_head some_
    · rw [first, (List.cons.inj front).1, sign]
      rfl
    · rw [first, (List.cons.inj front).1]
      exact Scan.isIdentifierStart_of_isDigit digit
  have found := number?_numeral_piece (u := u) some_
  rw [split] at whole
  rw [whole, Piece.kind, split] at found
  rw [Piece.token, Piece.kind, Piece.spelling, split]
  exact leads_numeral inside_filter whole start found

theorem signs_plain : ∀ cs ∈ signs, IsPlainSign (String.ofList cs) ∧
    Lexer.endsOperand .filter (.punctuator (String.ofList cs)) = false ∧ cs ≠ [' '] := by
  unfold IsPlainSign
  decide

theorem leads_sign_piece {cs more : List Char} (member : cs ∈ signs)
    (sign : SignAt b (String.ofList cs) more) :
    Leads allow ⟨.filter :: ms, b, cs ++ more⟩ [(Piece.mark cs).token]
      ⟨.filter :: ms, false, more⟩ := by
  obtain ⟨plain, open_, space⟩ := signs_plain cs member
  have whole : cs ++ more = (String.ofList cs).toList ++ more := by rw [String.toList_ofList]
  have leads : Leads allow ⟨.filter :: ms, b, cs ++ more⟩
      [(.punctuator (String.ofList cs), (String.ofList cs).toList)]
      ⟨.filter :: ms, Lexer.endsOperand .filter (.punctuator (String.ofList cs)), more⟩ :=
    leads_plain plain inside_filter whole sign
  rw [open_, String.toList_ofList] at leads
  rw [Piece.token, Piece.kind, if_neg space]
  exact leads

/-- The first piece of free text is the first word that the lexer reads. -/
theorem leads_front (free : ∀ d ∈ c :: cs, IsFree d) :
    Leads allow ⟨.filter :: ms, b, c :: cs ++ '\x7d' :: u⟩ [(front b c cs).token]
      ⟨.filter :: ms, (front b c cs).endsOperand,
        (c :: cs).drop (front b c cs).spelling.length ++ '\x7d' :: u⟩ := by
  obtain ⟨first, others⟩ := List.forall_mem_cons.1 free
  rcases front_cases b cs first with ⟨start, eq⟩ | ⟨some_, eq⟩ | ⟨double, eq⟩ | ⟨single, eq⟩ <;>
    rw [eq]
  · have behind : (c :: cs).drop (c :: cs.takeWhile Scan.isIdentifierPart).length =
        cs.dropWhile Scan.isIdentifierPart := by
      have both :=
        List.prefix_iff_eq_append.1 (List.takeWhile_prefix Scan.isIdentifierPart (l := cs))
      rw [List.length_cons, List.drop_succ_cons]
      exact List.append_cancel_left (both.trans List.takeWhile_append_dropWhile.symm)
    rw [Piece.spelling, behind]
    exact leads_word_piece start free
  · exact leads_numeral_piece some_
  · obtain ⟨ds, rfl⟩ := List.head?_eq_some_iff.1 double.2
    exact leads_sign_piece (double_mem_signs double.1) (signAt_double double.1)
  · obtain ⟨member, none_, double⟩ := single
    by_cases space : c = ' '
    · subst space
      exact leads_space
    have numeral : Scan.numeralChars b (c :: (cs ++ '\x7d' :: u)) = [] := by
      rw [← List.cons_append, Scan.numeralChars_closing Scan.parting_brace
        (absurd · Scan.not_isSign_brace) (absurd · Scan.not_isSign_brace), none_]
    have assigns : (cs ++ '\x7d' :: u).head? ≠ some '=' := by
      intro head
      rcases head_free others '=' head with free | brace
      · exact absurd free (by decide)
      · exact absurd brace (by decide)
    have alone : ¬ ((c = '+' ∨ c = '-') ∧ (cs ++ '\x7d' :: u).head? = some c) := by
      rintro ⟨sign, head⟩
      cases cs with
      | nil =>
        obtain rfl := Option.some.inj head
        revert sign
        decide
      | cons d cs => exact double ⟨sign, head⟩
    exact leads_sign_piece (single_mem_signs member space)
      (signAt_single member space numeral alone assigns)

/-- Up to the closing brace free text is read piece by piece. -/
theorem leads_cut (free : ∀ d ∈ t, IsFree d) (enough : t.length ≤ n) :
    ∃ after, Leads allow ⟨.filter :: ms, b, t ++ '\x7d' :: u⟩ ((cut n b t).map Piece.token)
      ⟨.filter :: ms, after, '\x7d' :: u⟩ := by
  induction n generalizing b t with
  | zero =>
    obtain rfl := List.length_eq_zero_iff.1 (Nat.le_zero.1 enough)
    exact ⟨b, .refl _⟩
  | succ n ih =>
    cases t with
    | nil => exact ⟨b, .refl _⟩
    | cons c cs =>
      have short := length_drop_front b c cs
      rw [List.length_cons] at enough
      obtain ⟨after, more⟩ := ih (b := (front b c cs).endsOperand)
        (fun d member => free d (List.mem_of_mem_drop member)) (short.trans (by omega))
      exact ⟨after, (leads_front free).cons more⟩

end Reading

end FreeText

end TemplateFormula
