import TemplateFormula.Proofs.Parsing.FreeText

/-!
# The values of free text

Free text in the argument of a filter arrives as a text: the keywords and numerals among its pieces
as the texts of their values, and what stands between them as it is spelled.
-/

namespace TemplateFormula

namespace FreeText

namespace Piece

/-- The text that the piece arrives as: that of its value, if it is a keyword or a numeral. -/
def shown (p : Piece) : List Char :=
  match p.kind with
  | .boolean v => if v then ['t', 'r', 'u', 'e'] else ['f', 'a', 'l', 's', 'e']
  | .null | .undefined => []
  | .number x => Number.chars x
  | _ => p.spelling

end Piece

variable {a : FilterArg} {as parts : List FilterArg} {p : Piece} {ps : List Piece}

section Parts

/-- The text of a part of an argument. -/
def partChars : FilterArg → List Char
  | .text s => s.toList
  | .expr (.number x) => Number.chars x
  | .expr (.literal (.boolean v)) => if v then ['t', 'r', 'u', 'e'] else ['f', 'a', 'l', 's', 'e']
  | _ => []

/-- Text, a keyword or a number. -/
def IsPart : FilterArg → Prop
  | .text _ | .expr (.literal _) | .expr (.number _) => True
  | _ => False

/-- The text of parts, the last of which comes first. -/
def told (parts : List FilterArg) : List Char := parts.reverse.flatMap partChars

theorem told_cons (a : FilterArg) (parts : List FilterArg) :
    told (a :: parts) = told parts ++ partChars a := by
  rw [told, List.reverse_cons, List.flatMap_append, List.flatMap_singleton]
  rfl

/-- A piece is a part of its own, or text that joins the text in front of it. -/
theorem add_cases (parts : List FilterArg) (p : Piece) :
    (∃ e, typed? p.kind = some e ∧ add parts p = .expr e :: parts ∧ IsPart (.expr e) ∧
      partChars (.expr e) = p.shown) ∨
    ∃ s rest, add parts p = .text (s ++ String.ofList p.spelling) :: rest ∧
      (parts = .text s :: rest ∨ s = "" ∧ parts = rest) ∧ p.shown = p.spelling := by
  have apart : (∃ e, typed? p.kind = some e ∧ IsPart (.expr e) ∧ partChars (.expr e) = p.shown) ∨
      typed? p.kind = none ∧ p.shown = p.spelling := by
    unfold Piece.shown
    cases p.kind with
    | boolean v | null | undefined | number x => exact .inl ⟨_, rfl, trivial, rfl⟩
    | _ => exact .inr ⟨rfl, rfl⟩
  rcases apart with ⟨e, typed, part, shown⟩ | ⟨untyped, shown⟩
  · exact .inl ⟨e, typed, by rw [add, typed], part, shown⟩
  · right
    rw [add, untyped]
    dsimp only
    unfold Parser.addText
    split
    · exact ⟨_, _, rfl, .inl rfl, shown⟩
    · exact ⟨"", _, by rw [String.empty_append], .inr ⟨rfl, rfl⟩, shown⟩

theorem told_add (parts : List FilterArg) (p : Piece) :
    told (add parts p) = told parts ++ p.shown := by
  rcases add_cases parts p with ⟨e, -, eq, -, shown⟩ | ⟨s, rest, eq, before, shown⟩
  · rw [eq, ← shown, told_cons]
  · have joined : told parts = told rest ++ s.toList := by
      rcases before with rfl | ⟨rfl, rfl⟩
      · exact told_cons _ _
      · exact (List.append_nil _).symm
    rw [eq, told_cons, joined, shown, List.append_assoc]
    simp only [partChars, String.toList_append, String.toList_ofList]

theorem told_foldl (ps : List Piece) (parts : List FilterArg) :
    told (ps.foldl add parts) = told parts ++ ps.flatMap Piece.shown := by
  induction ps generalizing parts with
  | nil => exact (List.append_nil _).symm
  | cons p ps ih => rw [List.foldl_cons, ih, told_add, List.flatMap_cons, List.append_assoc]

theorem isPart_foldl (h : ∀ a ∈ parts, IsPart a) (ps : List Piece) :
    ∀ a ∈ ps.foldl add parts, IsPart a := by
  induction ps generalizing parts with
  | nil => exact h
  | cons p ps ih =>
    refine ih ?_
    rcases add_cases parts p with ⟨e, -, eq, part, -⟩ | ⟨s, rest, eq, before, -⟩ <;>
      rw [eq, List.forall_mem_cons]
    · exact ⟨part, h⟩
    · refine ⟨trivial, fun a member => h a ?_⟩
      rcases before with rfl | ⟨-, rfl⟩
      · exact List.mem_cons_of_mem _ member
      · exact member

/-- There is a part that is text. -/
def HasText (parts : List FilterArg) : Prop := ∃ s, .text s ∈ parts

theorem hasText_foldl (ps : List Piece)
    (h : HasText parts ∨ ∃ p ∈ ps, typed? p.kind = none) : HasText (ps.foldl add parts) := by
  induction ps generalizing parts with
  | nil =>
    rcases h with h | ⟨p, member, -⟩
    · exact h
    · cases member
  | cons p ps ih =>
    refine ih ?_
    rcases add_cases parts p with ⟨e, typed, eq, -, -⟩ | ⟨s, rest, eq, -, -⟩
    · rcases h with ⟨s, member⟩ | ⟨q, member, untyped⟩
      · exact .inl ⟨s, eq ▸ List.mem_cons_of_mem _ member⟩
      · rcases List.mem_cons.1 member with rfl | member
        · rw [typed] at untyped
          cases untyped
        · exact .inr ⟨q, member, untyped⟩
    · exact .inl ⟨_, eq ▸ List.mem_cons_self⟩

/-- Without keywords and numerals the pieces stay in one part. -/
theorem foldl_untyped (untyped : ∀ p ∈ ps, typed? p.kind = none) (s : String) :
    ps.foldl add [.text s] = [.text (s ++ String.ofList (ps.flatMap Piece.spelling))] := by
  induction ps generalizing s with
  | nil => rw [List.foldl_nil, List.flatMap_nil, String.ofList_nil, String.append_empty]
  | cons p ps ih =>
    obtain ⟨first, others⟩ := List.forall_mem_cons.1 untyped
    have joins : add [.text s] p = [.text (s ++ String.ofList p.spelling)] := by
      rw [add, first]
      rfl
    rw [List.foldl_cons, joins, ih others, List.flatMap_cons, String.ofList_append,
      String.append_assoc]

theorem trimLast_text {s : String} (inked : Path.EndsInked s.toList) (rest : List FilterArg) :
    Parser.trimLast (.text s :: rest) = .text s :: rest := by
  obtain ⟨us, c, split, blank⟩ := inked
  have stays : ¬ Text.isBlank c = true := by rw [blank]; exact Bool.false_ne_true
  have whole : Text.trimEnd s.toList = s.toList := by
    rw [split, Text.trimEnd, List.reverse_append, List.reverse_singleton, List.singleton_append,
      List.dropWhile_cons_of_neg stays, List.reverse_cons, List.reverse_reverse]
  have some_ : ¬ s.toList.isEmpty = true := by
    rw [split, List.isEmpty_iff]
    exact List.append_ne_nil_of_right_ne_nil _ (List.cons_ne_nil _ _)
  simp only [Parser.trimLast, whole, if_neg some_, String.ofList_toList]

/-- Behind a piece that does not end in a blank there is nothing to trim. -/
theorem trimLast_add (inked : Path.EndsInked p.spelling) (parts : List FilterArg) :
    Parser.trimLast (add parts p) = add parts p := by
  rcases add_cases parts p with ⟨e, -, eq, -, -⟩ | ⟨s, rest, eq, -, -⟩
  · rw [eq]
    rfl
  · rw [eq]
    refine trimLast_text ?_ rest
    rw [String.toList_append, String.toList_ofList]
    exact inked.append s.toList

end Parts

end FreeText

namespace Eval

open FreeText

variable {σ : Type} {env : Environment σ} {m : Machine σ} {a : FilterArg}
  {as parts : List FilterArg} {n : Nat}

/-- Nodes of keywords and numerals are left to the built-in rules. -/
structure Untouched (env : Environment σ) : Prop where
  literal : env.options.nodeHandler? .literal = none
  number : env.options.nodeHandler? .number = none

theorem filterArg_part (untouched : Untouched env) (h : IsPart a) :
    ∃ v, filterArg (within (n + 1) .handled) a env m = (.ok v, m) ∧
      v.shownChars env.zone = partChars a := by
  cases a with
  | text s => exact ⟨.text s, rfl, rfl⟩
  | mixed parts => cases h
  | expr e =>
    cases e with
    | number x =>
      have value : within (n + 1) .handled (.number x) env m = (.ok (.number x), m) :=
        (within_builtin untouched.number m).trans rfl
      exact ⟨.number x, value, rfl⟩
    | literal v =>
      have value : within (n + 1) .handled (.literal v) env m = (.ok (.ofLiteral v), m) :=
        (within_builtin untouched.literal m).trans rfl
      refine ⟨.ofLiteral v, value, ?_⟩
      rcases v with _ | _ | _ | _ <;> rfl
    | _ => cases h

theorem filterParts_told (untouched : Untouched env) (h : ∀ a ∈ as, IsPart a) :
    filterParts (within (n + 1) .handled) as env m = (.ok (as.flatMap partChars), m) := by
  induction as with
  | nil => rfl
  | cons a as ih =>
    obtain ⟨first, others⟩ := List.forall_mem_cons.1 h
    obtain ⟨v, value, chars⟩ := filterArg_part untouched first (n := n) (m := m)
    have told_ : shown v env m = (.ok (partChars a), m) := by
      rw [← chars]
      rfl
    rw [filterParts, bind_of_ok value, bind_of_ok told_, bind_of_ok (ih others),
      List.flatMap_cons]
    rfl

/-- Parts among which there is text are an argument that is a text. -/
theorem filterArg_argument (untouched : Untouched env) (h : ∀ a ∈ parts, IsPart a)
    (some_ : HasText parts) (kept : Parser.trimLast parts = parts) :
    filterArg (within (n + 1) .handled) (Parser.argument parts) env m =
      (.ok (.text (String.ofList (told parts))), m) := by
  obtain ⟨s, member⟩ := some_
  unfold Parser.argument
  rw [kept]
  match parts, h, member with
  | [a], _, member =>
    obtain rfl := List.mem_singleton.1 member
    have text : told [.text s] = s.toList := List.append_nil _
    rw [text, String.ofList_toList]
    rfl
  | a :: b :: rest, h, _ =>
    have each : ∀ x ∈ (a :: b :: rest).reverse, IsPart x := fun x among =>
      h x (List.mem_reverse.1 among)
    exact bind_of_ok (filterParts_told untouched each)

end Eval

namespace FreeText

variable {name : String} {t : List Char}

/-- A space is text among the pieces. -/
theorem exists_untyped (free : ∀ c ∈ t, IsFree c) (spaced : ' ' ∈ t) :
    ∃ p ∈ pieces t, typed? p.kind = none := by
  rw [← spelling_pieces t] at spaced
  obtain ⟨p, member, space⟩ := List.mem_flatMap.1 spaced
  refine ⟨p, member, ?_⟩
  have valid : p.Valid := valid_of_mem_cut free member
  cases p with
  | word cs | numeral cs => exact absurd space valid
  | mark cs =>
    rw [Piece.kind]
    split <;> rfl

theorem isBlank_of_free {c : Char} (free : IsFree c) (space : c ≠ ' ') :
    Text.isBlank c = false := by
  have apart : ∀ n ∈ Scan.blanks, IsFree (.ofNat n) → Char.ofNat n = ' ' := by decide
  refine Bool.eq_false_iff.2 fun blank => space ?_
  have blank_free := apart c.toNat (Scan.mem_blanks blank)
  rw [Char.ofNat_toNat] at blank_free
  exact blank_free free

/-- There is nothing to trim behind a text that does not end in a space. -/
theorem trimLast_pieces (free : ∀ c ∈ t, IsFree c) (last : t.getLast? ≠ some ' ') :
    Parser.trimLast ((pieces t).foldl add []) = (pieces t).foldl add [] := by
  rcases List.eq_nil_or_concat (pieces t) with none_ | ⟨qs, p, split⟩
  · rw [none_]
    rfl
  rw [List.concat_eq_append] at split
  have some_ : p.spelling ≠ [] :=
    ne_nil_of_mem_cut false (split ▸ List.mem_append_right qs (List.mem_singleton_self p))
  have whole : t = (qs.flatMap Piece.spelling ++ p.spelling.dropLast) ++
      [p.spelling.getLast some_] := by
    rw [List.append_assoc, List.dropLast_concat_getLast, ← List.flatMap_singleton Piece.spelling p,
      ← List.flatMap_append, ← split, spelling_pieces]
  have member : p.spelling.getLast some_ ∈ t := by
    rw [whole]
    exact List.mem_append_right _ (List.mem_singleton_self _)
  have inked : p.spelling.getLast some_ ≠ ' ' := fun space =>
    last (by rw [whole, List.getLast?_concat, space])
  rw [split, List.foldl_append, List.foldl_cons, List.foldl_nil]
  exact trimLast_add ⟨_, _, (List.dropLast_concat_getLast some_).symm,
    isBlank_of_free (free _ member) inked⟩ _

/-- The argument is a text: that of the values of its keywords and numerals and of what stands
between them. -/
theorem filterArg_freeArgument {σ : Type} {env : Environment σ} (untouched : Eval.Untouched env)
    (free : ∀ c ∈ t, IsFree c) (spaced : ' ' ∈ t) (last : t.getLast? ≠ some ' ')
    (m : Machine σ) (n : Nat) :
    Eval.filterArg (Eval.within (n + 1) .handled) (freeArgument t) env m =
      (.ok (.text (String.ofList ((pieces t).flatMap Piece.shown))), m) := by
  have parts : ∀ a ∈ (pieces t).foldl add [], IsPart a := isPart_foldl (List.forall_mem_nil _) _
  have text : HasText ((pieces t).foldl add []) :=
    hasText_foldl _ (.inr (exists_untyped free spaced))
  rw [freeArgument, Eval.filterArg_argument untouched parts text (trimLast_pieces free last),
    told_foldl]
  rfl

/-- Without keywords and numerals the argument is the text itself, before any evaluation. -/
theorem freeArgument_untyped (free : ∀ c ∈ t, IsFree c) (some_ : t ≠ [])
    (last : t.getLast? ≠ some ' ') (untyped : ∀ p ∈ pieces t, typed? p.kind = none) :
    freeArgument t = .text (String.ofList t) := by
  have joined : (pieces t).foldl add [] = [.text (String.ofList t)] := by
    cases split : pieces t with
    | nil =>
      have nothing := spelling_pieces t
      rw [split] at nothing
      exact absurd nothing.symm some_
    | cons p ps =>
      rw [split] at untyped
      obtain ⟨first, others⟩ := List.forall_mem_cons.1 untyped
      have begins : add [] p = [.text (String.ofList p.spelling)] := by
        rw [add, first]
        rfl
      rw [List.foldl_cons, begins, foldl_untyped others, ← String.ofList_append,
        ← List.flatMap_cons, ← split, spelling_pieces]
  rw [freeArgument, Parser.argument, trimLast_pieces free last, joined]

/-- Free text is the argument of the filter. It evaluates to the text with the values of its
keywords and numerals in their place, and to itself where these are spelled as they are shown. -/
theorem argument_evaluates (named : IsName name) (free : ∀ c ∈ t, IsFree c) (spaced : ' ' ∈ t)
    (first : t.head? ≠ some ' ') (last : t.getLast? ≠ some ' ') (names : List String) (d : Nat) :
    ∃ arg, parse (String.ofList (filtered name t)) ⟨.template, true, names, d + 1⟩ =
        .ok (.document [.island (.filter (.variable "x") [.mk name [arg]])]) ∧
      (∀ {σ : Type} (env : Environment σ) (m : Machine σ) (n : Nat), Eval.Untouched env →
        Eval.filterArg (Eval.within (n + 1) .handled) arg env m =
          (.ok (.text (String.ofList ((pieces t).flatMap Piece.shown))), m)) ∧
      ((∀ p ∈ pieces t, p.shown = p.spelling) → (pieces t).flatMap Piece.shown = t) ∧
      ((∀ p ∈ pieces t, typed? p.kind = none) → arg = .text (String.ofList t)) := by
  refine ⟨freeArgument t, parse_filtered named free first names d,
    fun env m n untouched => filterArg_freeArgument untouched free spaced last m n,
    fun same => ?_, freeArgument_untyped free (List.ne_nil_of_mem spaced) last⟩
  rw [List.flatMap_congr same, spelling_pieces]

/-- Text with a numeral that is spelled as it is shown. -/
def paged : List Char := ['P', 'a', 'g', 'e', ' ', '7']

theorem isName_default : IsName "default" := by
  refine ⟨⟨'d', ['e', 'f', 'a', 'u', 'l', 't'], rfl, rfl, ?_⟩, by decide⟩
  simp only [List.forall_mem_cons]
  exact ⟨rfl, rfl, rfl, rfl, rfl, rfl, by simp⟩

theorem argument_evaluates_paged :
    IsName "default" ∧ (∀ c ∈ paged, IsFree c) ∧ ' ' ∈ paged ∧ paged.head? ≠ some ' ' ∧
      paged.getLast? ≠ some ' ' ∧
      ∃ arg, parse "$\x7bx | default:Page 7\x7d" .template =
          .ok (.document [.island (.filter (.variable "x") [.mk "default" [arg]])]) ∧
        ∀ clock data, Eval.filterArg (Eval.within 1 .handled) arg (.plain clock data none)
          (.start clock ()) = (.ok (.text "Page 7"), .start clock ()) := by
  have free : ∀ c ∈ paged, IsFree c := by
    simp only [paged, List.forall_mem_cons]
    exact ⟨.inl rfl, .inl rfl, .inl rfl, .inl rfl, .inr (by decide), .inl rfl, by simp⟩
  obtain ⟨arg, parsed, value, verbatim, -⟩ := argument_evaluates isName_default free (by decide)
    (by decide) (by decide) ParseOptions.usualNamespaces 63
  have seven : Number.parse? ['7'] = some (Number.whole 7) := rfl
  have numeral : (Piece.numeral ['7']).shown = ['7'] := by
    rw [Piece.shown, Piece.kind, seven]
    exact Number.chars_whole (by decide)
  have same : ∀ p ∈ pieces paged, p.shown = p.spelling := by
    change ∀ p ∈ [Piece.word ['P', 'a', 'g', 'e'], .mark [' '], .numeral ['7']], _
    simp only [List.forall_mem_cons]
    exact ⟨rfl, rfl, numeral, by simp⟩
  refine ⟨isName_default, free, by decide, by decide, by decide, arg, parsed, fun clock data => ?_⟩
  have found := value (.plain clock data none) (.start clock ()) 0 ⟨rfl, rfl⟩
  rwa [verbatim same] at found

/-- Text with a numeral and a keyword that are not spelled as they are shown. -/
def respelled : List Char := ['1', '.', '0', ' ', 'T', 'R', 'U', 'E']

theorem filterArg_respelled :
    IsName "default" ∧ (∀ c ∈ respelled, IsFree c) ∧ ' ' ∈ respelled ∧
      respelled.head? ≠ some ' ' ∧ respelled.getLast? ≠ some ' ' ∧
      ∃ arg, parse "$\x7bx | default:1.0 TRUE\x7d" .template =
          .ok (.document [.island (.filter (.variable "x") [.mk "default" [arg]])]) ∧
        ∀ clock data, Eval.filterArg (Eval.within 1 .handled) arg (.plain clock data none)
            (.start clock ()) = (.ok (.text "1 true"), .start clock ()) ∧
          Eval.filterArg (Eval.within 1 .handled) arg (.plain clock data none)
            (.start clock ()) ≠ (.ok (.text "1.0 TRUE"), .start clock ()) := by
  have free : ∀ c ∈ respelled, IsFree c := by
    simp only [respelled, List.forall_mem_cons]
    exact ⟨.inl rfl, .inr (by decide), .inl rfl, .inr (by decide), .inl rfl, .inl rfl, .inl rfl,
      .inl rfl, by simp⟩
  have spaced : ' ' ∈ respelled := by decide
  have last : respelled.getLast? ≠ some ' ' := by decide
  have one : Number.parse? ['1', '.', '0'] = some (Number.whole 1) := rfl
  have numeral : (Piece.numeral ['1', '.', '0']).shown = ['1'] := by
    rw [Piece.shown, Piece.kind, one]
    exact Number.chars_whole (by decide)
  have shown : (pieces respelled).flatMap Piece.shown = ['1', ' ', 't', 'r', 'u', 'e'] := by
    change [Piece.numeral ['1', '.', '0'], .mark [' '], .word ['T', 'R', 'U', 'E']].flatMap _ = _
    rw [List.flatMap_cons, numeral]
    rfl
  refine ⟨isName_default, free, spaced, by decide, last, freeArgument respelled,
    parse_filtered isName_default free (by decide) ParseOptions.usualNamespaces 63,
    fun clock data => ?_⟩
  have untouched : Eval.Untouched (.plain clock data none) := ⟨rfl, rfl⟩
  have found := filterArg_freeArgument untouched free spaced last (.start clock ()) 0
  rw [shown] at found
  refine ⟨found, fun same => ?_⟩
  have texts := found.symm.trans same
  simp at texts

end FreeText

end TemplateFormula
