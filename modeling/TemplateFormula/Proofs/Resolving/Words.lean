import TemplateFormula.Proofs.Lexing.Tiling
import TemplateFormula.Proofs.Printing.Embedding
import TemplateFormula.Proofs.Printing.RoundTrip
import TemplateFormula.Proofs.Resolving.Segments
import Mathlib.Data.List.Chain

/-!
# Words of paths

The lexer reads a path word by word: a name, which may be a keyword, a dot, a bracket, an index or a
text in quotes. Each is one token with the word for its text, whatever segment stands behind it;
only an index behind a dot goes on with another one, as the digits behind its point.
-/

namespace TemplateFormula

/-- The kind of a token and the text that it is written as. -/
abbrev Word : Type := TokenKind × List Char

def Token.word (t : Token) : Word := (t.kind, t.text.toList)

def wordsChars (ws : List Word) : List Char := ws.flatMap (·.2)

/-- A name as a token. -/
def wordKind (name : String) : TokenKind :=
  ((Scan.keywords.find? fun k => Number.asciiLower name.toList == k.1).map (·.2)).getD
    (.identifier name)

namespace Scan

variable {name : String} {rest : List Char} {n : Nat}

theorem keywords_literals : ∀ k ∈ keywords, ∃ v : Literal, k.2 = v.token := by
  intro k member
  simp only [keywords, List.mem_cons, List.not_mem_nil, or_false] at member
  rcases member with rfl | rfl | rfl | rfl
  · exact ⟨.boolean true, rfl⟩
  · exact ⟨.null, rfl⟩
  · exact ⟨.boolean false, rfl⟩
  · exact ⟨.undefined, rfl⟩

theorem wordKind_cases (name : String) :
    wordKind name = .identifier name ∨ ∃ v : Literal, wordKind name = v.token := by
  unfold wordKind
  cases found : keywords.find? fun k => Number.asciiLower name.toList == k.1 with
  | none => exact .inl rfl
  | some k => exact .inr (keywords_literals k (List.mem_of_find?_eq_some found))

theorem wordKind_eq_identifier (h : IsName name) : wordKind name = .identifier name := by
  have none_ : (keywords.find? fun k => Number.asciiLower name.toList == k.1) = none := by
    rw [List.find?_eq_none]
    intro k member
    rw [beq_iff_eq]
    exact h.2 k member
  rw [wordKind, none_]
  rfl

theorem wordKind_plain (name : String) :
    (wordKind name).isUnmarked = true ∧ wordKind name ≠ .eof ∧ ∀ c, wordKind name ≠ .char c := by
  rcases wordKind_cases name with kind | ⟨v, kind⟩ <;> rw [kind]
  · exact ⟨rfl, TokenKind.noConfusion, fun _ => TokenKind.noConfusion⟩
  · cases v <;> exact ⟨rfl, TokenKind.noConfusion, fun _ => TokenKind.noConfusion⟩

/-- A name is read as one word in front of a character that does not belong to it. -/
theorem keyword_or_identifier (word : IsWord name)
    (ends : ∀ c ∈ rest.head?, isIdentifierPart c = false) :
    ∃ raw, (keyword? (name.toList ++ rest) <|> identifier? (name.toList ++ rest)) =
      some ⟨wordKind name, raw, name.toList.length⟩ := by
  obtain ⟨d, cs, split, first, others⟩ := word
  have matched (k : List Char × TokenKind) (member : k ∈ keywords) :
      matchesWord k.1 (name.toList ++ rest) = (Number.asciiLower name.toList == k.1) :=
    matchesWord_append (keywords_length_pos k member) (keywords_letters k member)
      (by rw [split]; exact others) ends
  have found : (keywords.find? fun k => matchesWord k.1 (name.toList ++ rest)) =
      keywords.find? fun k => Number.asciiLower name.toList == k.1 := by
    rw [← List.head?_filter, ← List.head?_filter, List.filter_congr matched]
  rw [keyword?, found, wordKind]
  cases hit : keywords.find? fun k => Number.asciiLower name.toList == k.1 with
  | some k =>
    have lower := List.find?_some hit
    have length : k.1.length = name.toList.length := by
      rw [← beq_iff_eq.1 lower, Number.asciiLower, List.length_map]
    exact ⟨_, congrArg some (congrArg (Lexeme.mk k.2 _) length)⟩
  | none =>
    have whole := Lexer.takeWhile_boundary others ends
    refine ⟨none, ?_⟩
    simp only [Option.map_none, Option.orElse_eq_orElse, Option.orElse_eq_or, Option.none_or,
      split, List.cons_append, identifier?, if_pos first, whole]
    rw [← split, String.ofList_toList]
    rfl

/-- Nothing that the digits of a whole number go on with. -/
structure EndsWhole (rest : List Char) : Prop where
  digit : ∀ c ∈ rest.head?, c.isDigit = false
  fraction : fractionChars rest = []
  exponent : exponentChars rest = []

theorem isWhole_natChars (n : Nat) : IsWhole (Number.natChars n) := by
  rcases Nat.eq_zero_or_pos n with rfl | pos
  · exact .inl rfl
  · exact .inr ⟨Number.natChars_areDigits n, Number.natChars_head (Nat.ne_of_gt pos)⟩

theorem numeralChars_digit (after : Bool) {c : Char} (digit : c.isDigit = true) (cs : List Char) :
    numeralChars after (c :: cs) = unsignedChars (c :: cs) := by
  rw [numeralChars.eq_def]
  split
  · next h =>
    rw [(List.cons.inj h).1] at digit
    cases digit
  · rfl

theorem number?_natChars (after : Bool) (ends : EndsWhole rest) :
    number? after (Number.natChars n ++ rest) =
      some ⟨.number (Number.whole n), some (String.ofList (Number.natChars n)),
        (Number.natChars n).length⟩ := by
  have digits := Number.natChars_areDigits n
  have some_ : (Number.natChars n).isEmpty = false := by simpa using digits.1
  have unsigned : unsignedChars (Number.natChars n ++ rest) = Number.natChars n := by
    have whole := wholeChars_of (isWhole_natChars n) ends.digit
    simp only [unsignedChars, whole, some_, Bool.false_eq_true, if_false, List.drop_left,
      ends.fraction, List.length_nil, Nat.add_zero, ends.exponent, List.append_nil]
  have numeral : numeralChars after (Number.natChars n ++ rest) = Number.natChars n := by
    obtain ⟨d, ds, split⟩ := List.exists_cons_of_ne_nil digits.1
    have first := digits.2 d (by rw [split]; exact List.mem_cons_self)
    rw [split, List.cons_append, numeralChars_digit after first, ← List.cons_append, ← split,
      unsigned]
  simp only [number?, numeral, some_, Bool.false_eq_true, if_false, Number.parse?_natChars,
    Option.map_some]

end Scan

theorem Lexeme.Spells.text_eq {x : Lexeme} {cs : List Char} (h : x.Spells cs)
    (free : ∀ c, x.kind ≠ .char c) :
    x.raw.getD x.kind.spelling = String.ofList (cs.take x.length) := by
  obtain ⟨kind, raw, length⟩ := x
  cases kind with
  | char c => exact absurd rfl (free c)
  | _ => exact h

namespace Lexer

/-- In front of the rest the lexer scans the word as one token. -/
structure Scans (w : Word) (rest : List Char) : Prop where
  first : ∃ d ds, w.2 = d :: ds ∧ isSpace d = false
  island : ∀ r, w.2 ++ rest ≠ '$' :: '\x7b' :: r
  scan : ∃ raw, ∀ l : Lexer, l.rest = w.2 ++ rest → InExpression l.modes →
    l.scanExpression = (.ok ⟨w.1, raw, w.2.length⟩, l)
  inked : w.1 ≠ .eof
  free : ∀ c, w.1 ≠ .char c

variable {base : Nat} {ms : List Mode} {a : Bool} {w : Word} {rest : List Char} {l : Lexer}

theorem Scans.pull (h : Scans w rest) (at_ : At base ms (w.2 ++ rest) a l) (hm : InExpression ms) :
    ∃ b t l', l.nextToken = (.ok t, l') ∧ t.word = w ∧ At base ms rest b l' := by
  obtain ⟨d, ds, split, space⟩ := h.first
  obtain ⟨raw, scan⟩ := h.scan
  have head : (w.2 ++ rest).head? = some d := by rw [split]; rfl
  have scanned (l₀ : Lexer) (hr : l₀.rest = w.2 ++ rest) (hat : At base ms (w.2 ++ rest) a l₀) :
      l₀.scanExpression = (.ok ⟨w.1, raw, w.2.length⟩, { l₀ with modes := ms }) := by
    rw [scan l₀ hr (by rwa [hat.modes]), ← hat.modes]
  obtain ⟨t, l', next, kind, raw_eq, behind⟩ := at_.pull hm head space h.island scanned
  rw [List.drop_left] at behind
  refine ⟨_, t, l', next, Prod.ext kind ?_, behind⟩
  -- what is scanned is spelled as the characters that it takes
  let l₀ : Lexer := ⟨w.2 ++ rest, .start, ms, base, none, false, false⟩
  have outside : l₀.mode ≠ .template := fun inside => by
    rcases hm.cases _ inside with other | other <;> cases other
  have spelled := ((scanExpression_scanned outside).spelled rfl).found _ (by rw [scan l₀ rfl hm])
  have text := spelled.text_eq h.free
  rw [List.take_left] at text
  change t.text.toList = w.2
  rw [Token.text, raw_eq, kind, text, String.toList_ofList]

/-- Each word is scanned in front of the words behind it. -/
def Scannable : List Word → List Char → Prop
  | [], _ => True
  | w :: ws, rest => Scans w (wordsChars ws ++ rest) ∧ Scannable ws rest

theorem Scannable.append {us vs : List Word} (first : Scannable us (wordsChars vs ++ rest))
    (last : Scannable vs rest) : Scannable (us ++ vs) rest := by
  induction us with
  | nil => exact last
  | cons w us ih =>
    have chars : wordsChars (us ++ vs) ++ rest = wordsChars us ++ (wordsChars vs ++ rest) := by
      rw [wordsChars, List.flatMap_append, List.append_assoc]
      rfl
    exact ⟨chars ▸ first.1, ih first.2⟩

theorem Scannable.pulls {ws : List Word} (h : Scannable ws rest) (hm : InExpression ms)
    (at_ : At base ms (wordsChars ws ++ rest) a l) :
    ∃ b ts l', l.Pulls ts l' ∧ ts.map Token.word = ws ∧ At base ms rest b l' := by
  induction ws generalizing a l with
  | nil => exact ⟨a, [], l, .nil l, rfl, at_⟩
  | cons w ws ih =>
    obtain ⟨scans, more⟩ := h
    rw [wordsChars, List.flatMap_cons, List.append_assoc] at at_
    obtain ⟨b, t, l₁, next, word, at₁⟩ := scans.pull at_ hm
    obtain ⟨b', ts, l₂, pulls, words, at₂⟩ := ih more at₁
    have kind : t.kind = w.1 := congrArg Prod.fst word
    have inked : t.kind ≠ .eof := kind ▸ scans.inked
    exact ⟨b', t :: ts, l₂, .cons next inked pulls, by rw [List.map_cons, word, words], at₂⟩

section Kinds

/-- The end of a path or another segment. -/
def Parted (rest : List Char) : Prop := ∀ c ∈ rest.head?, c = '.' ∨ c = '['

theorem scans_name {name : String} (word : Scan.IsWord name) (parted : Parted rest) :
    Scans (wordKind name, name.toList) rest := by
  have ends : ∀ c ∈ rest.head?, Scan.isIdentifierPart c = false := by
    intro c head
    rcases parted c head with rfl | rfl <;> rfl
  obtain ⟨raw, found⟩ := Scan.keyword_or_identifier word ends
  obtain ⟨d, ds, split, first, others⟩ := word
  obtain ⟨unmarked, inked, free⟩ := Scan.wordKind_plain name
  refine ⟨⟨d, ds, split, isSpace_of_isIdentifierStart first⟩, fun r island => ?_,
    ⟨raw, fun l hr _ => ?_⟩, inked, free⟩
  · change name.toList ++ rest = _ at island
    rw [split] at island
    obtain ⟨rfl, behind⟩ := List.cons.inj island
    cases ds with
    | nil =>
      have brace := parted '\x7b' (congrArg List.head? behind)
      simp at brace
    | cons c ds =>
      have part := others c List.mem_cons_self
      rw [(List.cons.inj behind).1] at part
      cases part
  · have hit : l.word? = some ⟨wordKind name, raw, name.toList.length⟩ := by
      simp only [Option.orElse_eq_orElse, Option.orElse_eq_or] at found
      simp only [word?, hr, Option.orElse_eq_orElse, Option.orElse_eq_or, ← Option.or_assoc, found,
        Option.some_or]
    exact scanExpression_of_word hit

theorem scans_whole (n : Nat) (ends : Scan.EndsWhole rest) :
    Scans (.number (Number.whole n), Number.natChars n) rest := by
  have digits := Number.natChars_areDigits n
  obtain ⟨d, ds, split⟩ := List.exists_cons_of_ne_nil digits.1
  have digit := digits.2 d (by rw [split]; exact List.mem_cons_self)
  have start := Scan.isIdentifierStart_of_isDigit digit
  have space : isSpace d = false := by
    rw [Bool.eq_false_iff]
    intro space
    simp only [isSpace, Bool.or_eq_true, beq_iff_eq] at space
    rcases space with ((rfl | rfl) | rfl) | rfl <;> cases digit
  refine ⟨⟨d, ds, split, space⟩, fun r island => ?_,
    ⟨some (String.ofList (Number.natChars n)), fun l hr _ => ?_⟩, TokenKind.noConfusion,
    fun _ => TokenKind.noConfusion⟩
  · change Number.natChars n ++ rest = _ at island
    rw [split] at island
    rw [(List.cons.inj island).1] at start
    cases start
  · change l.rest = Number.natChars n ++ rest at hr
    have number := Scan.number?_natChars (n := n) l.afterOperand ends
    have keyword : Scan.keyword? (Number.natChars n ++ rest) = none := by
      rw [split]
      exact Scan.keyword?_eq_none start
    have identifier : Scan.identifier? (Number.natChars n ++ rest) = none := by
      rw [split]
      exact Scan.identifier?_eq_none start
    refine scanExpression_of_word ?_
    simp only [word?, hr, keyword, identifier, number]
    rfl

theorem scans_quoted {k : String} (plain : ∀ c ∈ k.toList, c ≠ '"' ∧ c ≠ '\\') :
    Scans (.text k, '"' :: (k.toList ++ ['"'])) rest := by
  have spread : (Embedding.quoted '"' k).toList = '"' :: (k.toList ++ ['"']) := by
    rw [Embedding.toList_quoted, Text.guarded_eq_self]
    intro c member
    obtain ⟨quote, slash⟩ := plain c member
    simp [quote, slash]
  refine ⟨⟨'"', _, rfl, rfl⟩, fun r => by simp, ⟨some (Embedding.quoted '"' k), fun l hr _ => ?_⟩,
    TokenKind.noConfusion, fun _ => TokenKind.noConfusion⟩
  have scanned := scanExpression_quoted (.inl rfl) (hr.trans (by rw [spread]))
  rwa [spread] at scanned

theorem scans_punct {p : String} {d : Char} (split : p.toList = [d]) (h : Punctuates p rest)
    (open_ : p ≠ "\x7b") (close : p ≠ "\x7d") : Scans (.punctuator p, [d]) rest := by
  obtain ⟨e, es, head, _, space, _⟩ := h.head
  obtain ⟨rfl, rfl⟩ := List.cons.inj (split.symm.trans head)
  refine ⟨⟨d, [], rfl, space⟩, fun r => ?_, ⟨none, fun l hr hm => ?_⟩, TokenKind.noConfusion,
    fun _ => TokenKind.noConfusion⟩
  · have free := h.no_island r
    rwa [split] at free
  · rw [h.scanExpression (by rw [split]; exact hr), settle_of_plain hm open_ close, split]

end Kinds

end Lexer

namespace Path

open Lexer

namespace Segment

def words : Segment → List Word
  | name s => [(.punctuator ".", ['.']), (wordKind s, s.toList)]
  | number n => [(.punctuator ".", ['.']), (.number (Number.whole n), Number.natChars n)]
  | index n =>
    [(.punctuator "[", ['[']), (.number (Number.whole n), Number.natChars n),
      (.punctuator "]", [']'])]
  | key k =>
    [(.punctuator "[", ['[']), (.text k, '"' :: (k.toList ++ ['"'])), (.punctuator "]", [']'])]

theorem wordsChars_words (s : Segment) : wordsChars s.words = s.chars := by
  cases s <;> simp [words, wordsChars, chars]

end Segment

/-- No index behind a dot is followed by another, with which it would be read as one number. -/
def Apart (segments : List Segment) : Prop :=
  segments.IsChain fun s t => ¬ (s.isNumber = true ∧ t.isNumber = true)

variable {segments : List Segment} {rest : List Char}

theorem parted_segments (segments : List Segment) : Parted (segments.flatMap Segment.chars) := by
  cases segments with
  | nil => rintro c ⟨⟩
  | cons s segments =>
    rintro c head
    cases s <;> cases head <;> simp

theorem punctuates_dot : Punctuates "." rest :=
  ⟨⟨_, _, rfl, by decide⟩, fun after => by cases after <;> rfl, rfl⟩

theorem endsWhole_bracket : Scan.EndsWhole (']' :: rest) :=
  ⟨by rintro _ ⟨⟩; rfl, rfl, rfl⟩

/-- The digits of an index end where another segment starts that is no index behind a dot. -/
theorem endsWhole_segments {s : Segment} (number : s.isNumber = true)
    (valid : ∀ t ∈ segments, t.Valid) (apart : Apart (s :: segments)) :
    Scan.EndsWhole (segments.flatMap Segment.chars) := by
  cases segments with
  | nil => exact ⟨by rintro _ ⟨⟩, rfl, rfl⟩
  | cons t segments =>
    have other := (List.isChain_cons_cons.1 apart).1
    cases t with
    | number m => exact absurd ⟨number, rfl⟩ other
    | index m => exact ⟨by rintro _ ⟨⟩; rfl, rfl, rfl⟩
    | key k => exact ⟨by rintro _ ⟨⟩; rfl, rfl, rfl⟩
    | name s =>
      obtain ⟨d, ds, split, first, _⟩ := valid _ List.mem_cons_self
      have noDigit : d.isDigit = false := by
        rw [Bool.eq_false_iff]
        intro digit
        rw [Scan.isIdentifierStart_of_isDigit digit] at first
        cases first
      refine ⟨by rintro _ ⟨⟩; rfl, ?_, rfl⟩
      simp [Segment.chars, split, Scan.fractionChars, noDigit]

theorem scannable_segment {s : Segment} (h : s.Valid) (parted : Parted rest)
    (ends : s.isNumber = true → Scan.EndsWhole rest) : Scannable s.words rest := by
  have bracket {p : String} {d : Char} (hp : p ∈ ["[", "]"]) (split : p.toList = [d])
      {rest : List Char} : Scans (.punctuator p, [d]) rest := by
    simp only [List.mem_cons, List.not_mem_nil, or_false] at hp
    rcases hp with rfl | rfl <;>
      exact scans_punct split (punctuates_bracket (by decide)) (by decide) (by decide)
  have dot {rest : List Char} : Scans (.punctuator ".", ['.']) rest :=
    scans_punct rfl punctuates_dot (by decide) (by decide)
  cases s with
  | name s => exact ⟨dot, scans_name h parted, trivial⟩
  | number n => exact ⟨dot, scans_whole n (ends rfl), trivial⟩
  | index n =>
    exact ⟨bracket (by decide) rfl, scans_whole n endsWhole_bracket, bracket (by decide) rfl,
      trivial⟩
  | key k => exact ⟨bracket (by decide) rfl, scans_quoted h, bracket (by decide) rfl, trivial⟩

theorem wordsChars_segments (segments : List Segment) :
    wordsChars (segments.flatMap Segment.words) = segments.flatMap Segment.chars := by
  induction segments with
  | nil => rfl
  | cons s segments ih =>
    rw [List.flatMap_cons, List.flatMap_cons, wordsChars, List.flatMap_append, ← wordsChars,
      ← wordsChars, ih, s.wordsChars_words]

theorem scannable_segments (valid : ∀ s ∈ segments, s.Valid) (apart : Apart segments) :
    Scannable (segments.flatMap Segment.words) [] := by
  induction segments with
  | nil => trivial
  | cons s segments ih =>
    obtain ⟨first, others⟩ := List.forall_mem_cons.1 valid
    have own : Scannable s.words (wordsChars (segments.flatMap Segment.words) ++ []) := by
      rw [wordsChars_segments, List.append_nil]
      exact scannable_segment first (parted_segments segments) fun number =>
        endsWhole_segments number others apart
    exact own.append (ih others apart.tail)

/-- The words of a path. -/
def words (root : String) (segments : List Segment) : List Word :=
  (.identifier root, root.toList) :: segments.flatMap Segment.words

/-- The lexer reads a path as its words, up to the end of the text. -/
theorem cursor_written {root : String} (name : IsName root) (valid : ∀ s ∈ segments, s.Valid)
    (apart : Apart segments) (allowFilter : Bool) :
    ∃ t ts stop, Cursor.ofSource (written root segments) ⟨true, allowFilter⟩ =
        .ok ⟨t, ts ++ [stop], none⟩ ∧
      (t :: ts).map Token.word = words root segments ∧ stop.kind = .eof := by
  have scannable : Scannable (words root segments) [] := by
    refine ⟨?_, scannable_segments valid apart⟩
    rw [wordsChars_segments, List.append_nil, ← Scan.wordKind_eq_identifier name]
    exact scans_name name.1 (parted_segments segments)
  have chars : wordsChars (words root segments) ++ [] = written root segments := by
    rw [List.append_nil, words, wordsChars, List.flatMap_cons, ← wordsChars, wordsChars_segments]
    rfl
  obtain ⟨b, ts, l, pulls, words_eq, at_⟩ := scannable.pulls (.inl rfl)
    (by rw [chars]; exact ofSource_at (written root segments) allowFilter)
  obtain ⟨stop, l', next, ends⟩ := at_.next_eof (.inl rfl) rfl
  obtain ⟨tokens, failures⟩ := tokens_of_pulls (ofSource_ready _ _) pulls
  obtain ⟨last, fails⟩ := tokens_eof next ends
  cases ts with
  | nil => cases words_eq
  | cons t ts =>
    refine ⟨t, ts, stop, ?_, words_eq, ends⟩
    rw [Cursor.ofSource_eq, tokens, failures, last, fails]
    rfl

end Path

end TemplateFormula
