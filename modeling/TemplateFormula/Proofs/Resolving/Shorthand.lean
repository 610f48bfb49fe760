import TemplateFormula.Proofs.Lexing.Spots
import TemplateFormula.Proofs.Parsing.Enclosing
import TemplateFormula.Proofs.Resolving.Agreement

/-!
# Paths behind a dollar sign

A path behind a dollar sign in literal text is read as one token and taken apart without the parser
of expressions; in an island it is an expression like any other. Both stand for the same members,
unless the name of a variable in brackets is also a spelling of infinity or of no number, which the
shorthand takes for the number.
-/

namespace TemplateFormula

namespace DollarPath

/-- What may stand behind the name that a path starts with. -/
inductive Segment where
  /-- A name behind a dot. -/
  | name (s : String)
  /-- An index in brackets. -/
  | index (n : Nat)
  /-- The name of a variable in brackets. -/
  | key (s : String)

/-- Names of ASCII letters, digits and underscores, keywords among them. -/
def IsWord (s : String) : Prop :=
  ∃ c cs, s.toList = c :: cs ∧ (c.isAlpha = true ∨ c = '_') ∧
    ∀ d ∈ cs, d.isAlphanum = true ∨ d = '_'

/-- Words that are no keyword. -/
def IsName (s : String) : Prop :=
  IsWord s ∧ ∀ k ∈ Scan.keywords, Number.asciiLower s.toList ≠ k.1

/-- Words that spell a number. -/
def IsNumberWord (s : String) : Prop :=
  Number.asciiLower s.toList ∈
    [['i', 'n', 'f'], ['i', 'n', 'f', 'i', 'n', 'i', 't', 'y'], ['n', 'a', 'n']]

namespace Segment

def chars : Segment → List Char
  | name s => '.' :: s.toList
  | index n => '[' :: (Number.natChars n ++ [']'])
  | key s => '[' :: (s.toList ++ [']'])

def Valid : Segment → Prop
  | name s => IsWord s
  | index _ => True
  | key s => IsName s

/-- The key of a segment as an expression. -/
def expr : Segment → Expr
  | name s => .identifier s
  | index n => .number (Number.whole n)
  | key s => .variable s

/-- The key that the shorthand takes a segment for. -/
def lowered : Segment → Expr
  | key s => bracketKey s.toList
  | s => s.expr

/-- The segment is a variable whose name spells a number. -/
def IsNumber : Segment → Prop
  | key s => IsNumberWord s
  | _ => False

def words : Segment → List Word
  | name s => [(.punctuator ".", ['.']), (wordKind s, s.toList)]
  | index n =>
    [(.punctuator "[", ['[']), (.number (Number.whole n), Number.natChars n),
      (.punctuator "]", [']'])]
  | key s =>
    [(.punctuator "[", ['[']), (.identifier s, s.toList), (.punctuator "]", [']'])]

theorem words_ne_nil (s : Segment) : s.words ≠ [] := by
  cases s <;> exact List.cons_ne_nil _ _

end Segment

/-- The text of a path. -/
def written (root : String) (segments : List Segment) : List Char :=
  root.toList ++ segments.flatMap Segment.chars

/-- The members that a path stands for. -/
def members (root : String) (segments : List Segment) : Expr :=
  (segments.map Segment.expr).foldl .getter (.variable root)

variable {s : String} {c : Char} {cs rest current : List Char} {n : Nat} {segments : List Segment}
  {root : String}

section Characters

theorem isIdentifierPart_of_word (h : c.isAlphanum = true ∨ c = '_') :
    Scan.isIdentifierPart c = true := by
  rcases h with alnum | rfl
  · have low := Scan.ascii_of_isAlphanum alnum
    simp only [Char.isAlphanum, Bool.or_eq_true] at alnum
    simpa [Scan.isIdentifierPart, Text.isLetterOrNumeral, Text.isLetter, Text.isNumeral, if_pos low]
      using .inl alnum
  · rfl

theorem isIdentifierStart_of_word (h : c.isAlpha = true ∨ c = '_') :
    Scan.isIdentifierStart c = true := by
  rcases h with alpha | rfl
  · have low : c.toNat < 128 :=
      Scan.ascii_of_isAlphanum (by rw [Char.isAlphanum, alpha, Bool.true_or])
    simp [Scan.isIdentifierStart, Text.isLetter, if_pos low, alpha]
  · rfl

theorem word_of_first (h : c.isAlpha = true ∨ c = '_') : c.isAlphanum = true ∨ c = '_' :=
  h.imp_left fun alpha => by rw [Char.isAlphanum, alpha, Bool.true_or]

theorem IsWord.isWord (h : IsWord s) : Scan.IsWord s := by
  obtain ⟨d, ds, split, first, others⟩ := h
  exact ⟨d, ds, split, isIdentifierStart_of_word first,
    fun e member => isIdentifierPart_of_word (others e member)⟩

theorem IsName.isName (h : IsName s) : TemplateFormula.IsName s := ⟨h.1.isWord, h.2⟩

theorem IsWord.chars (h : IsWord s) : ∀ c ∈ s.toList, c.isAlphanum = true ∨ c = '_' := by
  obtain ⟨d, ds, split, first, others⟩ := h
  rw [split]
  exact List.forall_mem_cons.2 ⟨word_of_first first, others⟩

theorem IsWord.some (h : IsWord s) : s.toList ≠ [] := by
  obtain ⟨d, ds, split, -⟩ := h
  rw [split]
  exact List.cons_ne_nil _ _

theorem ne_of_word (h : c.isAlphanum = true ∨ c = '_') : c ≠ '.' ∧ c ≠ '[' ∧ c ≠ ']' := by
  refine ⟨?_, ?_, ?_⟩ <;>
    · rintro rfl
      revert h
      decide

theorem digits_word (n : Nat) : ∀ c ∈ Number.natChars n, c.isAlphanum = true ∨ c = '_' := by
  intro c member
  have digit := (Number.natChars_areDigits n).2 c member
  exact .inl (by rw [Char.isAlphanum, digit, Bool.or_true])

end Characters

/-! ### The keys that the shorthand finds -/

section Lowering

theorem scanKeys_plain (plain : Path.Plain cs) :
    scanKeys (cs.length + n) current (cs ++ rest) = scanKeys n (current ++ cs) rest := by
  induction cs generalizing current with
  | nil => rw [List.append_nil, List.length_nil, Nat.zero_add, List.nil_append]
  | cons c cs ih =>
    obtain ⟨dot, bracket⟩ := plain c List.mem_cons_self
    have step : scanKeys (cs.length + n + 1) current (c :: (cs ++ rest)) =
        scanKeys (cs.length + n) (current ++ [c]) (cs ++ rest) := by
      rw [scanKeys.eq_def]
      split <;> simp_all
    rw [List.length_cons, Nat.add_right_comm, List.cons_append, step,
      ih fun d member => plain d (List.mem_cons_of_mem _ member), List.append_assoc,
      List.singleton_append]

theorem plain_of_word (word : ∀ c ∈ cs, c.isAlphanum = true ∨ c = '_') : Path.Plain cs :=
  fun c member => ⟨(ne_of_word (word c member)).1, (ne_of_word (word c member)).2.1⟩

theorem flush_word (some_ : s.toList ≠ []) : flush s.toList = [.identifier s] := by
  rw [flush, if_neg (by rwa [List.isEmpty_iff]), String.ofList_toList]

/-- In brackets a key goes on up to the closing one. -/
theorem scanKeys_bracket (word : ∀ c ∈ cs, c.isAlphanum = true ∨ c = '_') :
    scanKeys (n + 1) current ('[' :: (cs ++ ']' :: rest)) =
      flush current ++ bracketKey cs :: scanKeys n [] rest := by
  have inner : ∀ c ∈ cs, (c != ']') = true := fun c member =>
    bne_iff_ne.2 (ne_of_word (word c member)).2.2
  have key : (cs ++ ']' :: rest).takeWhile (· != ']') = cs := by
    rw [List.takeWhile_append_of_pos inner]
    exact List.append_nil cs
  have behind : (cs ++ ']' :: rest).dropWhile (· != ']') = ']' :: rest := by
    rw [List.dropWhile_append_of_pos inner]
    rfl
  change flush current ++ bracketKey ((cs ++ ']' :: rest).takeWhile (· != ']')) ::
    scanKeys n [] (((cs ++ ']' :: rest).dropWhile (· != ']')).drop 1) = _
  rw [key, behind]
  rfl

theorem bracketKey_digits (n : Nat) :
    bracketKey (Number.natChars n) = .number (Number.whole n) := by
  rw [bracketKey, Number.parse?_natChars]

/-- The keys of segments behind a name that is being read. -/
theorem scanKeys_segments (valid : ∀ s ∈ segments, s.Valid)
    (enough : (segments.flatMap Segment.chars).length ≤ n) :
    scanKeys n current (segments.flatMap Segment.chars) =
      flush current ++ segments.map Segment.lowered := by
  induction segments generalizing n current with
  | nil =>
    rw [List.flatMap_nil, List.map_nil, List.append_nil]
    cases n <;> rfl
  | cons s segments ih =>
    obtain ⟨first, others⟩ := List.forall_mem_cons.1 valid
    rw [List.flatMap_cons, List.length_append] at enough
    rw [List.flatMap_cons, List.map_cons]
    cases s with
    | name s =>
      have first : IsWord s := first
      rw [Segment.chars, List.length_cons] at enough
      obtain ⟨m, rfl⟩ : ∃ m, n = s.toList.length + m + 1 :=
        ⟨n - s.toList.length - 1, by omega⟩
      have step : scanKeys (s.toList.length + m + 1) current
          ('.' :: (s.toList ++ segments.flatMap Segment.chars)) =
        flush current ++ scanKeys (s.toList.length + m) []
          (s.toList ++ segments.flatMap Segment.chars) := rfl
      rw [Segment.chars, List.cons_append, step, scanKeys_plain (plain_of_word first.chars),
        List.nil_append, ih others (by omega), flush_word first.some]
      rfl
    | index k =>
      rw [Segment.chars, List.length_cons] at enough
      obtain ⟨m, rfl⟩ : ∃ m, n = m + 1 := ⟨n - 1, by omega⟩
      rw [Segment.chars, List.cons_append, List.append_assoc, List.singleton_append,
        scanKeys_bracket (digits_word k), bracketKey_digits, ih others (by omega)]
      rfl
    | key s =>
      have first : IsName s := first
      rw [Segment.chars, List.length_cons] at enough
      obtain ⟨m, rfl⟩ : ∃ m, n = m + 1 := ⟨n - 1, by omega⟩
      rw [Segment.chars, List.cons_append, List.append_assoc, List.singleton_append,
        scanKeys_bracket first.1.chars, ih others (by omega)]
      rfl

/-- The members that the shorthand takes a path for. -/
theorem expand_written (word : IsWord root) (valid : ∀ s ∈ segments, s.Valid) :
    expand (String.ofList (written root segments)) =
      (segments.map Segment.lowered).foldl .getter (.variable root) := by
  have keys : scanKeys (written root segments).length [] (written root segments) =
      .identifier root :: segments.map Segment.lowered := by
    rw [written, List.length_append, scanKeys_plain (plain_of_word word.chars), List.nil_append,
      scanKeys_segments valid (Nat.le_refl _), flush_word word.some]
    rfl
  rw [expand, String.toList_ofList, keys]

/-- A word is read as a number if it spells one. -/
theorem parse?_word (word : IsWord s) : Number.parse? s.toList = none ↔ ¬ IsNumberWord s := by
  obtain ⟨c, cs, split, first, -⟩ := word
  have other (d : Char) (h : ¬ (d.isAlpha = true ∨ d = '_')) : c ≠ d := by
    rintro rfl
    exact h first
  have digit : ¬ c.isDigit = true := by
    intro digit
    have start := Scan.isIdentifierStart_of_isDigit digit
    rw [isIdentifierStart_of_word first] at start
    cases start
  have unsigned : Number.takeSign (c :: cs) = (false, c :: cs) := by
    have minus := other '-' (by decide)
    have plus := other '+' (by decide)
    rw [Number.takeSign.eq_def]
    split <;> simp_all
  have point : Number.takeFraction (c :: cs) = ([], c :: cs) := by
    have point := other '.' (by decide)
    rw [Number.takeFraction.eq_def]
    split <;> simp_all
  have span : (c :: cs).span Char.isDigit = ([], c :: cs) := by
    rw [List.span_eq_takeWhile_dropWhile, List.takeWhile_cons_of_neg digit,
      List.dropWhile_cons_of_neg digit]
  have decimal : Number.takeDecimal? (c :: cs) = none := by
    rw [Number.takeDecimal?, span]
    dsimp only
    rw [point]
    rfl
  rw [IsNumberWord, split, Number.parse?, unsigned]
  simp only [decimal, List.mem_cons, List.not_mem_nil, or_false]
  split
  · next h => exact iff_of_false (Option.some_ne_none _) fun other => other (h.imp_right .inl)
  · next no =>
    split
    · next h => exact iff_of_false (Option.some_ne_none _) fun other => other (.inr (.inr h))
    · next no' =>
      refine iff_of_true rfl ?_
      rintro (h | h | h)
      · exact no (.inl h)
      · exact no (.inr h)
      · exact no' h

theorem lowered_eq_iff {s : Segment} (valid : s.Valid) : s.lowered = s.expr ↔ ¬ s.IsNumber := by
  cases s with
  | name s | index n => exact iff_of_true rfl id
  | key s =>
    have valid : IsName s := valid
    refine Iff.trans ?_ (parse?_word valid.1)
    change bracketKey s.toList = .variable s ↔ _
    rw [bracketKey]
    cases Number.parse? s.toList with
    | none => exact iff_of_true (by rw [String.ofList_toList]) rfl
    | some x => exact iff_of_false Expr.noConfusion (Option.some_ne_none x)

/-- Chains of as many members are the same if their keys are. -/
theorem getters_inj {a b : Expr} {ks js : List Expr} (length : ks.length = js.length)
    (same : ks.foldl .getter a = js.foldl .getter b) : a = b ∧ ks = js := by
  induction ks generalizing js a b with
  | nil =>
    obtain rfl := List.length_eq_zero_iff.1 length.symm
    exact ⟨same, rfl⟩
  | cons k ks ih =>
    cases js with
    | nil => cases length
    | cons j js =>
      obtain ⟨step, rfl⟩ := ih (Nat.succ.inj length) same
      obtain ⟨rfl, rfl⟩ := Expr.getter.inj step
      exact ⟨rfl, rfl⟩

/-- The shorthand stands for the members of its path unless it takes a variable for a number. -/
theorem expand_eq_members_iff (word : IsWord root) (valid : ∀ s ∈ segments, s.Valid) :
    expand (String.ofList (written root segments)) = members root segments ↔
      ∀ s ∈ segments, ¬ s.IsNumber := by
  rw [expand_written word valid, members]
  constructor
  · intro same s member
    obtain ⟨-, keys⟩ := getters_inj (by rw [List.length_map, List.length_map]) same
    exact (lowered_eq_iff (valid s member)).1 (List.map_inj_left.1 keys s member)
  · intro plain
    have keys : segments.map Segment.lowered = segments.map Segment.expr :=
      List.map_inj_left.2 fun s member => (lowered_eq_iff (valid s member)).2 (plain s member)
    rw [keys]

end Lowering

/-! ### The words of both forms -/

section Words

open Lexer

variable {allow b : Bool} {ms : List Mode}

theorem isPathPart_of_word (h : c.isAlphanum = true ∨ c = '_') : Scan.isPathPart c = true := by
  rcases h with alnum | rfl
  · simp [Scan.isPathPart, Scan.isPathStart, alnum]
  · rfl

theorem Segment.chars_parts {s : Segment} (valid : s.Valid) :
    ∀ c ∈ s.chars, Scan.isPathPart c = true := by
  have bracketed {cs : List Char} (word : ∀ c ∈ cs, c.isAlphanum = true ∨ c = '_') :
      ∀ c ∈ '[' :: (cs ++ [']']), Scan.isPathPart c = true := by
    refine List.forall_mem_cons.2 ⟨rfl, List.forall_mem_append.2 ⟨fun c member => ?_, ?_⟩⟩
    · exact isPathPart_of_word (word c member)
    · exact List.forall_mem_singleton.2 rfl
  cases s with
  | name s =>
    have valid : IsWord s := valid
    exact List.forall_mem_cons.2 ⟨rfl, fun c member => isPathPart_of_word (valid.chars c member)⟩
  | index n => exact bracketed (digits_word n)
  | key s =>
    have valid : IsName s := valid
    exact bracketed valid.1.chars

/-- The text does not end in a dot. -/
def EndsWhole (cs : List Char) : Prop := ∃ us c, cs = us ++ [c] ∧ c ≠ '.'

theorem EndsWhole.append (h : EndsWhole rest) (cs : List Char) : EndsWhole (cs ++ rest) := by
  obtain ⟨us, c, rfl, other⟩ := h
  exact ⟨cs ++ us, c, (List.append_assoc cs us [c]).symm, other⟩

theorem IsWord.endsWhole (h : IsWord s) : EndsWhole s.toList :=
  ⟨_, _, (List.dropLast_concat_getLast h.some).symm,
    (ne_of_word (h.chars _ (List.getLast_mem h.some))).1⟩

theorem Segment.endsWhole {s : Segment} (valid : s.Valid) : EndsWhole s.chars := by
  have closing : EndsWhole [']'] := ⟨[], ']', rfl, by decide⟩
  cases s with
  | name s =>
    have valid : IsWord s := valid
    exact valid.endsWhole.append ['.']
  | index n => exact closing.append ('[' :: Number.natChars n)
  | key s => exact closing.append ('[' :: s.toList)

theorem endsWhole_written (word : IsWord root) (valid : ∀ s ∈ segments, s.Valid) :
    EndsWhole (written root segments) := by
  rcases List.eq_nil_or_concat' segments with rfl | ⟨us, s, rfl⟩
  · rw [written, List.flatMap_nil, List.append_nil]
    exact word.endsWhole
  · have last := valid s (List.mem_append_right us List.mem_cons_self)
    rw [written, List.flatMap_append, List.flatMap_singleton, ← List.append_assoc]
    exact (Segment.endsWhole last).append _

/-- All of a path belongs to it. -/
theorem dollarPath_written (word : IsWord root) (valid : ∀ s ∈ segments, s.Valid) :
    Scan.dollarPath (written root segments) = written root segments := by
  have parts : ∀ c ∈ written root segments, Scan.isPathPart c = true := by
    refine List.forall_mem_append.2 ⟨fun c member => isPathPart_of_word (word.chars c member), ?_⟩
    intro c member
    obtain ⟨s, among, member⟩ := List.mem_flatMap.1 member
    exact Segment.chars_parts (valid s among) c member
  have starts : (written root segments).head?.any Scan.isPathStart = true := by
    obtain ⟨d, ds, split, first, -⟩ := word
    rw [written, split, List.cons_append, List.head?_cons, Option.any_some]
    rcases word_of_first first with alnum | rfl
    · simp [Scan.isPathStart, alnum]
    · rfl
  obtain ⟨us, c, whole, other⟩ := endsWhole_written word valid
  have kept : ¬ (c == '.') = true := by rwa [beq_iff_eq]
  rw [Scan.dollarPath, if_pos starts, List.takeWhile_eq_self_iff.2 parts, whole,
    List.reverse_append, List.reverse_singleton, List.singleton_append,
    List.dropWhile_cons_of_neg (p := (· == '.')) kept, List.reverse_cons, List.reverse_reverse]

/-- Another segment, a closing bracket or a closing brace. -/
def Parted (rest : List Char) : Prop :=
  ∀ c ∈ rest.head?, c = '.' ∨ c = '[' ∨ c = ']' ∨ c = '\x7d'

theorem leads_word (word : IsWord s) (parted : Parted rest) :
    Leads allow ⟨.script :: ms, b, s.toList ++ rest⟩ [(wordKind s, s.toList)]
      ⟨.script :: ms, true, rest⟩ := by
  obtain ⟨d, ds, split, first, -⟩ := id word
  have inked := isSpace_of_isIdentifierStart (isIdentifierStart_of_word first)
  have ahead : Spot.ahead ⟨.script :: ms, b, s.toList ++ rest⟩ = s.toList ++ rest := by
    rw [split]
    exact Spot.ahead_inked rfl inked
  refine leads_name word.isWord inside_script ahead fun c head => ?_
  rcases parted c head with rfl | rfl | rfl | rfl <;> exact ⟨rfl, by decide⟩

theorem leads_dot : Leads allow ⟨.script :: ms, b, '.' :: rest⟩ [(.punctuator ".", ['.'])]
    ⟨.script :: ms, false, rest⟩ :=
  leads_plain (p := ".") ⟨by decide, by decide, by decide⟩ inside_script
    (Spot.ahead_inked rfl rfl) (.of_punctuates Path.punctuates_dot b)

theorem leads_openBracket :
    Leads allow ⟨.script :: ms, b, '[' :: rest⟩ [(.punctuator "[", ['['])]
      ⟨.script :: ms, false, rest⟩ :=
  leads_plain (p := "[") ⟨by decide, by decide, by decide⟩ inside_script
    (Spot.ahead_inked rfl rfl) (.of_punctuates (punctuates_bracket (by decide)) b)

theorem leads_closeBracket :
    Leads allow ⟨.script :: ms, b, ']' :: rest⟩ [(.punctuator "]", [']'])]
      ⟨.script :: ms, true, rest⟩ :=
  leads_plain (p := "]") ⟨by decide, by decide, by decide⟩ inside_script
    (Spot.ahead_inked rfl rfl) (.of_punctuates (punctuates_bracket (by decide)) b)

theorem leads_index (n : Nat) :
    Leads allow ⟨.script :: ms, b, Number.natChars n ++ ']' :: rest⟩
      [(.number (Number.whole n), Number.natChars n)] ⟨.script :: ms, true, ']' :: rest⟩ := by
  have digits := Number.natChars_areDigits n
  have ends : Scan.EndsWhole (']' :: rest) := Path.endsWhole_bracket
  have found := Scan.number?_natChars (n := n) b ends
  obtain ⟨d, ds, split⟩ := List.exists_cons_of_ne_nil digits.1
  have digit := digits.2 d (by rw [split]; exact List.mem_cons_self)
  rw [split] at found ⊢
  exact leads_numeral inside_script (Spot.ahead_inked rfl (isSpace_of_isDigit digit))
    (Scan.isIdentifierStart_of_isDigit digit) found

/-- A segment is read as its words. -/
theorem leads_segment {s : Segment} (valid : s.Valid) (parted : Parted rest) :
    Leads allow ⟨.script :: ms, b, s.chars ++ rest⟩ s.words ⟨.script :: ms, true, rest⟩ := by
  have closing : Parted (']' :: rest) := by
    rintro c ⟨⟩
    exact .inr (.inr (.inl rfl))
  cases s with
  | name s => exact leads_dot.cons (leads_word valid parted)
  | index n =>
    rw [Segment.chars, List.cons_append, List.append_assoc, List.singleton_append]
    exact leads_openBracket.cons ((leads_index n).cons leads_closeBracket)
  | key s =>
    have valid : IsName s := valid
    have inner : Leads allow ⟨.script :: ms, false, s.toList ++ ']' :: rest⟩
        [(wordKind s, s.toList)] ⟨.script :: ms, true, ']' :: rest⟩ := leads_word valid.1 closing
    rw [Scan.wordKind_eq_identifier valid.isName] at inner
    rw [Segment.chars, List.cons_append, List.append_assoc, List.singleton_append]
    exact leads_openBracket.cons (inner.cons leads_closeBracket)

theorem parted_segments (parted : Parted rest) (segments : List Segment) :
    Parted (segments.flatMap Segment.chars ++ rest) := by
  cases segments with
  | nil => exact parted
  | cons s segments =>
    rintro c head
    cases s <;> cases head <;> simp

theorem leads_segments (valid : ∀ s ∈ segments, s.Valid) (parted : Parted rest) :
    Leads allow ⟨.script :: ms, true, segments.flatMap Segment.chars ++ rest⟩
      (segments.flatMap Segment.words) ⟨.script :: ms, true, rest⟩ := by
  induction segments with
  | nil => exact .refl _
  | cons s segments ih =>
    obtain ⟨first, others⟩ := List.forall_mem_cons.1 valid
    rw [List.flatMap_cons, List.flatMap_cons, List.append_assoc]
    exact (leads_segment first (parted_segments parted segments)).trans (ih others)

/-- The text of a path as an island. -/
def island (root : String) (segments : List Segment) : List Char :=
  Lexer.island (written root segments)

/-- The text of a path behind a dollar sign. -/
def shorthand (root : String) (segments : List Segment) : List Char :=
  '$' :: written root segments

/-- A path in an island is read as its words, in braces. -/
theorem leads_island (name : IsName root) (valid : ∀ s ∈ segments, s.Valid) (allow : Bool) :
    Leads allow ⟨baseModes false, false, island root segments⟩
      ((.openIsland, ['$', '\x7b']) :: (.identifier root, root.toList) ::
        (segments.flatMap Segment.words ++ [(.closeIsland, ['\x7d'])]))
      ⟨baseModes false, false, []⟩ := by
  have closing : Parted ['\x7d'] := by
    rintro c ⟨⟩
    exact .inr (.inr (.inr rfl))
  have first : Leads allow
      ⟨.script :: baseModes false, false,
        root.toList ++ (segments.flatMap Segment.chars ++ ['\x7d'])⟩
      [(wordKind root, root.toList)]
      ⟨.script :: baseModes false, true, segments.flatMap Segment.chars ++ ['\x7d']⟩ :=
    leads_word name.1 (parted_segments closing segments)
  rw [Scan.wordKind_eq_identifier name.isName, ← List.append_assoc] at first
  have last : Leads allow ⟨.script :: baseModes false, true, ['\x7d']⟩
      [(.closeIsland, ['\x7d'])] ⟨baseModes false, false, []⟩ := leads_close (.inl rfl) rfl
  exact leads_open.cons (first.cons ((leads_segments valid closing).trans last))

/-- A path behind a dollar sign is one word. -/
theorem leads_shorthand (word : IsWord root) (valid : ∀ s ∈ segments, s.Valid) :
    Leads allow ⟨baseModes false, false, shorthand root segments⟩
      [(.variable (String.ofList (written root segments)), shorthand root segments)]
      ⟨baseModes false, false, []⟩ := by
  have first : ∃ d ds, written root segments = d :: ds ∧ (d.isAlphanum = true ∨ d = '_') := by
    obtain ⟨d, ds, split, first, -⟩ := id word
    exact ⟨d, ds ++ segments.flatMap Segment.chars, by rw [written, split, List.cons_append],
      word_of_first first⟩
  obtain ⟨d, ds, split, starts⟩ := first
  have other (e : Char) (h : ¬ (e.isAlphanum = true ∨ e = '_')) :
      (written root segments).head? ≠ some e := by
    rw [split, List.head?_cons]
    rintro ⟨⟩
    exact h starts
  refine leads_dollar (other _ (by decide)) (other _ (by decide)) ?_ (dollarPath_written word valid)
  rw [split]
  exact List.cons_ne_nil _ _

end Words

end DollarPath

namespace Parser

section Paths

open TemplateFormula.DollarPath (Segment)

variable {stop brace : Token} {names : List String} {d n : Nat} {host : Expr} {us : List Token}
  {segments : List Segment}

theorem membersOf_shorthand {vs : List Token} (s : Segment) (words : vs.map Token.word = s.words) :
    membersOf (nestedGoal names (d + 1)) (n + 1) host (ahead stop (vs ++ us)) =
      membersOf (nestedGoal names (d + 1)) n (.getter host s.expr) (ahead stop us) := by
  cases s with
  | name s => exact membersOf_segment (.name s) words
  | index k => exact membersOf_segment (.index k) words
  | key s =>
    obtain ⟨r, p, q, r', p', q', r'', p'', q'', rfl⟩ := tokens_bracketed words
    cases us <;> rfl

theorem membersOf_closed (words : us.map Token.word = segments.flatMap Segment.words)
    (closes : brace.kind = .closeIsland) (enough : segments.length < n) :
    membersOf (nestedGoal names (d + 1)) n host (ahead stop (us ++ [brace])) =
      .ok ((segments.map Segment.expr).foldl .getter host, ahead stop [brace]) := by
  have halts (host : Expr) (n : Nat) :
      membersOf (nestedGoal names (d + 1)) (n + 1) host (ahead stop [brace]) =
        .ok (host, ahead stop [brace]) := by
    obtain ⟨k, r, p, q⟩ := brace
    obtain rfl : k = .closeIsland := closes
    rfl
  exact membersOf_row (fun s _ _ _ _ => membersOf_shorthand s) halts words enough

/-- In front of a segment or the end of an island a name is a variable. -/
theorem operandHead_root {root : String} {r : Option String} {p q : Position}
    (words : us.map Token.word = segments.flatMap Segment.words)
    (closes : brace.kind = .closeIsland) :
    operandHead names (nestedGoal names (d + 1))
        (ahead stop (⟨.identifier root, r, p, q⟩ :: (us ++ [brace]))) =
      .ok (some (.variable root), ahead stop (us ++ [brace])) := by
  cases segments with
  | nil =>
    obtain rfl := List.map_eq_nil_iff.1 words
    obtain ⟨k, r, p, q⟩ := brace
    obtain rfl : k = .closeIsland := closes
    rfl
  | cons s segments =>
    rw [List.flatMap_cons] at words
    cases s <;>
      · obtain ⟨r, p, q, vs, rfl, -, -⟩ := tokens_cons words
        rfl

theorem expression_path {root : String} {r : Option String} {p q : Position}
    (words : us.map Token.word = segments.flatMap Segment.words)
    (closes : brace.kind = .closeIsland) :
    nestedGoal names (d + 2) .expression
        (ahead stop (⟨.identifier root, r, p, q⟩ :: (us ++ [brace]))) =
      .ok (some (DollarPath.members root segments), ahead stop [brace]) := by
  have enough : segments.length < (us ++ [brace] ++ [stop]).length := by
    have length := congrArg List.length words
    have short := length_row Segment.words_ne_nil segments
    rw [List.length_map] at length
    simp only [List.length_append, List.length_singleton]
    omega
  have host : operand names (nestedGoal names (d + 1))
      (ahead stop (⟨.identifier root, r, p, q⟩ :: (us ++ [brace]))) =
        .ok (some (DollarPath.members root segments), ahead stop [brace]) :=
    (bind_of_ok (operandHead_root words closes)).trans
      ((bind_of_ok (remaining_ahead _ _)).trans
        (bind_of_ok (membersOf_closed words closes enough)))
  refine conditional_operand (fun s => TokenKind.noConfusion) host ?_ ?_
  · change binaryOp? brace.kind = none
    rw [closes]
    rfl
  · change brace.kind.isPunctuator "?" = false
    rw [closes]
    rfl

/-- The tokens of a path in an island. -/
theorem cursor_island {root : String} (name : DollarPath.IsName root)
    (valid : ∀ s ∈ segments, s.Valid) (allow : Bool) :
    ∃ opening r p q us brace stop,
      Cursor.ofSource (DollarPath.island root segments) ⟨false, allow⟩ =
        .ok ⟨opening, ⟨.identifier root, r, p, q⟩ :: (us ++ [brace] ++ [stop]), none⟩ ∧
      opening.kind = .openIsland ∧ us.map Token.word = segments.flatMap Segment.words ∧
      brace.kind = .closeIsland ∧ stop.kind = .eof := by
  obtain ⟨t, ts, stop, read, words, ends⟩ := (DollarPath.leads_island name valid allow).cursor
  obtain ⟨opens, more⟩ := List.cons.inj words
  obtain ⟨r, p, q, vs, rfl, -, more⟩ := tokens_cons more
  obtain ⟨us, ws, rfl, inner, last⟩ := List.map_eq_append_iff.1 more
  obtain ⟨r', p', q', vs, rfl, -, none_⟩ := tokens_cons last
  obtain rfl := List.map_eq_nil_iff.1 none_
  exact ⟨t, r, p, q, us, _, stop, read, congrArg Prod.fst opens, inner, rfl, ends⟩

/-- A path in an island is parsed as the members that it stands for. -/
theorem parse_island_path {root : String} (name : DollarPath.IsName root)
    (valid : ∀ s ∈ segments, s.Valid) (allow : Bool) (names : List String) (d : Nat) :
    parse (String.ofList (DollarPath.island root segments)) ⟨.template, allow, names, d + 2⟩ =
      .ok (.document [.island (DollarPath.members root segments)]) := by
  obtain ⟨opening, r, p, q, us, brace, stop, read, opens, words, closes, ends⟩ :=
    cursor_island name valid allow
  have inside : nestedGoal names (d + 2) .expression
      (ahead stop (⟨.identifier root, r, p, q⟩ :: (us ++ [brace]))) =
        .ok (some (DollarPath.members root segments), ahead stop [brace]) :=
    expression_path words closes
  refine parse_enclosed (c := ahead stop (⟨.identifier root, r, p, q⟩ :: (us ++ [brace]))) rfl ?_
    rfl opens closes ends fun n => contents_of_expression inside closes n
  rw [String.toList_ofList]
  exact read

/-- A path behind a dollar sign is parsed as the members that its keys are taken for. -/
theorem parse_dollar_path {root : String} (word : DollarPath.IsWord root)
    (valid : ∀ s ∈ segments, s.Valid) (allow : Bool) (names : List String) (d : Nat) :
    parse (String.ofList (DollarPath.shorthand root segments)) ⟨.template, allow, names, d⟩ =
      .ok (.document [.island
        (DollarPath.expand (String.ofList (DollarPath.written root segments)))]) := by
  obtain ⟨t, ts, stop, read, words, ends⟩ := (DollarPath.leads_shorthand word valid).cursor
  obtain ⟨r, p, q, vs, same, -, none_⟩ := tokens_cons words
  obtain ⟨rfl, rfl⟩ := List.cons.inj same
  obtain rfl := List.map_eq_nil_iff.1 none_
  obtain ⟨k, r', p', q'⟩ := stop
  obtain rfl : k = .eof := ends
  have lexer : ParseOptions.lexer ⟨.template, allow, names, d⟩ = ⟨false, allow⟩ := rfl
  rw [parse, String.toList_ofList, lexer, read]
  rfl

/-- Behind a dollar sign and in an island a path is parsed as the same members, unless the name of
a variable in brackets spells a number. -/
theorem parse_shorthand {root : String} (name : DollarPath.IsName root)
    (valid : ∀ s ∈ segments, s.Valid) (allow : Bool) (names : List String) (d : Nat) :
    parse (String.ofList (DollarPath.island root segments)) ⟨.template, allow, names, d + 2⟩ =
        .ok (.document [.island (DollarPath.members root segments)]) ∧
      (parse (String.ofList (DollarPath.shorthand root segments))
          ⟨.template, allow, names, d + 2⟩ =
        parse (String.ofList (DollarPath.island root segments)) ⟨.template, allow, names, d + 2⟩ ↔
          ∀ s ∈ segments, ¬ s.IsNumber) := by
  refine ⟨parse_island_path name valid allow names d, ?_⟩
  rw [parse_island_path name valid allow names d, parse_dollar_path name.1 valid,
    ← DollarPath.expand_eq_members_iff name.1 valid]
  simp only [Except.ok.injEq, Expr.document.injEq, List.cons.injEq, and_true, Expr.island.injEq]

/-- Segments of every kind. -/
def listed : List Segment := [.index 0, .name "true", .key "k"]

theorem parse_shorthand_listed :
    DollarPath.IsName "list" ∧ (∀ s ∈ listed, s.Valid) ∧
      parse "$\x7blist[0].true[k]\x7d" .template =
        .ok (.document [.island (DollarPath.members "list" listed)]) ∧
      parse "$list[0].true[k]" .template = parse "$\x7blist[0].true[k]\x7d" .template := by
  have name : DollarPath.IsName "list" := by
    refine ⟨⟨'l', ['i', 's', 't'], rfl, .inl rfl, ?_⟩, by decide⟩
    simp only [List.forall_mem_cons]
    exact ⟨.inl rfl, .inl rfl, .inl rfl, by simp⟩
  have word : DollarPath.IsWord "true" := by
    refine ⟨'t', ['r', 'u', 'e'], rfl, .inl rfl, ?_⟩
    simp only [List.forall_mem_cons]
    exact ⟨.inl rfl, .inl rfl, .inl rfl, by simp⟩
  have key : DollarPath.IsName "k" := ⟨⟨'k', [], rfl, .inl rfl, by simp⟩, by decide⟩
  have valid : ∀ s ∈ listed, s.Valid := by
    simp only [listed, List.forall_mem_cons]
    exact ⟨trivial, word, key, by simp⟩
  have other : ¬ DollarPath.IsNumberWord "k" := by
    unfold DollarPath.IsNumberWord
    decide
  have plain : ∀ s ∈ listed, ¬ s.IsNumber := by
    simp only [listed, List.forall_mem_cons]
    exact ⟨id, id, other, by simp⟩
  obtain ⟨inside, same⟩ := parse_shorthand name valid true ParseOptions.usualNamespaces 62
  exact ⟨name, valid, inside, same.2 plain⟩

/-- The variable `nan` in brackets is a number to the shorthand only. -/
theorem parse_shorthand_nan :
    parse "$a[nan]" .template =
        .ok (.document [.island (.getter (.variable "a") (.number Number.nan))]) ∧
      parse "$\x7ba[nan]\x7d" .template =
        .ok (.document [.island (.getter (.variable "a") (.variable "nan"))]) ∧
      parse "$a[nan]" .template ≠ parse "$\x7ba[nan]\x7d" .template := by
  have name : DollarPath.IsName "a" := ⟨⟨'a', [], rfl, .inl rfl, by simp⟩, by decide⟩
  have key : DollarPath.IsName "nan" := by
    refine ⟨⟨'n', ['a', 'n'], rfl, .inl rfl, ?_⟩, by decide⟩
    simp only [List.forall_mem_cons]
    exact ⟨.inl rfl, .inl rfl, by simp⟩
  have valid : ∀ s ∈ [Segment.key "nan"], s.Valid := List.forall_mem_singleton.2 key
  have outside := parse_dollar_path name.1 valid true ParseOptions.usualNamespaces 64
  rw [DollarPath.expand_written name.1 valid] at outside
  have inside := parse_island_path name valid true ParseOptions.usualNamespaces 62
  refine ⟨outside, inside, fun same => ?_⟩
  have same := outside.symm.trans (same.trans inside)
  cases same

end Paths

end Parser

end TemplateFormula
