import TemplateFormula.Proofs.Lexing.Enclosing
import TemplateFormula.Proofs.Printing.Lexing

/-!
# Embedded texts

Any text can be written as literal text, as a backtick template or as a literal in quotes, with a
backslash in front of the characters that mean something there. The scanner of each form stops where
the text ends, and decoding what it has passed gives the text; so the lexer reads each form as the
text again.
-/

namespace TemplateFormula

namespace Text

/-- The text with a backslash in front of certain characters. -/
def guarded (marks cs : List Char) : List Char :=
  cs.flatMap fun c => if c ∈ marks then ['\\', c] else [c]

variable {marks : List Char} {c : Char}

@[simp] theorem guarded_nil (marks : List Char) : guarded marks [] = [] := rfl

theorem guarded_mark (h : c ∈ marks) (cs : List Char) :
    guarded marks (c :: cs) = '\\' :: c :: guarded marks cs := by
  simp only [guarded, List.flatMap_cons, if_pos h, List.cons_append, List.nil_append]

theorem guarded_plain (h : c ∉ marks) (cs : List Char) :
    guarded marks (c :: cs) = c :: guarded marks cs := by
  simp only [guarded, List.flatMap_cons, if_neg h, List.cons_append, List.nil_append]

theorem guarded_eq_self {marks cs : List Char} (h : ∀ c ∈ cs, c ∉ marks) :
    guarded marks cs = cs := by
  induction cs with
  | nil => rfl
  | cons c cs ih =>
    obtain ⟨first, others⟩ := List.forall_mem_cons.1 h
    rw [guarded_plain first, ih others]

theorem length_guarded_pos (marks : List Char) {cs : List Char} (h : cs ≠ []) :
    0 < (guarded marks cs).length := by
  cases cs with
  | nil => exact absurd rfl h
  | cons c cs =>
    by_cases hc : c ∈ marks
    · rw [guarded_mark hc]
      exact Nat.succ_pos _
    · rw [guarded_plain hc]
      exact Nat.succ_pos _

/-- Marks that stand for themselves behind a backslash, the backslash among them. -/
structure Marks (marks : List Char) : Prop where
  backslash : '\\' ∈ marks
  quotable : ∀ c ∈ marks, isQuotable c = true

theorem unescape_guarded (h : Marks marks) (cs : List Char) : unescape (guarded marks cs) = cs := by
  induction cs with
  | nil => exact unescape_nil
  | cons c cs ih =>
    by_cases hc : c ∈ marks
    · have quotable := h.quotable c hc
      have hu : c ≠ 'u' := by
        rintro rfl
        exact absurd quotable (by decide)
      rw [guarded_mark hc, unescape_escaped hu, escapeImage, if_pos quotable, ih]
      rfl
    · have hslash : c ≠ '\\' := by
        rintro rfl
        exact hc h.backslash
      rw [guarded_plain hc, unescape_plain hslash, ih]

theorem marks_quote {q : Char} (h : q = '"' ∨ q = '\'') : Marks ['\\', q] := by
  rcases h with rfl | rfl <;> exact ⟨List.mem_cons_self, by simp [isQuotable]⟩

theorem marks_raw : Marks ['\\', '$'] := ⟨List.mem_cons_self, by simp [isQuotable]⟩

theorem marks_template : Marks ['\\', '\x60', '$'] :=
  ⟨List.mem_cons_self, by simp [isQuotable]⟩

/-- A scanner that takes a mark with its backslash for two characters and any other character for
one passes the whole text. -/
theorem scan_guarded {α : Type} {scan : Nat → List Char → α} {marks : List Char}
    (mark : ∀ n, ∀ c ∈ marks, ∀ cs, scan n ('\\' :: c :: cs) = scan (n + 2) cs)
    (plain : ∀ n, ∀ c ∉ marks, ∀ cs, scan n (c :: cs) = scan (n + 1) cs)
    (cs rest : List Char) (n : Nat) :
    scan n (guarded marks cs ++ rest) = scan (n + (guarded marks cs).length) rest := by
  induction cs generalizing n with
  | nil => rfl
  | cons c cs ih =>
    by_cases hc : c ∈ marks
    · have length : n + 2 + (guarded marks cs).length = n + (guarded marks (c :: cs)).length := by
        rw [guarded_mark hc, List.length_cons, List.length_cons]
        omega
      rw [← length, guarded_mark hc]
      exact (mark n c hc _).trans (ih (n + 2))
    · have length : n + 1 + (guarded marks cs).length = n + (guarded marks (c :: cs)).length := by
        rw [guarded_plain hc, List.length_cons]
        omega
      rw [← length, guarded_plain hc]
      exact (plain n c hc _).trans (ih (n + 1))

end Text

namespace Scan

open Text (guarded)

variable {n : Nat}

theorem templateStretch_plain {c : Char} (hslash : c ≠ '\\') (htick : c ≠ backtick)
    (hdollar : c ≠ '$') (cs : List Char) :
    templateStretch n (c :: cs) = templateStretch (n + 1) cs := by
  rw [templateStretch_of_ne hslash fun _ dollar => absurd dollar hdollar, if_neg htick]

theorem rawStretch_guarded (cs rest : List Char) (n : Nat) :
    rawStretch n (guarded ['\\', '$'] cs ++ rest) =
      rawStretch (n + (guarded ['\\', '$'] cs).length) rest := by
  refine Text.scan_guarded (fun n c hc cs => ?_) (fun n c hc cs => ?_) cs rest n
  · have escapes : (isEscape c || c == '$' || c == backtick) = true := by
      simp only [List.mem_cons, List.not_mem_nil, or_false] at hc
      rcases hc with rfl | rfl <;> rfl
    rw [rawStretch, if_pos escapes]
  · simp only [List.mem_cons, List.not_mem_nil, or_false, not_or] at hc
    exact rawStretch_of_ne hc.1 hc.2 n cs

theorem templateStretch_guarded (cs rest : List Char) (n : Nat) :
    templateStretch n (guarded ['\\', '\x60', '$'] cs ++ rest) =
      templateStretch (n + (guarded ['\\', '\x60', '$'] cs).length) rest := by
  refine Text.scan_guarded (fun n c hc cs => ?_) (fun n c hc cs => ?_) cs rest n
  · have escapes : (isEscape c || c == '$' || c == backtick) = true := by
      simp only [List.mem_cons, List.not_mem_nil, or_false] at hc
      rcases hc with rfl | rfl | rfl <;> rfl
    rw [templateStretch, if_pos escapes]
  · simp only [List.mem_cons, List.not_mem_nil, or_false, not_or] at hc
    exact templateStretch_plain hc.1 hc.2.1 hc.2.2 cs

theorem quotedLength_guarded (q : Char) (cs rest : List Char) (n : Nat) :
    quotedLength q n (guarded ['\\', q] cs ++ rest) =
      quotedLength q (n + (guarded ['\\', q] cs).length) rest := by
  refine Text.scan_guarded (fun n c hc cs => ?_) (fun n c hc cs => ?_) cs rest n
  · have escapes : (isEscape c || c == q) = true := by
      simp only [List.mem_cons, List.not_mem_nil, or_false] at hc
      rcases hc with rfl | rfl
      · rfl
      · rw [beq_self_eq_true, Bool.or_true]
    rw [quotedLength, if_pos escapes]
  · simp only [List.mem_cons, List.not_mem_nil, or_false, not_or] at hc
    exact quotedLength_plain hc.1 hc.2

end Scan

namespace Embedding

open Text (guarded)

/-- A text as literal text of a template. -/
def raw (s : String) : String := String.ofList (guarded ['\\', '$'] s.toList)

/-- A text as a literal between quotes. -/
def quoted (q : Char) (s : String) : String :=
  String.ofList (q :: guarded ['\\', q] s.toList ++ [q])

/-- A text as a template between backticks. -/
def ticked (s : String) : String :=
  String.ofList (Scan.backtick :: guarded ['\\', '\x60', '$'] s.toList ++ [Scan.backtick])

example : raw "a\\$\x7bb" = "a\\\\\\$\x7bb" := by decide

theorem toList_quoted (q : Char) (s : String) :
    (quoted q s).toList = q :: (guarded ['\\', q] s.toList ++ [q]) := String.toList_ofList

/-- A literal in quotes is one lexeme with the text. -/
theorem quoted?_quoted {q : Char} (hq : q = '"' ∨ q = '\'') (s : String) (rest : List Char) :
    Scan.quoted? ((quoted q s).toList ++ rest) =
      .ok (some ⟨.text s, some (quoted q s), (quoted q s).toList.length⟩) := by
  have hslash : q ≠ '\\' := by rcases hq with rfl | rfl <;> decide
  have length : Scan.quotedLength q 1 (guarded ['\\', q] s.toList ++ q :: rest) =
      .ok (1 + (guarded ['\\', q] s.toList).length) := by
    rw [Scan.quotedLength_guarded, Scan.quotedLength_close hslash]
  have taken : (guarded ['\\', q] s.toList ++ q :: rest).take
      (1 + (guarded ['\\', q] s.toList).length - 1) = guarded ['\\', q] s.toList := by
    rw [Nat.add_sub_cancel_left, List.take_left]
  have spread : (quoted q s).toList ++ rest =
      q :: (guarded ['\\', q] s.toList ++ q :: rest) := by
    rw [toList_quoted, List.cons_append, List.append_assoc, List.singleton_append]
  have whole : (quoted q s).toList.length = 1 + (guarded ['\\', q] s.toList).length + 1 := by
    rw [toList_quoted, List.length_cons, List.length_append, List.length_singleton]
    omega
  have spelling : String.ofList (((quoted q s).toList ++ rest).take (quoted q s).toList.length) =
      quoted q s := by
    rw [List.take_left, String.ofList_toList]
  rw [whole, spread] at spelling
  rw [whole, spread, Scan.quoted?, if_pos hq, length]
  simp only [taken, Text.unescape_guarded (Text.marks_quote hq), String.ofList_toList, spelling]

end Embedding

open Text (guarded)

namespace Lexer

variable {s : String} {options : LexerOptions} {more : List Char}

/-- The end of the text or the beginning of an island. -/
def EndsRaw (cs : List Char) : Prop := cs = [] ∨ ∃ r, cs = '$' :: '\x7b' :: r

theorem rawStretch_ended (h : EndsRaw more) (n : Nat) :
    Scan.rawStretch n more = .ok ⟨n, none⟩ := by
  rcases h with rfl | ⟨r, rfl⟩
  · rw [Scan.rawStretch]
  · simp [Scan.rawStretch]

theorem placed_ofSource (options : LexerOptions) {l : Lexer} (rest : l.rest = more)
    (modes : l.modes = baseModes options.bareExpression)
    (depth : l.baseDepth = (baseModes options.bareExpression).length) (idle : l.pending = none)
    (allow : l.allowFilter = options.allowFilter) (operand : l.afterOperand = false) :
    l = (ofSource more options).placed l.position := by
  cases l
  simp_all only [ofSource, placed]

/-- Literal text is the first token, and what stands behind it is read as from the start. -/
theorem next_raw (text : options.bareExpression = false) (some_ : s ≠ "") (ended : EndsRaw more) :
    ∃ t p, (ofSource ((Embedding.raw s).toList ++ more) options).nextToken =
        (.ok t, (ofSource more options).placed p) ∧ t.kind = .raw s := by
  have spread : (Embedding.raw s).toList = guarded ['\\', '$'] s.toList := String.toList_ofList
  have nonempty : s.toList ≠ [] := fun empty => some_ (String.toList_eq_nil_iff.1 empty)
  have positive := Text.length_guarded_pos ['\\', '$'] nonempty
  have stretch : Scan.rawStretch 0 (guarded ['\\', '$'] s.toList ++ more) =
      .ok ⟨(guarded ['\\', '$'] s.toList).length, none⟩ := by
    rw [Scan.rawStretch_guarded, rawStretch_ended ended, Nat.zero_add]
  have decoded : Text.unescape (guarded ['\\', '$'] s.toList) = s.toList :=
    Text.unescape_guarded Text.marks_raw _
  rw [spread]
  generalize guarded ['\\', '$'] s.toList = cs at positive stretch decoded
  have start : (ofSource (cs ++ more) options).modes = [.start] := by
    simp only [ofSource, baseModes, text, Bool.false_eq_true, if_false]
  have mode : (ofSource (cs ++ more) options).mode = .start := by
    rw [Lexer.mode, start, List.headD_cons]
  have skipped : (ofSource (cs ++ more) options).skipSpace = ofSource (cs ++ more) options := by
    simp only [skipSpace, mode, skipsSpace, Bool.false_eq_true, if_false]
  have inked : (ofSource (cs ++ more) options).rest.isEmpty = false := by
    cases cs with
    | nil => exact absurd positive (Nat.lt_irrefl _)
    | cons c cs => rfl
  have spelled : (ofSource (cs ++ more) options).rest.take cs.length = cs := List.take_left
  have left : (ofSource (cs ++ more) options).rest.drop cs.length = more := List.drop_left
  have stretch : Scan.rawStretch 0 (ofSource (cs ++ more) options).rest =
    .ok ⟨cs.length, none⟩ := stretch
  have found : (ofSource (cs ++ more) options).scan =
      (.ok ⟨.raw s, some (String.ofList cs), cs.length⟩, ofSource (cs ++ more) options) := by
    simp only [scan, skipped, inked, mode, Bool.false_eq_true, if_false, scanRaw, stretch,
      deliverStretch, if_neg (Nat.ne_of_gt positive), spelled, decoded, String.ofList_toList]
    rfl
  have next := nextToken_of_found rfl found
  rw [placed_ofSource options (l := Prod.snd _) left rfl rfl rfl rfl rfl] at next
  exact ⟨_, _, next, rfl⟩

/-- A literal in quotes is scanned as one token. -/
theorem scanExpression_quoted {q : Char} (hq : q = '"' ∨ q = '\'') {s : String} {l : Lexer}
    {rest : List Char} (hr : l.rest = (Embedding.quoted q s).toList ++ rest) :
    l.scanExpression =
      (.ok ⟨.text s, some (Embedding.quoted q s), (Embedding.quoted q s).toList.length⟩, l) := by
  have start : Scan.isIdentifierStart q = false := by rcases hq with rfl | rfl <;> decide
  have none_ : l.word? = none := by
    have spread := hr
    rw [Embedding.toList_quoted] at spread
    refine word?_eq_none spread start ?_
    rcases hq with rfl | rfl <;> rfl
  refine scanExpression_of_quoted none_ ?_
  rw [hr]
  exact Embedding.quoted?_quoted hq s rest

theorem spells_quoted {base : Nat} {ms : List Mode} {a : Bool} {q : Char} {rest : List Char}
    (hq : q = '"' ∨ q = '\'') (hm : InExpression ms) (s : String) :
    Spells base ms a (Embedding.quoted q s).toList [.text s] true rest := by
  have start : isSpace q = false ∧ q ≠ '$' := by rcases hq with rfl | rfl <;> decide
  obtain ⟨space, dollar⟩ := start
  refine spells_of_scan (d := q)
    (x := ⟨.text s, some (Embedding.quoted q s), (Embedding.quoted q s).toList.length⟩)
    hm (by rw [Embedding.toList_quoted]; rfl) space ?_ (fun l hr _ => scanExpression_quoted hq hr)
    TokenKind.noConfusion rfl rfl
  rw [Embedding.toList_quoted]
  exact fun r same => dollar (List.cons.inj same).1

section Ticks

variable {l : Lexer}

def tick : Lexeme := ⟨.punctuator Parser.backtick, none, 1⟩

theorem scan_opening {cs : List Char} (rest : l.rest = Scan.backtick :: cs)
    (mode : l.mode = .expression) : l.scan = (.ok tick, l.push .template) := by
  have skipped : l.skipSpace = l := by
    have taken : l.rest.takeWhile isSpace = [] := by
      rw [rest]
      rfl
    have left : l.rest.dropWhile isSpace = l.rest := by
      rw [rest]
      rfl
    simp only [skipSpace, mode, skipsSpace, if_true, taken, left, Position.advance_nil]
  have none_ : l.word? = none := word?_eq_none rest rfl (by cases l.afterOperand <;> rfl)
  have unquoted : Scan.quoted? (Scan.backtick :: cs) = .ok none := rfl
  have other : Scan.punctuator? (Scan.backtick :: cs) = none := rfl
  have outside : l.openIsland? = none := by
    rw [openIsland?, rest]
    rfl
  simp only [scan, skipped, mode, outside, scanExpression, none_, rest, unquoted, other,
    List.isEmpty_cons, Bool.false_eq_true, if_false, List.head?_cons, if_true]
  rfl

/-- A template is its text, if there is any, with the closing backtick waiting behind it. -/
theorem scan_ticked {s : String}
    (rest : l.rest = guarded ['\\', '\x60', '$'] s.toList ++ [Scan.backtick])
    (mode : l.mode = .template) :
    l.scan =
      if s = "" then (.ok tick, l.pop)
      else (.ok ⟨.templateRaw s, some (String.ofList (guarded ['\\', '\x60', '$'] s.toList)),
        (guarded ['\\', '\x60', '$'] s.toList).length⟩, { l.pop with pending := some tick }) := by
  have skipped : l.skipSpace = l := by
    simp only [skipSpace, mode, skipsSpace, Bool.false_eq_true, if_false]
  have inked : l.rest.isEmpty = false := by
    rw [rest]
    simp
  have decoded : Text.unescape (guarded ['\\', '\x60', '$'] s.toList) = s.toList :=
    Text.unescape_guarded Text.marks_template _
  have stretch : Scan.templateStretch 0 l.rest =
      .ok ⟨(guarded ['\\', '\x60', '$'] s.toList).length, some tick⟩ := by
    rw [rest, Scan.templateStretch_guarded, Nat.zero_add]
    rfl
  have left : l.pop.rest = guarded ['\\', '\x60', '$'] s.toList ++ [Scan.backtick] := rest
  simp only [scan, skipped, inked, mode, Bool.false_eq_true, if_false, scanTemplate, stretch]
  have popped : l.afterTemplate (some tick) = l.pop := rfl
  rw [popped]
  by_cases empty : s = ""
  · subst empty
    rfl
  · have nonempty : s.toList ≠ [] := fun h => empty (String.toList_eq_nil_iff.1 h)
    have positive := Text.length_guarded_pos ['\\', '\x60', '$'] nonempty
    simp only [deliverStretch, if_neg (Nat.ne_of_gt positive), if_neg empty, left, List.take_left,
      decoded, String.ofList_toList]

def tickedKinds (s : String) : List TokenKind :=
  if s = "" then [tick.kind, tick.kind] else [tick.kind, .templateRaw s, tick.kind]

theorem at_closed {base : Nat} {ms : List Mode} (rest : l.rest = [Scan.backtick])
    (modes : l.modes = .expression :: ms) (idle : l.pending = none) (depth : l.baseDepth = base) :
    At base (.expression :: ms) [] true (l.deliver tick).2 := by
  have left : l.rest.drop 1 = [] := by
    rw [rest]
    rfl
  have operand : endsOperand l.mode tick.kind = true := by
    rw [Lexer.mode, modes]
    rfl
  exact ⟨congrArg _ left, modes, idle, operand, depth⟩

/-- A template is read from its opening to its closing backtick. -/
theorem At.reads_ticked {base : Nat} {ms : List Mode} {s : String}
    (rest : l.rest = (Embedding.ticked s).toList) (modes : l.modes = .expression :: ms)
    (idle : l.pending = none) (depth : l.baseDepth = base) :
    ∃ l', l.Reads (tickedKinds s) l' ∧ At base (.expression :: ms) [] true l' := by
  have spread : (Embedding.ticked s).toList =
      Scan.backtick :: (guarded ['\\', '\x60', '$'] s.toList ++ [Scan.backtick]) :=
    String.toList_ofList
  rw [spread] at rest
  have mode : l.mode = .expression := by rw [Lexer.mode, modes, List.headD_cons]
  have opened := nextToken_of_found idle (scan_opening rest mode)
  generalize inside : ((l.push .template).deliver tick).2 = m at opened
  have rest_m : m.rest = guarded ['\\', '\x60', '$'] s.toList ++ [Scan.backtick] := by
    rw [← inside]
    change l.rest.drop 1 = _
    rw [rest, List.drop_succ_cons, List.drop_zero]
  have modes_m : m.modes = .template :: .expression :: ms := by
    rw [← inside, ← modes]
    rfl
  have idle_m : m.pending = none := by
    rw [← inside]
    exact idle
  have depth_m : m.baseDepth = base := by
    rw [← inside]
    exact depth
  have scanned := scan_ticked rest_m (by rw [Lexer.mode, modes_m, List.headD_cons])
  by_cases empty : s = ""
  · subst empty
    rw [if_pos rfl] at scanned
    have behind : m.pop.modes = .expression :: ms := congrArg List.tail modes_m
    have closed := nextToken_of_found idle_m scanned
    exact ⟨_, .cons opened TokenKind.noConfusion (.cons closed TokenKind.noConfusion (.nil _)),
      at_closed rest_m behind idle_m depth_m⟩
  · rw [if_neg empty] at scanned
    have text := nextToken_of_found idle_m scanned
    generalize waiting : (Lexer.deliver _ _).2 = n at text
    have rest_n : n.rest = [Scan.backtick] := by
      rw [← waiting]
      change m.rest.drop _ = _
      rw [rest_m, List.drop_left]
    have modes_n : n.modes = .expression :: ms := by
      rw [← waiting]
      exact congrArg List.tail modes_m
    have waits : n.pending = some tick := by
      rw [← waiting]
      rfl
    have depth_n : n.baseDepth = base := by
      rw [← waiting]
      exact depth_m
    have closed := nextToken_of_waiting waits
    refine ⟨_, ?_, at_closed (l := { n with pending := none }) rest_n modes_n rfl depth_n⟩
    rw [tickedKinds, if_neg empty]
    exact .cons opened TokenKind.noConfusion (.cons text TokenKind.noConfusion
      (.cons closed TokenKind.noConfusion (.nil _)))

end Ticks

end Lexer

end TemplateFormula
