import TemplateFormula.Source.Lexer

/-!
# What a scan and a pull can come to

What a scanner found says what stands at the front of the text. Behind white space a scan comes to
the end of the text or to one of a few outcomes, each with the state that it leaves, and a pull makes
a token of what was found. What holds of every scan or pull is proved by cases on these.
-/

namespace TemplateFormula

namespace Scan

/-! ### One character after another -/

section Plain

variable {c : Char}

/-- A character is no backslash if it is neither one at the end nor one with something behind it. -/
theorem ne_slash {cs : List Char} (alone : c = '\\' → cs = [] → False)
    (pair : ∀ d ds, c = '\\' → cs = d :: ds → False) : c ≠ '\\' := by
  intro slash
  cases cs with
  | nil => exact alone slash rfl
  | cons d ds => exact pair d ds slash rfl

theorem quotedLength_of_ne (h : c ≠ '\\') (q : Char) (n : Nat) (cs : List Char) :
    quotedLength q n (c :: cs) = if c = q then .ok n else quotedLength q (n + 1) cs := by
  rw [quotedLength]
  · rintro rfl
    exact absurd rfl h
  · rintro d cs rfl
    exact absurd rfl h

theorem rawStretch_of_ne (slash : c ≠ '\\') (dollar : c ≠ '$') (n : Nat) (cs : List Char) :
    rawStretch n (c :: cs) = rawStretch (n + 1) cs := by
  rw [rawStretch]
  · exact fun eq _ => slash eq
  · exact fun _ _ eq _ => slash eq
  · exact dollar

theorem templateStretch_of_ne (slash : c ≠ '\\') {cs : List Char}
    (hole : ∀ ds, c = '$' → cs = '\x7b' :: ds → False) (n : Nat) :
    templateStretch n (c :: cs) =
      if c = backtick then .ok ⟨n, some ⟨.punctuator (String.singleton backtick), none, 1⟩⟩
      else templateStretch (n + 1) cs := by
  rw [templateStretch]
  · exact fun eq _ => slash eq
  · exact fun _ _ eq _ => slash eq
  · exact hole

theorem freeChar?_of_ne (h : c ≠ '\\') (cs : List Char) :
    freeChar? (c :: cs) = some ⟨.char c, none, 1⟩ := by
  rw [freeChar?.eq_def]
  split
  · next eq => exact absurd (List.cons.inj eq).1 h
  · next eq => exact absurd (List.cons.inj eq).1 h
  · next eq =>
    obtain ⟨rfl, _⟩ := List.cons.inj eq
    rfl
  · next eq => cases eq

end Plain

/-! ### What the scanners find -/

variable {cs : List Char} {x : Lexeme}

theorem keyword?_eq_some (h : keyword? cs = some x) :
    ∃ k ∈ keywords, Number.asciiLower (cs.take k.1.length) = k.1 ∧
      x = ⟨k.2, some (String.ofList (cs.take k.1.length)), k.1.length⟩ := by
  obtain ⟨k, first, rfl⟩ := Option.map_eq_some_iff.1 h
  have word := List.find?_some first
  simp only [matchesWord, Bool.and_eq_true, beq_iff_eq] at word
  exact ⟨k, List.mem_of_find?_eq_some first, word.1, rfl⟩

theorem identifier?_eq_some (h : identifier? cs = some x) :
    ∃ c ds, cs = c :: ds ∧ isIdentifierStart c = true ∧
      x = ⟨.identifier (String.ofList (c :: ds.takeWhile isIdentifierPart)), none,
        (c :: ds.takeWhile isIdentifierPart).length⟩ := by
  cases cs with
  | nil => simp [identifier?] at h
  | cons c cs =>
    simp only [identifier?, Option.ite_none_right_eq_some, Option.some.injEq] at h
    exact ⟨c, cs, rfl, h.1, h.2.symm⟩

theorem number?_eq_some {after : Bool} (h : number? after cs = some x) :
    numeralChars after cs ≠ [] ∧ ∃ v, Number.parse? (numeralChars after cs) = some v ∧
      x = ⟨.number v, some (String.ofList (numeralChars after cs)),
        (numeralChars after cs).length⟩ := by
  simp only [number?, Option.ite_none_left_eq_some] at h
  obtain ⟨some_, h⟩ := h
  obtain ⟨v, parsed, rfl⟩ := Option.map_eq_some_iff.1 h
  exact ⟨fun empty => some_ (List.isEmpty_iff.2 empty), v, parsed, rfl⟩

theorem quoted?_eq_some (h : quoted? cs = .ok (some x)) :
    ∃ q ds n, cs = q :: ds ∧ (q = '"' ∨ q = '\'') ∧ quotedLength q 1 ds = .ok n ∧
      x = ⟨.text (String.ofList (Text.unescape (ds.take (n - 1)))),
        some (String.ofList ((q :: ds).take (n + 1))), n + 1⟩ := by
  cases cs with
  | nil => simp [quoted?] at h
  | cons q cs =>
    simp only [quoted?] at h
    split at h
    · next quote =>
      split at h
      · cases h
      · next n closed =>
        cases h
        exact ⟨q, cs, n, rfl, quote, closed, rfl⟩
    · cases h

theorem punctuator?_eq_some (h : punctuator? cs = some x) :
    ∃ p ∈ punctuators, p.toList <+: cs ∧ x = ⟨.punctuator p, none, p.toList.length⟩ := by
  obtain ⟨p, first, rfl⟩ := Option.map_eq_some_iff.1 h
  have initial := List.find?_some first
  exact ⟨p, List.mem_of_find?_eq_some first, List.isPrefixOf_iff_prefix.1 initial, rfl⟩

/-- A character of free text stands behind a backslash or is none. -/
theorem freeChar?_eq_some (h : freeChar? cs = some x) :
    (∃ c ds, cs = '\\' :: c :: ds ∧
      (c == '$' || c == backtick || isEscape c || isPunctuatorChar c) = true ∧
      x = ⟨.char (Text.escapedChar c), none, 2⟩) ∨
    ∃ c ds, cs = c :: ds ∧ c ≠ '\\' ∧ x = ⟨.char c, none, 1⟩ := by
  fun_cases freeChar? cs with
  | case1 c cs escapes =>
    rw [freeChar?, if_pos escapes] at h
    exact .inl ⟨c, cs, rfl, escapes, (Option.some.inj h).symm⟩
  | case2 c cs escapes =>
    rw [freeChar?, if_neg escapes] at h
    cases h
  | case3 | case5 => cases h
  | case4 c cs pair alone =>
    have plain := ne_slash alone pair
    rw [freeChar?_of_ne plain] at h
    exact .inr ⟨c, cs, rfl, plain, (Option.some.inj h).symm⟩

end Scan

namespace TokenKind

/-- Kinds of tokens that neither open nor close anything. -/
def isUnmarked : TokenKind → Bool
  | .boolean _ | .null | .undefined | .number _ | .text _ | .identifier _ | .char _ => true
  | _ => false

theorem ne_of_isUnmarked {k k' : TokenKind} (h : k.isUnmarked = true)
    (h' : k'.isUnmarked = false) : k ≠ k' := by
  rintro rfl
  rw [h] at h'
  cases h'

theorem isPunctuator_of_isUnmarked {k : TokenKind} (h : k.isUnmarked) (s : String) :
    k.isPunctuator s = false := by
  cases k <;> simp_all [isUnmarked, isPunctuator]

end TokenKind

namespace Scan

variable {cs : List Char} {x : Lexeme}

theorem keyword?_isUnmarked (h : keyword? cs = some x) : x.kind.isUnmarked := by
  obtain ⟨k, member, _, rfl⟩ := keyword?_eq_some h
  have plain : ∀ k ∈ keywords, k.2.isUnmarked := by decide
  exact plain k member

theorem identifier?_isUnmarked (h : identifier? cs = some x) : x.kind.isUnmarked := by
  obtain ⟨_, _, _, _, rfl⟩ := identifier?_eq_some h
  rfl

theorem number?_isUnmarked {after : Bool} (h : number? after cs = some x) :
    x.kind.isUnmarked := by
  obtain ⟨_, _, _, rfl⟩ := number?_eq_some h
  rfl

theorem quoted?_isUnmarked (h : quoted? cs = .ok (some x)) : x.kind.isUnmarked := by
  obtain ⟨_, _, _, _, _, _, rfl⟩ := quoted?_eq_some h
  rfl

theorem freeChar?_isUnmarked (h : freeChar? cs = some x) : x.kind.isUnmarked := by
  obtain ⟨_, _, _, _, rfl⟩ | ⟨_, _, _, _, rfl⟩ := freeChar?_eq_some h <;> rfl

end Scan

namespace Lexer

variable {l l' : Lexer} {x : Lexeme}

theorem word?_eq_some (h : l.word? = some x) :
    Scan.keyword? l.rest = some x ∨ Scan.identifier? l.rest = some x ∨
      Scan.number? l.afterOperand l.rest = some x := by
  simp only [word?, Option.orElse_eq_orElse, Option.orElse_eq_or, Option.or_eq_some_iff] at h
  exact h.imp_right fun h => h.2.imp_right And.right

theorem word?_isUnmarked (h : l.word? = some x) : x.kind.isUnmarked := by
  obtain h | h | h := word?_eq_some h
  · exact Scan.keyword?_isUnmarked h
  · exact Scan.identifier?_isUnmarked h
  · exact Scan.number?_isUnmarked h

theorem punctuator_of_isPunctuator {k : TokenKind} {s : String} (h : k.isPunctuator s = true) :
    k = .punctuator s := by
  cases k <;> simp_all [TokenKind.isPunctuator]

theorem settle_of_isUnmarked (hx : x.kind.isUnmarked) : l.settle x = (.ok x, l) := by
  simp [settle, TokenKind.isPunctuator_of_isUnmarked hx]

/-- A brace or a bar, and the kind of token that stands for it where it closes or opens something. -/
inductive Renames : TokenKind → TokenKind → Prop where
  | same (k : TokenKind) : Renames k k
  | closeIsland : Renames (.punctuator "\x7d") .closeIsland
  | closeHole : Renames (.punctuator "\x7d") .closeHole
  | openFilter : Renames (.punctuator "|") .openFilter

/-- A lexeme is settled as itself or under another name, or it is not expected. -/
inductive Settled (l : Lexer) (x : Lexeme) : Result Lexeme → Prop where
  | found (k : TokenKind) (ms : List Mode) (renames : Renames x.kind k) :
      Settled l x (.ok { x with kind := k }, { l with modes := ms })
  | unexpected (ms : List Mode) : Settled l x (.error (l.unexpected 0), { l with modes := ms })

theorem closeBrace_settled (hx : x.kind = .punctuator "\x7d") :
    Settled l x (l.closeBrace x) := by
  obtain ⟨ms, popped⟩ : ∃ ms, (if l.mode = .filter then l.pop else l) = { l with modes := ms } := by
    split
    · exact ⟨_, rfl⟩
    · exact ⟨l.modes, rfl⟩
  unfold closeBrace
  dsimp only
  rw [popped]
  split
  · exact .unexpected ms
  · refine .found _ _ ?_
    rw [hx]
    split
    · exact .closeIsland
    · exact .closeHole
    · exact .same _

theorem settle_settled (l : Lexer) (x : Lexeme) : Settled l x (l.settle x) := by
  unfold settle
  split
  · exact .found _ _ (.same _)
  · split
    · next brace => exact closeBrace_settled (punctuator_of_isPunctuator brace)
    · split
      · next bar =>
        have renames : Renames x.kind .openFilter := by
          rw [punctuator_of_isPunctuator bar]
          exact .openFilter
        split
        · exact .found _ _ renames
        · split
          · exact .found _ l.modes renames
          · exact .found _ l.modes (.same _)
      · exact .found _ l.modes (.same _)

theorem afterTemplate_eq (l : Lexer) (next : Option Lexeme) :
    ∃ ms, l.afterTemplate next = { l with modes := ms } := by
  unfold afterTemplate
  split
  · split <;> exact ⟨_, rfl⟩
  · exact ⟨l.modes, rfl⟩

theorem afterTemplate_rest (next : Option Lexeme) : (l.afterTemplate next).rest = l.rest := by
  obtain ⟨ms, same⟩ := l.afterTemplate_eq next
  rw [same]

theorem afterTemplate_pending (next : Option Lexeme) :
    (l.afterTemplate next).pending = l.pending := by
  obtain ⟨ms, same⟩ := l.afterTemplate_eq next
  rw [same]

theorem deliverStretch_of_pos {kind : String → TokenKind} {st : Scan.Stretch}
    (h : st.length ≠ 0) :
    l.deliverStretch kind st =
      (some ⟨kind (String.ofList (Text.unescape (l.rest.take st.length))),
        some (String.ofList (l.rest.take st.length)), st.length⟩,
        { l with pending := st.next }) := by
  rw [deliverStretch, if_neg h]

theorem deliverStretch_none {kind : String → TokenKind} {st : Scan.Stretch}
    (h : l.deliverStretch kind st = (none, l')) : l' = l := by
  unfold deliverStretch at h
  split at h
  · exact (Prod.mk.inj h).2.symm
  · cases h

theorem openIsland?_eq_some (h : l.openIsland? = some (x, l')) :
    (∃ cs, l.rest = '$' :: '\x7b' :: cs) ∧ x = ⟨.openIsland, none, 2⟩ ∧ l' = l.push .script := by
  unfold openIsland? at h
  split at h
  · next cs rest_eq =>
    cases h
    exact ⟨⟨cs, rest_eq⟩, rfl, rfl⟩
  · cases h

/-- What a scan comes to where characters are left. -/
inductive Scanned (l : Lexer) : Result Lexeme → Prop where
  | unexpected (n : Nat) : Scanned l (.error (l.unexpected n), l)
  | unended : Scanned l (.error (.unterminated .quotation l.position), l)
  | island {cs : List Char} (outside : l.mode ≠ .template) (opens : l.rest = '$' :: '\x7b' :: cs) :
      Scanned l (.ok ⟨.openIsland, none, 2⟩, l.push .script)
  | word {x : Lexeme} (found : l.word? = some x) : Scanned l (.ok x, l)
  | quoted {x : Lexeme} (found : Scan.quoted? l.rest = .ok (some x)) : Scanned l (.ok x, l)
  | sign {x : Lexeme} (outside : l.mode ≠ .template) (found : Scan.punctuator? l.rest = some x) :
      Scanned l (l.settle x)
  | backtick {cs : List Char} (outside : l.mode ≠ .template)
      (opens : l.rest = Scan.backtick :: cs) :
      Scanned l (.ok ⟨.punctuator (String.singleton Scan.backtick), none, 1⟩, l.push .template)
  | free {x : Lexeme} (inside : l.mode = .filter) (found : Scan.freeChar? l.rest = some x) :
      Scanned l (.ok x, l)
  | raw {s : Scan.Stretch} (stretch : Scan.rawStretch 0 l.rest = .ok s) (some_ : s.length ≠ 0) :
      Scanned l (.ok ⟨.raw (String.ofList (Text.unescape (l.rest.take s.length))),
        some (String.ofList (l.rest.take s.length)), s.length⟩, { l with pending := s.next })
  | behindRaw {s : Scan.Stretch} {x : Lexeme} (stretch : Scan.rawStretch 0 l.rest = .ok s)
      (none_ : s.length = 0) (next : s.next = some x) : Scanned l (.ok x, l)
  | template {s : Scan.Stretch} (inside : l.mode = .template)
      (stretch : Scan.templateStretch 0 l.rest = .ok s) (some_ : s.length ≠ 0) :
      Scanned l (.ok ⟨.templateRaw (String.ofList (Text.unescape (l.rest.take s.length))),
        some (String.ofList (l.rest.take s.length)), s.length⟩,
        { l.afterTemplate s.next with pending := s.next })
  | behindTemplate {s : Scan.Stretch} {x : Lexeme} (inside : l.mode = .template)
      (stretch : Scan.templateStretch 0 l.rest = .ok s) (none_ : s.length = 0)
      (next : s.next = some x) : Scanned l (.ok x, l.afterTemplate (some x))

theorem openIsland?_scanned (outside : l.mode ≠ .template) (h : l.openIsland? = some (x, l')) :
    l.Scanned (.ok x, l') := by
  obtain ⟨⟨cs, opens⟩, rfl, rfl⟩ := openIsland?_eq_some h
  exact .island outside opens

theorem scanExpression_scanned (outside : l.mode ≠ .template) : l.Scanned l.scanExpression := by
  unfold scanExpression
  split
  · next x word =>
    rw [settle_of_isUnmarked (word?_isUnmarked word)]
    exact .word word
  · split
    · exact .unended
    · exact .unexpected _
    · next x quoted =>
      rw [settle_of_isUnmarked (Scan.quoted?_isUnmarked quoted)]
      exact .quoted quoted
    · split
      · next x sign => exact .sign outside sign
      · split
        · next tick =>
          obtain ⟨cs, opens⟩ := List.head?_eq_some_iff.1 tick
          exact .backtick outside opens
        · split
          · next inside =>
            split
            · next x free =>
              rw [settle_of_isUnmarked (Scan.freeChar?_isUnmarked free)]
              exact .free inside free
            · exact .unexpected 0
          · exact .unexpected 0

theorem scanExpression_of_word (word : l.word? = some x) : l.scanExpression = (.ok x, l) := by
  simp only [scanExpression, word]
  exact settle_of_isUnmarked (word?_isUnmarked word)

theorem scanExpression_of_quoted (word : l.word? = none)
    (quoted : Scan.quoted? l.rest = .ok (some x)) : l.scanExpression = (.ok x, l) := by
  simp only [scanExpression, word, quoted]
  exact settle_of_isUnmarked (Scan.quoted?_isUnmarked quoted)

theorem scanExpression_of_sign (word : l.word? = none) (quoted : Scan.quoted? l.rest = .ok none)
    (sign : Scan.punctuator? l.rest = some x) : l.scanExpression = l.settle x := by
  simp only [scanExpression, word, quoted, sign]

theorem scanRaw_scanned (outside : l.mode ≠ .template) : l.Scanned l.scanRaw := by
  unfold scanRaw
  split
  · exact .unexpected _
  · next s stretch =>
    by_cases empty : s.length = 0
    · simp only [deliverStretch, if_pos empty]
      cases next : s.next with
      | some x => exact .behindRaw stretch empty next
      | none =>
        dsimp only
        split
        · next x l' opened => exact openIsland?_scanned outside opened
        · exact .unexpected 0
    · rw [deliverStretch_of_pos empty]
      exact .raw stretch empty

theorem scanTemplate_scanned (inside : l.mode = .template) : l.Scanned l.scanTemplate := by
  unfold scanTemplate
  split
  · exact .unexpected _
  · next s stretch =>
    by_cases empty : s.length = 0
    · simp only [deliverStretch, if_pos empty]
      cases next : s.next with
      | some x => exact .behindTemplate inside stretch empty next
      | none => exact .unexpected 0
    · have spelling : (l.afterTemplate s.next).rest.take s.length = l.rest.take s.length := by
        rw [afterTemplate_rest]
      rw [deliverStretch_of_pos empty, spelling]
      exact .template inside stretch empty

theorem skipSpace_modes (l : Lexer) : l.skipSpace.modes = l.modes := by
  unfold skipSpace
  split <;> rfl

theorem skipSpace_baseDepth (l : Lexer) : l.skipSpace.baseDepth = l.baseDepth := by
  unfold skipSpace
  split <;> rfl

/-- Behind white space a scan finds the end of the text, or something left open there, or it reads
on. -/
theorem scan_outcome (l : Lexer) :
    (l.skipSpace.rest = [] ∧ l.depth = l.baseDepth ∧ l.scan = (.ok ⟨.eof, none, 0⟩, l.skipSpace)) ∨
    (l.skipSpace.rest = [] ∧ l.depth ≠ l.baseDepth ∧
      l.scan = (.error (.unterminated (.mode l.mode) l.skipSpace.position), l.skipSpace)) ∨
    (l.skipSpace.rest ≠ [] ∧ l.skipSpace.Scanned l.scan) := by
  have hdepth : l.skipSpace.depth = l.depth := by simp only [depth, skipSpace_modes]
  have hmode : l.skipSpace.mode = l.mode := by simp only [mode, skipSpace_modes]
  rw [← hdepth, ← skipSpace_baseDepth, ← hmode]
  unfold scan
  generalize l.skipSpace = l
  dsimp only
  by_cases hr : l.rest = []
  · by_cases hd : l.depth = l.baseDepth
    · exact .inl ⟨hr, hd, by simp [hr, hd]⟩
    · exact .inr (.inl ⟨hr, hd, by simp [hr, hd]⟩)
  · refine .inr (.inr ⟨hr, ?_⟩)
    rw [if_neg (by simpa using hr)]
    split
    · next start => exact scanRaw_scanned (by simp [start])
    · next inside => exact scanTemplate_scanned inside
    · next outside =>
      split
      · next x l' opened => exact openIsland?_scanned outside opened
      · exact scanExpression_scanned outside

/-- A pull delivers what waits or what a scan finds, or hands on the error of the scan. -/
inductive Pulled (l : Lexer) : Result Token → Prop where
  | waiting {x : Lexeme} (waits : l.pending = some x) :
      Pulled l
        (.ok ({ l with pending := none }.deliver x).1, ({ l with pending := none }.deliver x).2)
  | failed {e : LexError} {m : Lexer} (idle : l.pending = none) (scan_eq : l.scan = (.error e, m)) :
      Pulled l (.error e, m)
  | found {x : Lexeme} {m : Lexer} (idle : l.pending = none) (scan_eq : l.scan = (.ok x, m)) :
      Pulled l (.ok (m.deliver x).1, (m.deliver x).2)

theorem nextToken_of_waiting (waits : l.pending = some x) :
    l.nextToken =
      (.ok ({ l with pending := none }.deliver x).1, ({ l with pending := none }.deliver x).2) := by
  unfold nextToken
  rw [waits]

theorem nextToken_of_found {m : Lexer} (idle : l.pending = none) (found : l.scan = (.ok x, m)) :
    l.nextToken = (.ok (m.deliver x).1, (m.deliver x).2) := by
  unfold nextToken
  rw [idle]
  dsimp only
  rw [found]

theorem nextToken_of_failed {e : LexError} {m : Lexer} (idle : l.pending = none)
    (failed : l.scan = (.error e, m)) : l.nextToken = (.error e, m) := by
  unfold nextToken
  rw [idle]
  dsimp only
  rw [failed]

theorem pulled_of_eq {r : Result Token} (h : l.nextToken = r) : l.Pulled r := by
  subst h
  cases pending : l.pending with
  | some x =>
    rw [nextToken_of_waiting pending]
    exact .waiting pending
  | none =>
    rcases scan_eq : l.scan with ⟨e | x, m⟩
    · rw [nextToken_of_failed pending scan_eq]
      exact .failed pending scan_eq
    · rw [nextToken_of_found pending scan_eq]
      exact .found pending scan_eq

end Lexer

end TemplateFormula
