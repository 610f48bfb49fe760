import TemplateFormula.Proofs.Lexing.Reading
import TemplateFormula.Proofs.Lexing.Modes
import TemplateFormula.Proofs.Printing.Quote
import TemplateFormula.Proofs.Printing.Numeral
import Mathlib.Data.List.Forall2

/-!
# Reading written expressions

The lexer reads the text of a plain expression as the tokens that the expression was written with,
whatever stands behind it, as long as that is the end of the text or a character that ends a word.
-/

namespace TemplateFormula

namespace Scan

theorem isLetter_of_toLower {c : Char} (h : Text.isLetter c.toLower = true) :
    Text.isLetter c = true := by
  by_cases hc : c.val ≥ 'A'.val ∧ c.val ≤ 'Z'.val
  · have hlt : c.toNat < 128 := Nat.lt_of_le_of_lt (UInt32.le_iff_toNat_le.1 hc.2) (by decide)
    have hupper : c.isUpper = true := decide_eq_true hc
    have halpha : c.isAlpha = true := Bool.or_eq_true_iff.2 (.inl hupper)
    rw [Text.isLetter, if_pos hlt, halpha]
  · have hself : c.toLower = c := dif_neg hc
    rwa [hself] at h

theorem keywords_letters : ∀ k ∈ keywords, ∀ d ∈ k.1, Text.isLetter d = true := by
  have all : (keywords.all fun k => k.1.all Text.isLetter) = true := rfl
  simpa only [List.all_eq_true] using all

theorem keywords_length_pos : ∀ k ∈ keywords, 0 < k.1.length := by decide

theorem keyword?_eq_none {c : Char} {cs : List Char} (hc : isIdentifierStart c = false) :
    keyword? (c :: cs) = none := by
  simp only [keyword?, Option.map_eq_none_iff, List.find?_eq_none]
  intro k hk hmatch
  simp only [matchesWord, Bool.and_eq_true, beq_iff_eq] at hmatch
  obtain ⟨d, ds, hkeyword⟩ := List.exists_cons_of_length_pos (keywords_length_pos k hk)
  have hfirst : c.toLower = d := by
    have hword := hmatch.1
    rw [hkeyword] at hword
    exact (List.cons.inj hword).1
  have hletter := keywords_letters k hk d (by rw [hkeyword]; exact List.mem_cons_self)
  rw [← hfirst] at hletter
  simp [isIdentifierStart, isLetter_of_toLower hletter] at hc

/-- A name of word characters is matched as a whole or not at all. -/
theorem matchesWord_append {word name rest : List Char} (hpos : 0 < word.length)
    (hletters : ∀ d ∈ word, Text.isLetter d = true)
    (hname : ∀ d ∈ name.tail, isIdentifierPart d = true)
    (hrest : ∀ c ∈ rest.head?, isIdentifierPart c = false) :
    matchesWord word (name ++ rest) = (Number.asciiLower name == word) := by
  rw [Bool.eq_iff_iff]
  simp only [matchesWord, Bool.and_eq_true, beq_iff_eq, Bool.not_eq_true']
  generalize hn : word.length = n at hpos
  rcases Nat.lt_trichotomy n name.length with hlt | heq | hgt
  · -- the name goes on behind the keyword
    refine ⟨fun hmatch => ?_, fun hword => ?_⟩
    · have hnext := hmatch.2
      rw [List.drop_append_of_le_length (Nat.le_of_lt hlt), List.drop_eq_getElem_cons hlt,
        List.cons_append, List.head?_cons, Option.any_some] at hnext
      have hmem : name[n] ∈ name.tail := by
        obtain ⟨m, rfl⟩ : ∃ m, n = m + 1 := ⟨n - 1, by omega⟩
        rw [← List.getElem_tail (by rw [List.length_tail]; omega)]
        exact List.getElem_mem _
      rw [hname _ hmem] at hnext
      cases hnext
    · rw [← hword, Number.asciiLower, List.length_map] at hn
      omega
  · have hend : rest.head?.any isIdentifierPart = false := by
      cases rest with
      | nil => rfl
      | cons c rest => exact hrest c rfl
    rw [heq, List.take_left, List.drop_left]
    exact ⟨fun h => h.1, fun h => ⟨h, hend⟩⟩
  · -- the keyword goes on behind the name
    refine ⟨fun hmatch => ?_, fun hword => ?_⟩
    · have hword := hmatch.1
      cases rest with
      | nil =>
        have hlength := congrArg List.length hword
        simp only [Number.asciiLower, List.append_nil, List.length_map, List.length_take] at hlength
        omega
      | cons c rest =>
        have hmem : c.toLower ∈ word := by
          obtain ⟨m, hm⟩ : ∃ m, n - name.length = m + 1 := ⟨n - name.length - 1, by omega⟩
          rw [← hword, Number.asciiLower, List.take_append, hm, List.take_succ_cons]
          simp
        have hpart := hrest c rfl
        simp [isIdentifierPart, Text.isLetterOrNumeral,
          isLetter_of_toLower (hletters _ hmem)] at hpart
    · rw [← hword, Number.asciiLower, List.length_map] at hn
      omega

theorem identifier?_eq_none {c : Char} {cs : List Char} (hc : isIdentifierStart c = false) :
    identifier? (c :: cs) = none := by
  simp [identifier?, hc]

theorem isIdentifierStart_of_isDigit {c : Char} (hc : c.isDigit = true) :
    isIdentifierStart c = false := by
  simp only [Char.isDigit, Bool.and_eq_true, decide_eq_true_eq, UInt32.le_iff_toNat_le] at hc
  have hge : 48 ≤ c.toNat := hc.1
  have hle : c.toNat ≤ 57 := hc.2
  have hupper : c.isUpper = false := decide_eq_false fun h =>
    absurd (Nat.le_trans (UInt32.le_iff_toNat_le.1 h.1) hle) (by decide)
  have hlower : c.isLower = false := Bool.and_eq_false_iff.2 <| .inl <| decide_eq_false fun h =>
    absurd (Nat.le_trans (UInt32.le_iff_toNat_le.1 h) hle) (by decide)
  have halpha : c.isAlpha = false := Bool.or_eq_false_iff.2 ⟨hupper, hlower⟩
  have hne (d : Char) (hd : 57 < d.toNat ∨ d.toNat < 48) : (c == d) = false := by
    rw [beq_eq_false_iff_ne]
    rintro rfl
    omega
  rw [isIdentifierStart, Text.isLetter, if_pos (by omega), halpha, hne '_' (by decide),
    hne '$' (by decide), hne '@' (by decide)]
  rfl

end Scan

namespace Lexer

/-- The lexer stands before a piece of text in an expression, up to white space. -/
structure At (base : Nat) (ms : List Mode) (cs : List Char) (after : Bool) (l : Lexer) :
    Prop where
  rest : l.rest.dropWhile isSpace = cs.dropWhile isSpace
  modes : l.modes = ms
  pending : l.pending = none
  afterOperand : l.afterOperand = after
  baseDepth : l.baseDepth = base

/-- The innermost mode is one in which expressions are read. -/
def InExpression (ms : List Mode) : Prop := ms.head? = some .expression ∨ ms.head? = some .block

/-- Characters that no word goes on with. -/
def isStop (c : Char) : Bool :=
  isSpace c || c == '(' || c == ')' || c == ',' || c == ']' || c == '\x7d'

def EndsWord (cs : List Char) : Prop := ∀ c ∈ cs.head?, isStop c = true

/-- A piece of text, when something stands behind it, is read as tokens of these kinds. -/
def Spells (base : Nat) (ms : List Mode) (before : Bool) (cs : List Char) (ks : List TokenKind)
    (after : Bool) (rest : List Char) : Prop :=
  ∀ l, At base ms (cs ++ rest) before l → ∃ l', l.Reads ks l' ∧ At base ms rest after l'

variable {base : Nat} {ms : List Mode} {a b c : Bool} {us vs rest : List Char}
  {ks js : List TokenKind}

theorem Spells.append (hu : Spells base ms a us ks b (vs ++ rest))
    (hv : Spells base ms b vs js c rest) : Spells base ms a (us ++ vs) (ks ++ js) c rest := by
  intro l hl
  obtain ⟨l₁, h₁, hl₁⟩ := hu l (by rwa [List.append_assoc] at hl)
  obtain ⟨l₂, h₂, hl₂⟩ := hv l₁ hl₁
  exact ⟨l₂, h₁.append h₂, hl₂⟩

/-- Only white space. -/
def IsGap (cs : List Char) : Prop := ∀ c ∈ cs, isSpace c = true

theorem spells_gap (hgap : IsGap us) : Spells base ms a us [] a rest := by
  intro l hl
  have hskip : (us ++ rest).dropWhile isSpace = rest.dropWhile isSpace :=
    List.dropWhile_append_of_pos hgap
  exact ⟨l, .nil l, hl.rest.trans hskip, hl.modes, hl.pending, hl.afterOperand, hl.baseDepth⟩

theorem isGap_nil : IsGap [] := by simp [IsGap]

theorem isGap_space : IsGap [' '] := by
  intro c hc
  rw [List.mem_singleton.1 hc]
  rfl

theorem Spells.space (h : Spells base ms a us ks b rest) : Spells base ms a (' ' :: us) ks b rest :=
  (spells_gap isGap_space).append h

theorem InExpression.cases (hm : InExpression ms) (m : Mode) :
    ms.headD .start = m → m = .expression ∨ m = .block := by
  rintro rfl
  cases ms with
  | nil => rcases hm with h | h <;> cases h
  | cons m ms =>
    rcases hm with h | h
    · exact .inl (Option.some.inj h)
    · exact .inr (Option.some.inj h)

/-- One token: the lexer skips white space, and what it scans there is delivered. -/
theorem At.pull {l : Lexer} {cs : List Char} {ms' : List Mode} {x : Lexeme} {d : Char}
    (hl : At base ms cs a l) (hm : InExpression ms) (hd : cs.head? = some d)
    (hspace : isSpace d = false) (hisland : ∀ r, cs ≠ '$' :: '\x7b' :: r)
    (hscan : ∀ l₀ : Lexer, l₀.rest = cs → At base ms cs a l₀ →
      l₀.scanExpression = (.ok x, { l₀ with modes := ms' })) :
    ∃ t l', l.nextToken = (.ok t, l') ∧ t.kind = x.kind ∧ t.raw = x.raw ∧
      At base ms' (cs.drop x.length) (endsOperand (ms'.headD .start) x.kind) l' := by
  have hdrop : cs.dropWhile isSpace = cs := by
    cases cs with
    | nil => rfl
    | cons e cs =>
      obtain rfl := Option.some.inj hd
      simp [hspace]
  have hmode : l.mode = .expression ∨ l.mode = .block := by
    refine hm.cases l.mode ?_
    rw [mode, hl.modes]
  have hrest : l.rest.dropWhile isSpace = cs := hl.rest.trans hdrop
  obtain ⟨l₀, hskip, hr₀, hm₀, hat⟩ : ∃ l₀ : Lexer, l.skipSpace = l₀ ∧ l₀.rest = cs ∧
      l₀.mode = l.mode ∧ At base ms cs a l₀ := by
    have hr : l.skipSpace.rest = cs := by
      rcases hmode with h | h <;> simp [skipSpace, h, skipsSpace, hrest]
    have hafter : l.skipSpace.afterOperand = l.afterOperand := by
      rcases hmode with h | h <;> simp [skipSpace, h, skipsSpace]
    refine ⟨_, rfl, hr, by simp only [mode, skipSpace_modes], ⟨by rw [hr], ?_, ?_, ?_, ?_⟩⟩
    · rw [skipSpace_modes, hl.modes]
    · rw [skipSpace_pending, hl.pending]
    · rw [hafter, hl.afterOperand]
    · rw [skipSpace_baseDepth]
      exact hl.baseDepth
  have hscan := hscan l₀ hr₀ hat
  have hne : l₀.rest.isEmpty = false := by
    rw [hr₀]
    cases cs with
    | nil => cases hd
    | cons e cs => rfl
  have hopen : l₀.openIsland? = none := by
    unfold openIsland?
    split
    · next r h => exact absurd (hr₀.symm.trans h) (hisland r)
    · rfl
  have hfound : l.scan = (.ok x, { l₀ with modes := ms' }) := by
    simp only [scan, hskip, hne, Bool.false_eq_true, if_false, hopen, hscan]
    rw [← hm₀] at hmode
    rcases hmode with h | h <;> simp only [h]
  refine ⟨({ l₀ with modes := ms' }.deliver x).1, ({ l₀ with modes := ms' }.deliver x).2, ?_, rfl,
    rfl, ?_⟩
  · simp only [nextToken, hl.pending, hfound]
  · exact ⟨by simp only [deliver, hr₀], rfl, hat.pending, rfl, hat.baseDepth⟩

theorem At.next {l : Lexer} {cs : List Char} {ms' : List Mode} {x : Lexeme} {d : Char}
    (hl : At base ms cs a l) (hm : InExpression ms) (hd : cs.head? = some d)
    (hspace : isSpace d = false) (hisland : ∀ r, cs ≠ '$' :: '\x7b' :: r)
    (hscan : ∀ l₀ : Lexer, l₀.rest = cs → At base ms cs a l₀ →
      l₀.scanExpression = (.ok x, { l₀ with modes := ms' }))
    (hx : x.kind ≠ .eof) :
    ∃ l', l.Reads [x.kind] l' ∧
      At base ms' (cs.drop x.length) (endsOperand (ms'.headD .start) x.kind) l' := by
  obtain ⟨t, l', next, kind, -, behind⟩ := hl.pull hm hd hspace hisland hscan
  rw [← kind] at hx ⊢
  exact ⟨l', .cons next hx (.nil l'), kind ▸ behind⟩

/-- A token that leaves the modes as they are. -/
theorem spells_of_scan {x : Lexeme} {d : Char} (hm : InExpression ms) (hd : us.head? = some d)
    (hspace : isSpace d = false) (hisland : ∀ r, us ++ rest ≠ '$' :: '\x7b' :: r)
    (hscan : ∀ l₀ : Lexer, l₀.rest = us ++ rest → At base ms (us ++ rest) a l₀ →
      l₀.scanExpression = (.ok x, l₀))
    (hx : x.kind ≠ .eof) (hlength : x.length = us.length)
    (hb : endsOperand (ms.headD .start) x.kind = b) : Spells base ms a us [x.kind] b rest := by
  intro l hl
  have hd' : (us ++ rest).head? = some d := by
    cases us with
    | nil => cases hd
    | cons e us => exact hd
  have hscan' (l₀ : Lexer) (hr₀ : l₀.rest = us ++ rest) (hat : At base ms (us ++ rest) a l₀) :
      l₀.scanExpression = (.ok x, { l₀ with modes := ms }) := by
    have hmodes : { l₀ with modes := ms } = l₀ := by rw [← hat.modes]
    rw [hmodes]
    exact hscan l₀ hr₀ hat
  obtain ⟨l', h, hat⟩ := hl.next hm hd' hspace hisland hscan' hx
  rw [hlength, List.drop_left, hb] at hat
  exact ⟨l', h, hat⟩

theorem spells_word {k : TokenKind} (raw : Option String) (hm : InExpression ms) {d : Char}
    (hd : us.head? = some d) (hspace : isSpace d = false)
    (hisland : ∀ r, us ++ rest ≠ '$' :: '\x7b' :: r)
    (hword : ∀ l₀ : Lexer, l₀.rest = us ++ rest → l₀.afterOperand = a →
      l₀.word? = some ⟨k, raw, us.length⟩)
    (hk : k.isUnmarked) (hb : endsOperand (ms.headD .start) k = b) :
    Spells base ms a us [k] b rest := by
  refine spells_of_scan (x := ⟨k, raw, us.length⟩) hm hd hspace hisland ?_ ?_ rfl hb
  · exact fun l₀ hr hat => scanExpression_of_word (hword l₀ hr hat.afterOperand)
  · rintro rfl
    cases hk

def stops : List Char := [' ', '\t', '\r', '\n', '(', ')', ',', ']', '\x7d']

theorem isStop_iff {c : Char} : isStop c = true ↔ c ∈ stops := by
  simp only [isStop, isSpace, stops, Bool.or_eq_true, beq_iff_eq, or_assoc, List.mem_cons,
    List.not_mem_nil, or_false]

theorem EndsWord.not_part (h : EndsWord rest) :
    ∀ c ∈ rest.head?, Scan.isIdentifierPart c = false := by
  have hpart : ∀ c ∈ stops, Scan.isIdentifierPart c = false :=
    List.forall_iff_forall_mem.1 (by decide)
  exact fun c hc => hpart c (isStop_iff.1 (h c hc))

theorem EndsWord.endsNumeral (h : EndsWord rest) : Scan.EndsNumeral rest := by
  have hnumeral : ∀ c ∈ stops, c.isDigit = false ∧ c ≠ '.' ∧ c ≠ 'e' ∧ c ≠ 'E' :=
    List.forall_iff_forall_mem.1 (by decide)
  exact fun c hc => hnumeral c (isStop_iff.1 (h c hc))

theorem takeWhile_boundary {p : Char → Bool} {cs : List Char} (hcs : ∀ c ∈ cs, p c = true)
    (hrest : ∀ c ∈ rest.head?, p c = false) : (cs ++ rest).takeWhile p = cs := by
  rw [List.takeWhile_append_of_pos hcs]
  cases rest with
  | nil => simp
  | cons c rest => simp [hrest c rfl]

theorem isSpace_of_isIdentifierStart {c : Char} (h : Scan.isIdentifierStart c = true) :
    isSpace c = false := by
  rw [Bool.eq_false_iff]
  intro hspace
  simp only [isSpace, Bool.or_eq_true, beq_iff_eq] at hspace
  rcases hspace with ((rfl | rfl) | rfl) | rfl <;> cases h

theorem keyword?_name {name : String} (h : IsName name) (hrest : EndsWord rest) :
    Scan.keyword? (name.toList ++ rest) = none := by
  obtain ⟨⟨d, cs, hname, hd, hcs⟩, hkeyword⟩ := h
  simp only [Scan.keyword?, Option.map_eq_none_iff, List.find?_eq_none]
  intro k hk
  rw [Scan.matchesWord_append (Scan.keywords_length_pos k hk) (Scan.keywords_letters k hk)
    (by rw [hname]; exact hcs) hrest.not_part, beq_iff_eq]
  exact hkeyword k hk

theorem spells_name {name : String} (hm : InExpression ms) (h : IsName name)
    (hrest : EndsWord rest) : Spells base ms a name.toList [.identifier name] true rest := by
  obtain ⟨d, cs, hname, hd, hcs⟩ := h.1
  have hhead : name.toList.head? = some d := by rw [hname]; rfl
  refine spells_word none hm hhead (isSpace_of_isIdentifierStart hd) ?_ ?_ rfl rfl
  · intro r hr
    rw [hname] at hr
    obtain ⟨rfl, hbehind⟩ := List.cons.inj hr
    cases cs with
    | nil =>
      have hstop := hrest '\x7b' (congrArg List.head? hbehind)
      cases hstop
    | cons c cs =>
      have hpart := hcs c (by simp)
      rw [(List.cons.inj hbehind).1] at hpart
      cases hpart
  · intro l₀ hr _
    have htake := takeWhile_boundary hcs hrest.not_part
    have hword : Scan.identifier? (name.toList ++ rest) =
        some ⟨.identifier name, none, name.toList.length⟩ := by
      simp only [hname, List.cons_append, Scan.identifier?, if_pos hd, htake]
      rw [← hname, String.ofList_toList]
    simp only [word?, hr, keyword?_name h hrest, hword]
    rfl

/-- What the numeral scanner finds where no name starts. -/
theorem spells_of_number? {x : Float} {d : Char} (hm : InExpression ms) (hd : us.head? = some d)
    (hstart : Scan.isIdentifierStart d = false) (hspace : isSpace d = false)
    (hnumber : Scan.number? a (us ++ rest) =
      some ⟨.number x, some (String.ofList us), us.length⟩) :
    Spells base ms a us [.number x] true rest := by
  obtain ⟨cs, rfl⟩ : ∃ cs, us = d :: cs := by
    cases us with
    | nil => cases hd
    | cons e cs => exact ⟨cs, by rw [Option.some.inj hd]⟩
  refine spells_word (some (String.ofList (d :: cs))) hm rfl hspace ?_ ?_ rfl rfl
  · intro r hr
    rw [(List.cons.inj hr).1] at hstart
    cases hstart
  · intro l₀ hr hafter
    have hkeyword : Scan.keyword? (d :: cs ++ rest) = none := Scan.keyword?_eq_none hstart
    have hidentifier : Scan.identifier? (d :: cs ++ rest) = none :=
      Scan.identifier?_eq_none hstart
    simp only [word?, hr, hafter, hkeyword, hidentifier, hnumber]
    rfl

theorem isSpace_of_isDigit {c : Char} (hc : c.isDigit = true) : isSpace c = false := by
  rw [Bool.eq_false_iff]
  intro hspace
  simp only [isSpace, Bool.or_eq_true, beq_iff_eq] at hspace
  rcases hspace with ((rfl | rfl) | rfl) | rfl <;> cases hc

theorem spells_number {x : Float} (hm : InExpression ms) (h : Number.ReadsBack x)
    (hrest : EndsWord rest) :
    Spells base ms false (Number.chars x) [.number (if Number.isZero x then 0 else x)] true
      rest := by
  obtain ⟨c, cs, hchars, hc⟩ := Number.chars_head h
  have hstart : Scan.isIdentifierStart c = false := by
    rcases hc with rfl | hc
    · rfl
    · exact Scan.isIdentifierStart_of_isDigit hc
  have hspace : isSpace c = false := by
    rcases hc with rfl | hc
    · rfl
    · exact isSpace_of_isDigit hc
  have hhead : (Number.chars x).head? = some c := by rw [hchars]; rfl
  exact spells_of_number? hm hhead hstart hspace (Number.number?_chars h hrest.endsNumeral)

theorem spells_numeral {cs : List Char} (hm : InExpression ms) (h : Scan.IsNumeral cs)
    (hrest : Scan.EndsNumeral rest) :
    Spells base ms a cs [.number (Number.value h)] true rest := by
  obtain ⟨c, ds, hcs, hc⟩ := Number.IsNumeral.head h
  have hhead : cs.head? = some c := by rw [hcs]; rfl
  exact spells_of_number? hm hhead (Scan.isIdentifierStart_of_isDigit hc) (isSpace_of_isDigit hc)
    (Number.number?_numeral h a hrest)

theorem spells_literal (v : Literal) (hm : InExpression ms) (hrest : EndsWord rest) :
    Spells base ms a v.word [v.token] true rest := by
  have hend : rest.head?.any Scan.isIdentifierPart = false := by
    cases rest with
    | nil => rfl
    | cons c rest => exact hrest.not_part c rfl
  have hkeyword : Scan.keyword? (v.word ++ rest) =
      some ⟨v.token, some (String.ofList v.word), v.word.length⟩ := by
    rcases v with _ | _ | (_ | _) <;>
      simpa [Scan.keyword?, Scan.keywords, Scan.matchesWord, Number.asciiLower, Literal.word,
        Literal.token, List.head?_eq_getElem?] using hend
  have hword (l₀ : Lexer) (hr : l₀.rest = v.word ++ rest) (_ : l₀.afterOperand = a) :
      l₀.word? = some ⟨v.token, some (String.ofList v.word), v.word.length⟩ := by
    simp only [word?, hr, hkeyword]
    rfl
  rcases v with _ | _ | (_ | _) <;>
    exact spells_word _ hm rfl rfl (by simp [Literal.word]) hword rfl rfl

theorem word?_eq_none {l : Lexer} {d : Char} {cs : List Char} (hr : l.rest = d :: cs)
    (hd : Scan.isIdentifierStart d = false)
    (hnumeral : Scan.numeralChars l.afterOperand (d :: cs) = []) : l.word? = none := by
  have hnumber : Scan.number? l.afterOperand (d :: cs) = none := by
    simp [Scan.number?, hnumeral]
  simp only [word?, hr, Scan.keyword?_eq_none hd, Scan.identifier?_eq_none hd, hnumber]
  rfl

theorem spells_text (s : String) (hm : InExpression ms) :
    Spells base ms a (Json.quote s.toList) [.text s] true rest := by
  refine spells_of_scan (d := '"')
    (x := ⟨.text s, some (String.ofList (Json.quote s.toList)), (Json.quote s.toList).length⟩)
    hm rfl rfl (by simp [Json.quote]) ?_ TokenKind.noConfusion rfl rfl
  intro l₀ hr hat
  refine scanExpression_of_quoted (word?_eq_none hr rfl rfl) ?_
  rw [hr]
  exact Json.quoted?_quote s rest

/-- What must be known of a punctuator to read it from in front of some text. -/
structure Punctuates (p : String) (rest : List Char) : Prop where
  head : ∃ d ds, p.toList = d :: ds ∧ Scan.isIdentifierStart d = false ∧ isSpace d = false ∧
    d ≠ '"' ∧ d ≠ '\''
  no_numeral : ∀ after, Scan.numeralChars after (p.toList ++ rest) = []
  longest : Scan.punctuator? (p.toList ++ rest) = some ⟨.punctuator p, none, p.toList.length⟩

theorem Punctuates.scanExpression {p : String} (h : Punctuates p rest) {l : Lexer}
    (hr : l.rest = p.toList ++ rest) :
    l.scanExpression = l.settle ⟨.punctuator p, none, p.toList.length⟩ := by
  obtain ⟨d, ds, hp, hd, _, hdouble, hsingle⟩ := h.head
  have spread : p.toList ++ rest = d :: (ds ++ rest) := by rw [hp, List.cons_append]
  refine scanExpression_of_sign (word?_eq_none (hr.trans spread) hd ?_) ?_ ?_
  · rw [← spread]
    exact h.no_numeral l.afterOperand
  · simp [hr, spread, Scan.quoted?, hdouble, hsingle]
  · rw [hr]
    exact h.longest

theorem Punctuates.no_island {p : String} (h : Punctuates p rest) (r : List Char) :
    p.toList ++ rest ≠ '$' :: '\x7b' :: r := by
  obtain ⟨d, ds, hp, hd, _⟩ := h.head
  rw [hp]
  intro hr
  rw [(List.cons.inj hr).1] at hd
  cases hd

theorem settle_of_plain {p : String} {n : Nat} {l : Lexer} (hm : InExpression l.modes)
    (hopen : p ≠ "\x7b") (hclose : p ≠ "\x7d") :
    l.settle ⟨.punctuator p, none, n⟩ = (.ok ⟨.punctuator p, none, n⟩, l) := by
  have hmode := hm.cases l.mode rfl
  simp only [settle, TokenKind.isPunctuator, beq_iff_eq, if_neg hopen, if_neg hclose]
  rcases hmode with h | h <;> simp [h]

theorem spells_punct {p : String} (hm : InExpression ms) (h : Punctuates p rest)
    (hopen : p ≠ "\x7b") (hclose : p ≠ "\x7d") (htick : p ≠ String.singleton Scan.backtick) :
    Spells base ms a p.toList [.punctuator p] (p == ")" || p == "]") rest := by
  obtain ⟨d, ds, hp, _, hspace, _⟩ := h.head
  refine spells_of_scan (x := ⟨.punctuator p, none, p.toList.length⟩) hm (by rw [hp]; rfl) hspace
    h.no_island ?_ TokenKind.noConfusion rfl ?_
  · intro l₀ hr hat
    rw [h.scanExpression hr]
    exact settle_of_plain (by rwa [hat.modes]) hopen hclose
  · simp [endsOperand, beq_eq_false_iff_ne.2 hclose, beq_eq_false_iff_ne.2 htick]

theorem punctuates_bracket {p : String} (hp : p ∈ ["(", ")", "[", "]", ",", ":", "?"]) :
    Punctuates p rest := by
  simp only [List.mem_cons, List.not_mem_nil, or_false] at hp
  rcases hp with rfl | rfl | rfl | rfl | rfl | rfl | rfl <;>
    exact ⟨⟨_, _, rfl, by decide⟩, fun after => by cases after <;> rfl, rfl⟩

theorem punctuates_binary (op : BinaryOp) : Punctuates op.symbol (' ' :: rest) := by
  cases op <;> exact ⟨⟨_, _, rfl, by decide⟩, fun after => by cases after <;> rfl, rfl⟩

theorem punctuates_unary (op : UnaryOp) : Punctuates op.symbol ('(' :: rest) := by
  cases op <;> exact ⟨⟨_, _, rfl, by decide⟩, fun after => by cases after <;> rfl, rfl⟩

theorem punctuates_arrow : Punctuates "=" ('>' :: rest) ∧ Punctuates ">" (' ' :: rest) := by
  constructor <;> exact ⟨⟨_, _, rfl, by decide⟩, fun after => by cases after <;> rfl, rfl⟩

theorem punctuates_brace : Punctuates "\x7b" rest ∧ Punctuates "\x7d" rest := by
  constructor <;> exact ⟨⟨_, _, rfl, by decide⟩, fun after => by cases after <;> rfl, rfl⟩

theorem spells_bracket {p : String} {d : Char} (hm : InExpression ms)
    (hp : p ∈ ["(", ")", "[", "]", ",", ":", "?"]) (hd : p.toList = [d]) :
    Spells base ms a [d] [.punctuator p] (p == ")" || p == "]") rest := by
  have htick : p ≠ String.singleton Scan.backtick := by
    rintro rfl
    exact absurd hp (by decide)
  have hopen : p ≠ "\x7b" := by
    rintro rfl
    exact absurd hp (by decide)
  have hclose : p ≠ "\x7d" := by
    rintro rfl
    exact absurd hp (by decide)
  rw [← hd]
  exact spells_punct hm (punctuates_bracket hp) hopen hclose htick

open Written

theorem spells_group (hm : InExpression ms) (h : Spells base ms false us ks true (')' :: rest)) :
    Spells base ms a (group us) (groupTokens ks) true rest := by
  have hopen : Spells base ms a ['('] [punct "("] false (us ++ [')'] ++ rest) :=
    spells_bracket hm (by decide) rfl
  have hclose : Spells base ms true [')'] [punct ")"] true rest :=
    spells_bracket hm (by decide) rfl
  exact hopen.append (h.append hclose)

/-- The item is read as its tokens in front of whatever ends a word. -/
def SpellsItem (base : Nat) (ms : List Mode) (us : List Char) (ks : List TokenKind) : Prop :=
  ∀ rest, EndsWord rest → Spells base ms false us ks true rest

theorem endsWord_cons {c : Char} (hc : isStop c = true) (rest : List Char) :
    EndsWord (c :: rest) := by
  rintro _ ⟨⟩
  exact hc

theorem endsWord_gap {gap : List Char} (hgap : IsGap gap) (hrest : EndsWord rest) :
    EndsWord (gap ++ rest) := by
  cases gap with
  | nil => exact hrest
  | cons c gap =>
    refine endsWord_cons ?_ _
    simp [isStop, hgap c (by simp)]

theorem spells_separated {gap : List Char} (hgap : IsGap gap) {items : List (List Char)}
    {kss : List (List TokenKind)} (hm : InExpression ms)
    (h : List.Forall₂ (SpellsItem base ms) items kss) (hne : items ≠ []) (hrest : EndsWord rest) :
    Spells base ms false (Text.join (',' :: gap) items) (separated kss) true rest := by
  induction h with
  | nil => exact absurd rfl hne
  | @cons us ks items kss hitem hitems ih =>
    cases hitems with
    | nil => exact hitem rest hrest
    | @cons vs js items kss hnext hitems =>
      have hmore := (spells_gap (a := false) hgap).append (ih (List.cons_ne_nil _ _))
      have hcomma : Spells base ms true [','] [punct ","] false
          (gap ++ Text.join (',' :: gap) (vs :: items) ++ rest) :=
        spells_bracket hm (by decide) rfl
      have hfirst := (hitem (',' :: (gap ++ Text.join (',' :: gap) (vs :: items)) ++ rest)
        (endsWord_cons rfl _)).append (hcomma.append hmore)
      simpa only [Text.join, separated, List.cons_append, List.nil_append, List.append_assoc]
        using hfirst

/-- What stands between two brackets. -/
theorem spells_between {lead gap post : List Char} {items : List (List Char)}
    {kss : List (List TokenKind)} {closing : Char} (hm : InExpression ms) (hlead : IsGap lead)
    (hgap : IsGap gap) (hpost : IsGap post) (hclosing : isStop closing = true)
    (h : List.Forall₂ (SpellsItem base ms) items kss) :
    ∃ b, Spells base ms false (lead ++ (Text.join (',' :: gap) items ++ post)) (separated kss) b
      (closing :: rest) := by
  cases h with
  | nil => exact ⟨false, (spells_gap hlead).append (spells_gap hpost)⟩
  | cons hitem hitems =>
    have hends : EndsWord (post ++ closing :: rest) :=
      endsWord_gap hpost (endsWord_cons hclosing rest)
    have hitems := spells_separated hgap hm (.cons hitem hitems) (List.cons_ne_nil _ _) hends
    have hall := (spells_gap hlead).append (hitems.append (spells_gap hpost))
    rw [List.append_nil] at hall
    exact ⟨true, hall⟩

theorem spells_spaced {opening closing : Char} {lead gap post : List Char} {p q : String}
    {items : List (List Char)} {kss : List (List TokenKind)} (hm : InExpression ms)
    (hlead : IsGap lead) (hgap : IsGap gap) (hpost : IsGap post)
    (h : List.Forall₂ (SpellsItem base ms) items kss)
    (hpq : (opening = '(' ∧ closing = ')' ∧ p = "(" ∧ q = ")") ∨
      (opening = '[' ∧ closing = ']' ∧ p = "[" ∧ q = "]")) :
    Spells base ms a (spaced opening closing lead gap post items) (listedTokens p q kss) true
      rest := by
  have hopen (rest : List Char) : Spells base ms a [opening] [punct p] false rest := by
    rcases hpq with ⟨rfl, rfl, rfl, rfl⟩ | ⟨rfl, rfl, rfl, rfl⟩ <;>
      exact spells_bracket hm (by decide) rfl
  have hclose (b : Bool) : Spells base ms b [closing] [punct q] true rest := by
    rcases hpq with ⟨rfl, rfl, rfl, rfl⟩ | ⟨rfl, rfl, rfl, rfl⟩ <;>
      exact spells_bracket hm (by decide) rfl
  have hclosing : isStop closing = true := by
    rcases hpq with ⟨-, rfl, -⟩ | ⟨-, rfl, -⟩ <;> rfl
  obtain ⟨b, hinner⟩ := spells_between hm hlead hgap hpost hclosing h
  have hall := (hopen _).append (hinner.append (hclose b))
  simpa only [spaced, listedTokens, List.append_assoc, List.cons_append, List.nil_append] using hall

theorem spells_listed {opening closing : Char} {p q : String} {items : List (List Char)}
    {kss : List (List TokenKind)} (hm : InExpression ms)
    (h : List.Forall₂ (SpellsItem base ms) items kss)
    (hpq : (opening = '(' ∧ closing = ')' ∧ p = "(" ∧ q = ")") ∨
      (opening = '[' ∧ closing = ']' ∧ p = "[" ∧ q = "]")) :
    Spells base ms a (listed opening closing items) (listedTokens p q kss) true rest := by
  rw [listed_eq_spaced]
  exact spells_spaced hm isGap_nil isGap_space isGap_nil h hpq

theorem spells_openBrace (hm : InExpression ms) {l : Lexer} {cs : List Char}
    (hl : At base ms ('\x7b' :: cs) a l) :
    ∃ l', l.Reads [punct "\x7b"] l' ∧ At base (.block :: ms) cs false l' := by
  have hscan (l₀ : Lexer) (hr : l₀.rest = '\x7b' :: cs) (hat : At base ms ('\x7b' :: cs) a l₀) :
      l₀.scanExpression =
        (.ok ⟨punct "\x7b", none, 1⟩, { l₀ with modes := .block :: ms }) := by
    rw [punctuates_brace.1.scanExpression hr, ← hat.modes]
    rfl
  exact hl.next hm rfl rfl (by simp) hscan TokenKind.noConfusion

theorem spells_closeBrace (hbase : base ≤ ms.length) {l : Lexer}
    {cs : List Char} (hl : At base (.block :: ms) ('\x7d' :: cs) a l) :
    ∃ l', l.Reads [punct "\x7d"] l' ∧ At base ms cs true l' := by
  have hscan (l₀ : Lexer) (hr : l₀.rest = '\x7d' :: cs)
      (hat : At base (.block :: ms) ('\x7d' :: cs) a l₀) :
      l₀.scanExpression = (.ok ⟨punct "\x7d", none, 1⟩, { l₀ with modes := ms }) := by
    rw [punctuates_brace.2.scanExpression hr]
    exact closeBrace_above rfl hat.modes (by decide) (hat.baseDepth ▸ hbase)
  exact hl.next (.inr rfl) rfl rfl (by simp) hscan TokenKind.noConfusion

theorem spells_object {lead gap post : List Char} {items : List (List Char)}
    {kss : List (List TokenKind)} (hm : InExpression ms) (hbase : base ≤ ms.length)
    (hlead : IsGap lead) (hgap : IsGap gap) (hpost : IsGap post)
    (h : List.Forall₂ (SpellsItem base (.block :: ms)) items kss) :
    Spells base ms a (spaced '\x7b' '\x7d' lead gap post items) (listedTokens "\x7b" "\x7d" kss)
      true rest := by
  intro l hl
  simp only [spaced, List.cons_append, List.append_assoc, List.nil_append] at hl
  obtain ⟨l₁, h₁, hl₁⟩ := spells_openBrace hm hl
  have hclosing : isStop '\x7d' = true := rfl
  obtain ⟨b, hinner⟩ := spells_between (.inr rfl) hlead hgap hpost hclosing h
  obtain ⟨l₂, h₂, hl₂⟩ := hinner l₁ (by simpa only [List.append_assoc] using hl₁)
  obtain ⟨l₃, h₃, hl₃⟩ := spells_closeBrace hbase hl₂
  exact ⟨l₃, h₁.append (h₂.append h₃), hl₃⟩

theorem endsWord_parenthesis (rest : List Char) : EndsWord (')' :: rest) := endsWord_cons rfl rest

theorem spells_item_group (hm : InExpression ms)
    (h : ∀ rest, Spells base ms false us ks true (')' :: rest)) :
    SpellsItem base ms (group us) (groupTokens ks) :=
  fun _ _ => spells_group hm (h _)

theorem spells_member {gap : List Char} (s : String) (hm : InExpression ms) (hgap : IsGap gap)
    (h : SpellsItem base ms us ks) :
    SpellsItem base ms (Json.quote s.toList ++ ':' :: gap ++ us)
      ([.text s] ++ punct ":" :: ks) := by
  intro rest hrest
  have hvalue : Spells base ms false (gap ++ us) ks true rest :=
    (spells_gap hgap).append (h rest hrest)
  have hcolon : Spells base ms true [':'] [punct ":"] false (gap ++ us ++ rest) :=
    spells_bracket hm (by decide) rfl
  have hkey := (spells_text (a := false) s hm).append (hcolon.append hvalue)
  simpa only [List.append_assoc, List.cons_append, List.nil_append] using hkey

theorem spells_parameters {params : List String} (hm : InExpression ms)
    (hp : ∀ p ∈ params, IsName p) :
    List.Forall₂ (SpellsItem base ms) (params.map String.toList)
      (params.map fun p => [.identifier p]) := by
  rw [List.forall₂_map_left_iff, List.forall₂_map_right_iff, List.forall₂_same]
  exact fun p hmem rest hrest => spells_name hm (hp p hmem) hrest

theorem spells_arrow (hm : InExpression ms) (h : Spells base ms false us ks true (')' :: rest)) :
    Spells base ms true ([' ', '=', '>', ' '] ++ group us)
      (punct "=" :: punct ">" :: groupTokens ks) true rest := by
  have hgroup : Spells base ms false (' ' :: group us) (groupTokens ks) true rest :=
    (spells_group hm h).space
  have hequal : Spells base ms true ['='] [punct "="] false ('>' :: ' ' :: group us ++ rest) :=
    spells_punct hm punctuates_arrow.1 (by decide) (by decide) (by decide)
  have hgreater : Spells base ms false ['>'] [punct ">"] false (' ' :: group us ++ rest) :=
    spells_punct hm punctuates_arrow.2 (by decide) (by decide) (by decide)
  exact (hequal.append (hgreater.append hgroup)).space

theorem spells_operator (op : BinaryOp) (hm : InExpression ms)
    (h : Spells base ms false us ks true (')' :: rest)) :
    Spells base ms true (' ' :: op.symbol.toList ++ ' ' :: group us)
      (punct op.symbol :: groupTokens ks) true rest := by
  have hgroup : Spells base ms false (' ' :: group us) (groupTokens ks) true rest :=
    (spells_group hm h).space
  have hsymbol : Spells base ms true op.symbol.toList [punct op.symbol] false
      (' ' :: group us ++ rest) := by
    have hends : (op.symbol == ")" || op.symbol == "]") = false := by cases op <;> rfl
    rw [← hends]
    exact spells_punct hm (punctuates_binary op)
      (by cases op <;> decide) (by cases op <;> decide) (by cases op <;> decide)
  exact (hsymbol.append hgroup).space

theorem spells_signed (op : UnaryOp) (hm : InExpression ms)
    (h : Spells base ms false us ks true (')' :: rest)) :
    Spells base ms false (op.symbol.toList ++ group us) (punct op.symbol :: groupTokens ks) true
      rest := by
  have hgroup : Spells base ms false (group us) (groupTokens ks) true rest := spells_group hm h
  have hsymbol : Spells base ms false op.symbol.toList [punct op.symbol] false
      (group us ++ rest) := by
    have hends : (op.symbol == ")" || op.symbol == "]") = false := by cases op <;> rfl
    rw [← hends]
    exact spells_punct hm (punctuates_unary op)
      (by cases op <;> decide) (by cases op <;> decide) (by cases op <;> decide)
  exact hsymbol.append hgroup

theorem spells_branch {d : Char} {p : String} (hp : d = '?' ∧ p = "?" ∨ d = ':' ∧ p = ":")
    (hm : InExpression ms) (h : Spells base ms false us ks true (')' :: rest)) :
    Spells base ms true ([' ', d, ' '] ++ group us) (punct p :: groupTokens ks) true rest := by
  have hgroup : Spells base ms false (' ' :: group us) (groupTokens ks) true rest :=
    (spells_group hm h).space
  have hmark : Spells base ms true [d] [punct p] false (' ' :: group us ++ rest) := by
    rcases hp with ⟨rfl, rfl⟩ | ⟨rfl, rfl⟩ <;> exact spells_bracket hm (by decide) rfl
  exact (hmark.append hgroup).space

theorem spells_groups {es : List Expr} (hm : InExpression ms)
    (h : ∀ e ∈ es, ∀ rest, Spells base ms false e.written e.tokens true (')' :: rest)) :
    List.Forall₂ (SpellsItem base ms) (writtenGroups es) (tokenGroups es) := by
  rw [writtenGroups_eq_map, tokenGroups_eq_map, List.forall₂_map_left_iff,
    List.forall₂_map_right_iff, List.forall₂_same]
  exact fun e he => spells_item_group hm (h e he)

theorem spells_members {members : List (String × Expr)} (hm : InExpression ms)
    (h : ∀ m ∈ members, ∀ rest,
      Spells base ms false m.2.written m.2.tokens true (')' :: rest)) :
    List.Forall₂ (SpellsItem base ms)
      (writtenMembers (members.map fun m => (.text m.1, m.2)))
      (tokenMembers (members.map fun m => (.text m.1, m.2))) := by
  rw [writtenMembers_eq_map, tokenMembers_eq_map, List.forall₂_map_left_iff,
    List.forall₂_map_right_iff, List.forall₂_same]
  exact fun m hmem => spells_member m.1 hm isGap_space (spells_item_group hm (h m hmem))

/-- The lexer reads a written expression as the tokens of the expression. -/
theorem spells_written {e : Expr} (he : e.Plain) {ms : List Mode} {rest : List Char}
    (hm : InExpression ms) (hbase : base ≤ ms.length) (hrest : EndsWord rest) :
    Spells base ms false e.written e.tokens true rest := by
  induction he generalizing ms rest with
  | named h =>
    simpa only [Expr.written, Expr.tokens] using spells_name hm h hrest
  | number h =>
    simpa only [Expr.written, Expr.tokens] using spells_number hm h hrest
  | text s =>
    simpa only [Expr.written, Expr.tokens] using spells_text s hm
  | literal v =>
    simpa only [Expr.written, Expr.tokens] using spells_literal v hm hrest
  | array h ih =>
    have hitems := spells_groups hm fun e he _ => ih e he hm hbase (endsWord_parenthesis _)
    simpa only [Expr.written, Expr.tokens] using
      spells_listed hm hitems (.inr ⟨rfl, rfl, rfl, rfl⟩)
  | object h ih =>
    have hblock : InExpression (.block :: ms) := .inr rfl
    have hitems := spells_members hblock fun m hmem _ =>
      ih m hmem hblock (Nat.le_succ_of_le hbase) (endsWord_parenthesis _)
    simpa only [Expr.written, Expr.tokens, listed_eq_spaced] using
      spells_object hm hbase isGap_nil isGap_space isGap_nil hitems
  | @getter host key _ _ ihh ihk =>
    have hhost (rest : List Char) :
        Spells base ms false (group host.written) (groupTokens host.tokens) true rest :=
      spells_group hm (ihh hm hbase (endsWord_parenthesis _))
    have hopen (rest : List Char) : Spells base ms true ['['] [punct "["] false rest :=
      spells_bracket hm (by decide) rfl
    have hkey (rest : List Char) :
        Spells base ms false (group key.written) (groupTokens key.tokens) true rest :=
      spells_group hm (ihk hm hbase (endsWord_parenthesis _))
    have hclose : Spells base ms true [']'] [punct "]"] true rest :=
      spells_bracket hm (by decide) rfl
    simpa only [Expr.written, Expr.tokens, List.append_assoc, List.cons_append, List.nil_append]
      using (hhost _).append ((hopen _).append ((hkey _).append hclose))
  | unary op _ ih =>
    simpa only [Expr.written, Expr.tokens] using
      spells_signed op hm (ih hm hbase (endsWord_parenthesis _))
  | @binary op left right _ _ ihl ihr =>
    have hleft (rest : List Char) :
        Spells base ms false (group left.written) (groupTokens left.tokens) true rest :=
      spells_group hm (ihl hm hbase (endsWord_parenthesis _))
    have hright := spells_operator op hm (ihr hm hbase (endsWord_parenthesis rest))
    simpa only [Expr.written, Expr.tokens, List.append_assoc, List.cons_append] using
      (hleft _).append hright
  | @conditional t c a _ _ _ iht ihc iha =>
    have htest (rest : List Char) :
        Spells base ms false (group t.written) (groupTokens t.tokens) true rest :=
      spells_group hm (iht hm hbase (endsWord_parenthesis _))
    have hthen (rest : List Char) : Spells base ms true ([' ', '?', ' '] ++ group c.written)
        (punct "?" :: groupTokens c.tokens) true rest :=
      spells_branch (.inl ⟨rfl, rfl⟩) hm (ihc hm hbase (endsWord_parenthesis _))
    have helse := spells_branch (.inr ⟨rfl, rfl⟩) hm (iha hm hbase (endsWord_parenthesis rest))
    simpa only [Expr.written, Expr.tokens, List.append_assoc, List.cons_append, List.nil_append]
      using (htest _).append ((hthen _).append helse)
  | @call name es hn h ih =>
    have hitems := spells_groups hm fun e he _ => ih e he hm hbase (endsWord_parenthesis _)
    have hargs : Spells base ms true (listed '(' ')' (writtenGroups es))
        (listedTokens "(" ")" (tokenGroups es)) true rest :=
      spells_listed hm hitems (.inl ⟨rfl, rfl, rfl, rfl⟩)
    have hends : EndsWord (listed '(' ')' (writtenGroups es) ++ rest) := by
      rintro _ ⟨⟩
      rfl
    have hname : Spells base ms false name.toList [.identifier name] true _ :=
      spells_name hm hn hends
    simpa only [Expr.written, Expr.tokens, List.cons_append, List.nil_append] using
      hname.append hargs
  | sequence hlen h ih =>
    have hitems := spells_groups hm fun e he _ => ih e he hm hbase (endsWord_parenthesis _)
    simpa only [Expr.written, Expr.tokens] using
      spells_listed hm hitems (.inl ⟨rfl, rfl, rfl, rfl⟩)
  | @function params body hp h ih =>
    have hparams (rest : List Char) : Spells base ms false
        (listed '(' ')' (params.map String.toList))
        (listedTokens "(" ")" (params.map fun p => [.identifier p])) true rest :=
      spells_listed hm (spells_parameters hm hp) (.inl ⟨rfl, rfl, rfl, rfl⟩)
    have hbody := spells_arrow hm (ih hm hbase (endsWord_parenthesis rest))
    simpa only [Expr.written, Expr.tokens, List.append_assoc, List.cons_append, List.nil_append]
      using (hparams _).append hbody

end Lexer

end TemplateFormula
