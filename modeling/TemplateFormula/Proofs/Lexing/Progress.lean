import TemplateFormula.Proofs.Lexing.Outcomes

/-!
# Progress of the lexer

Every lexeme but the end of the text takes at least one character, and none takes more than there
are. So one pull more than there are characters reaches the end of the text or an error, and more
pulls than that find nothing else.
-/

namespace TemplateFormula

/-- A lexeme that is not the end of the text takes some of the characters that it stands at. -/
structure Lexeme.Takes (x : Lexeme) (cs : List Char) : Prop where
  kind_ne : x.kind ≠ .eof
  pos : 0 < x.length
  length_le : x.length ≤ cs.length

theorem Lexeme.Takes.ne_nil {x : Lexeme} {cs : List Char} (h : x.Takes cs) : cs ≠ [] := by
  obtain ⟨_, pos, le⟩ := h
  exact List.length_pos_iff.1 (Nat.lt_of_lt_of_le pos le)

namespace Scan

variable {cs : List Char} {x : Lexeme} {n : Nat}

theorem keyword?_takes (h : keyword? cs = some x) : x.Takes cs := by
  obtain ⟨k, member, word, rfl⟩ := keyword?_eq_some h
  have fits : (cs.take k.1.length).length = k.1.length := by
    rw [← congrArg List.length word]
    simp [Number.asciiLower]
  rw [List.length_take] at fits
  have pos : ∀ k ∈ keywords, 0 < k.1.length := by decide
  exact ⟨TokenKind.ne_of_isUnmarked (keyword?_isUnmarked h) rfl, pos k member,
    by dsimp only; omega⟩

theorem identifier?_takes (h : identifier? cs = some x) : x.Takes cs := by
  obtain ⟨c, ds, rfl, _, rfl⟩ := identifier?_eq_some h
  refine ⟨TokenKind.noConfusion, by simp, ?_⟩
  simpa using (List.takeWhile_prefix isIdentifierPart).length_le

theorem wholeChars_initial (cs : List Char) : wholeChars cs <+: cs := by
  unfold wholeChars
  split
  · exact ⟨_, rfl⟩
  · exact List.takeWhile_prefix _

theorem fractionChars_initial (cs : List Char) : fractionChars cs <+: cs := by
  unfold fractionChars
  split
  · dsimp only
    split
    · exact List.nil_prefix
    · exact (List.prefix_cons_inj _).2 (List.takeWhile_prefix _)
  · exact List.nil_prefix

theorem exponentSignChars_initial (cs : List Char) : exponentSignChars cs <+: cs := by
  unfold exponentSignChars
  split
  · exact ⟨_, rfl⟩
  · exact ⟨_, rfl⟩
  · exact List.nil_prefix

theorem append_initial {us vs : List Char} (hu : us <+: cs) (hv : vs <+: cs.drop us.length) :
    us ++ vs <+: cs := by
  obtain ⟨w, rfl⟩ := hu
  rw [List.drop_left] at hv
  exact (List.prefix_append_right_inj us).2 hv

theorem exponentChars_initial (cs : List Char) : exponentChars cs <+: cs := by
  unfold exponentChars
  split
  · split
    · dsimp only
      split
      · exact List.nil_prefix
      · rw [List.cons_append]
        exact (List.prefix_cons_inj _).2
          (append_initial (exponentSignChars_initial _) (List.takeWhile_prefix _))
    · exact List.nil_prefix
  · exact List.nil_prefix

theorem unsignedChars_initial (cs : List Char) : unsignedChars cs <+: cs := by
  unfold unsignedChars
  dsimp only
  split
  · exact List.nil_prefix
  · refine append_initial (append_initial (wholeChars_initial cs) (fractionChars_initial _)) ?_
    rw [List.length_append]
    exact exponentChars_initial _

theorem numeralChars_initial (after : Bool) (cs : List Char) : numeralChars after cs <+: cs := by
  unfold numeralChars
  split
  · dsimp only
    split
    · exact List.nil_prefix
    · exact (List.prefix_cons_inj _).2 (unsignedChars_initial _)
  · exact unsignedChars_initial _

theorem number?_takes {after : Bool} (h : number? after cs = some x) : x.Takes cs := by
  obtain ⟨some_, _, _, rfl⟩ := number?_eq_some h
  exact ⟨TokenKind.noConfusion, List.length_pos_iff.2 some_,
    (numeralChars_initial after cs).length_le⟩

theorem quotedLength_bounds {quote : Char} {m : Nat} (h : quotedLength quote n cs = .ok m) :
    n ≤ m ∧ m < n + cs.length := by
  fun_induction quotedLength quote n cs with
  | case1 | case2 | case4 => cases h
  | case3 n c cs _ ih =>
    have := ih h
    simp only [List.length_cons]
    omega
  | case5 =>
    cases h
    simp
  | case6 n c cs _ _ _ ih =>
    have := ih h
    simp only [List.length_cons]
    omega

theorem quoted?_takes (h : quoted? cs = .ok (some x)) : x.Takes cs := by
  obtain ⟨q, ds, n, rfl, _, closed, rfl⟩ := quoted?_eq_some h
  have := quotedLength_bounds closed
  exact ⟨TokenKind.noConfusion, by simp, by simp only [List.length_cons]; omega⟩

theorem punctuators_length_pos : ∀ p ∈ punctuators, 0 < p.toList.length := by decide

theorem punctuator?_takes (h : punctuator? cs = some x) : x.Takes cs := by
  obtain ⟨p, member, initial, rfl⟩ := punctuator?_eq_some h
  exact ⟨TokenKind.noConfusion, punctuators_length_pos p member, initial.length_le⟩

theorem freeChar?_takes (h : freeChar? cs = some x) : x.Takes cs := by
  obtain ⟨c, ds, rfl, _, rfl⟩ | ⟨c, ds, rfl, _, rfl⟩ := freeChar?_eq_some h <;>
    exact ⟨TokenKind.noConfusion, by simp, by simp⟩

theorem dollarPath_length_le (cs : List Char) : (dollarPath cs).length ≤ cs.length := by
  unfold dollarPath
  split
  · have hdrop :=
      (List.dropWhile_suffix (· == '.') (l := (cs.takeWhile isPathPart).reverse)).length_le
    have htake := (List.takeWhile_prefix isPathPart (l := cs)).length_le
    rw [List.length_reverse] at hdrop ⊢
    omega
  · simp

/-- Where a stretch ends, and that what was found there fits. -/
def Stretch.Fits (s : Stretch) (n : Nat) (cs : List Char) : Prop :=
  n ≤ s.length ∧ s.length ≤ n + cs.length ∧
    ∀ x, s.next = some x → x.Takes (cs.drop (s.length - n))

theorem Stretch.Fits.here {next : Option Lexeme} (h : ∀ x, next = some x → x.Takes cs) :
    Stretch.Fits ⟨n, next⟩ n cs := by
  refine ⟨Nat.le_refl _, by simp, ?_⟩
  simpa using h

theorem Stretch.Fits.later {s : Stretch} (us : List Char) (h : s.Fits (n + us.length) cs) :
    s.Fits n (us ++ cs) := by
  obtain ⟨hn, hl, hx⟩ := h
  refine ⟨by omega, by simp only [List.length_append]; omega, fun x hs => ?_⟩
  have hdrop : (us ++ cs).drop (s.length - n) = cs.drop (s.length - (n + us.length)) := by
    rw [List.drop_append, List.drop_eq_nil_of_le (by omega), List.nil_append]
    congr 1
    omega
  rw [hdrop]
  exact hx x hs

theorem Stretch.Fits.next_takes {s : Stretch} (h : s.Fits 0 cs) (none_ : s.length = 0)
    (next : s.next = some x) : x.Takes cs := by
  simpa [none_] using h.2.2 x next

theorem rawStretch_fits {s : Stretch} (h : rawStretch n cs = .ok s) : s.Fits n cs := by
  fun_induction rawStretch n cs with
  | case1 | case5 =>
    cases h
    exact .here (by simp)
  | case2 | case4 => cases h
  | case3 n c cs _ ih => exact .later ['\\', c] (ih h)
  | case6 n cs hc =>
    cases h
    refine .here ?_
    rintro x ⟨⟩
    cases cs with
    | nil => simp at hc
    | cons c cs => exact ⟨TokenKind.noConfusion, by simp, by simp⟩
  | case7 n cs _ _ _ _ ih => exact .later ['$'] (ih h)
  | case8 n cs _ _ path _ =>
    cases h
    refine .here ?_
    rintro x ⟨⟩
    exact ⟨TokenKind.noConfusion, by simp, by simpa using dollarPath_length_le cs⟩
  | case9 n c cs _ _ _ ih => exact .later [c] (ih h)

theorem templateStretch_fits {s : Stretch} (h : templateStretch n cs = .ok s) : s.Fits n cs := by
  fun_induction templateStretch n cs with
  | case1 =>
    cases h
    exact .here (by simp)
  | case2 n =>
    cases h
    exact ⟨by simp, by simp, by simp⟩
  | case4 => cases h
  | case3 n c cs _ ih => exact .later ['\\', c] (ih h)
  | case5 n cs =>
    cases h
    refine .here ?_
    rintro x ⟨⟩
    exact ⟨TokenKind.noConfusion, by simp, by simp⟩
  | case6 n c cs =>
    cases h
    refine .here ?_
    rintro x ⟨⟩
    exact ⟨TokenKind.noConfusion, by simp, by simp⟩
  | case7 n c cs _ _ _ _ ih => exact .later [c] (ih h)

end Scan

namespace Lexer

variable {l l' : Lexer} {x : Lexeme}

theorem skipSpace_pending (l : Lexer) : l.skipSpace.pending = l.pending := by
  unfold skipSpace
  split <;> rfl

theorem skipSpace_length_le (l : Lexer) : l.skipSpace.rest.length ≤ l.rest.length := by
  unfold skipSpace
  split
  · exact (List.dropWhile_suffix _).length_le
  · exact Nat.le_refl _

/-- What waits to be delivered fits the text that is left. -/
def Ready (l : Lexer) : Prop := ∀ x, l.pending = some x → x.Takes l.rest

theorem Ready.of_none (h : l.pending = none) : l.Ready := by
  intro x hx
  rw [h] at hx
  cases hx

/-- A scan moves nothing, and what it found, with what waits behind it, fits the text. -/
structure Result.Advances (rest : List Char) (r : Result Lexeme) : Prop where
  rest_eq : r.2.rest = rest
  takes : ∀ x, r.1 = .ok x → x.Takes rest
  behind : ∀ x y, r.1 = .ok x → r.2.pending = some y → y.Takes (rest.drop x.length)
  error : ∀ e, r.1 = .error e → r.2.pending = none

theorem advances_error (hp : l.pending = none) (e : LexError) :
    Result.Advances l.rest (.error e, l) :=
  ⟨rfl, by simp, by simp, fun _ _ => hp⟩

theorem advances_ok (hp : l'.pending = none) (hr : l'.rest = l.rest) (hx : x.Takes l.rest) :
    Result.Advances l.rest (.ok x, l') := by
  refine ⟨hr, ?_, ?_, by simp⟩
  · rintro _ ⟨⟩
    exact hx
  · rintro _ y ⟨⟩ hy
    rw [hp] at hy
    cases hy

theorem word?_takes (h : l.word? = some x) : x.Takes l.rest := by
  obtain h | h | h := word?_eq_some h
  · exact Scan.keyword?_takes h
  · exact Scan.identifier?_takes h
  · exact Scan.number?_takes h

theorem Renames.ne_eof {k k' : TokenKind} (h : Renames k k') (hk : k ≠ .eof) : k' ≠ .eof := by
  cases h with
  | same => exact hk
  | closeIsland | closeHole | openFilter => exact TokenKind.noConfusion

theorem Settled.advances {r : Result Lexeme} (h : l.Settled x r) (hp : l.pending = none)
    (hx : x.Takes l.rest) : r.Advances l.rest := by
  cases h with
  | found k ms renames =>
    exact advances_ok hp rfl ⟨renames.ne_eof hx.kind_ne, hx.pos, hx.length_le⟩
  | unexpected ms => exact ⟨rfl, by simp, by simp, fun _ _ => hp⟩

/-- A delivered stretch of literal text and what waits behind it. -/
theorem advances_stretch {st : Scan.Stretch} {k : TokenKind} {raw : Option String}
    (hk : k ≠ .eof) (hst : st.Fits 0 l.rest) (some_ : st.length ≠ 0) (hr : l'.rest = l.rest) :
    Result.Advances l.rest (.ok ⟨k, raw, st.length⟩, { l' with pending := st.next }) := by
  obtain ⟨_, hle, hnext⟩ := hst
  refine ⟨hr, ?_, ?_, by simp⟩
  · rintro _ ⟨⟩
    exact ⟨hk, Nat.pos_of_ne_zero some_, by simpa using hle⟩
  · rintro _ y ⟨⟩ hy
    exact hnext y hy

theorem Scanned.advances {r : Result Lexeme} (h : l.Scanned r) (hp : l.pending = none) :
    r.Advances l.rest := by
  cases h with
  | unexpected | unended => exact advances_error hp _
  | island _ opens => exact advances_ok hp rfl ⟨TokenKind.noConfusion, by simp, by simp [opens]⟩
  | word found => exact advances_ok hp rfl (word?_takes found)
  | quoted found => exact advances_ok hp rfl (Scan.quoted?_takes found)
  | sign _ found => exact (settle_settled l _).advances hp (Scan.punctuator?_takes found)
  | backtick _ opens => exact advances_ok hp rfl ⟨TokenKind.noConfusion, by simp, by simp [opens]⟩
  | free _ found => exact advances_ok hp rfl (Scan.freeChar?_takes found)
  | raw stretch some_ =>
    exact advances_stretch TokenKind.noConfusion (Scan.rawStretch_fits stretch) some_ rfl
  | behindRaw stretch none_ next =>
    exact advances_ok hp rfl ((Scan.rawStretch_fits stretch).next_takes none_ next)
  | template _ stretch some_ =>
    exact advances_stretch TokenKind.noConfusion (Scan.templateStretch_fits stretch) some_
      (afterTemplate_rest _)
  | behindTemplate _ stretch none_ next =>
    exact advances_ok (by rw [afterTemplate_pending, hp]) (afterTemplate_rest _)
      ((Scan.templateStretch_fits stretch).next_takes none_ next)

/-- Behind white space a scan finds the end of the text, or an error, or something that fits. -/
theorem scan_cases (hp : l.pending = none) :
    (l.skipSpace.rest = [] ∧ l.depth = l.baseDepth ∧ l.scan = (.ok ⟨.eof, none, 0⟩, l.skipSpace)) ∨
    (l.skipSpace.rest = [] ∧ l.depth ≠ l.baseDepth ∧
      l.scan = (.error (.unterminated (.mode l.mode) l.skipSpace.position), l.skipSpace)) ∨
    (l.skipSpace.rest ≠ [] ∧ Result.Advances l.skipSpace.rest l.scan) := by
  rw [← skipSpace_pending] at hp
  exact l.scan_outcome.imp_right fun h => h.imp_right fun h => ⟨h.1, h.2.advances hp⟩

/-- What a scan delivers is the end of the text or fits what is left. -/
theorem scan_found (hp : l.pending = none) (h : l.scan = (.ok x, l')) :
    (x = ⟨.eof, none, 0⟩ ∧ l.depth = l.baseDepth ∧ l' = l.skipSpace ∧ l'.rest = []) ∨
    (l'.rest = l.skipSpace.rest ∧ x.Takes l'.rest ∧
      ∀ y, l'.pending = some y → y.Takes (l'.rest.drop x.length)) := by
  rcases scan_cases hp with ⟨hr, hd, hs⟩ | ⟨_, _, hs⟩ | ⟨_, hs⟩
  · rw [hs] at h
    cases h
    exact .inl ⟨rfl, hd, rfl, hr⟩
  · rw [hs] at h
    cases h
  · rw [h] at hs
    have rest_eq : l'.rest = l.skipSpace.rest := hs.rest_eq
    rw [rest_eq]
    exact .inr ⟨rfl, hs.takes x rfl, fun y hy => hs.behind x y rfl hy⟩

theorem scan_failed {e : LexError} (hp : l.pending = none) (h : l.scan = (.error e, l')) :
    l'.pending = none := by
  rcases scan_cases hp with ⟨_, _, hs⟩ | ⟨_, _, hs⟩ | ⟨_, hs⟩
  · rw [hs] at h
    cases h
  · rw [hs] at h
    cases h
    rw [skipSpace_pending, hp]
  · rw [h] at hs
    exact hs.error e rfl

theorem scan_eof (hp : l.pending = none) (h : l.scan = (.ok x, l')) (hx : x.kind = .eof) :
    l.depth = l.baseDepth ∧ l' = l.skipSpace ∧ l'.rest = [] := by
  obtain ⟨_, ended⟩ | ⟨_, takes, _⟩ := scan_found hp h
  · exact ended
  · exact absurd hx takes.kind_ne

theorem scan_fits (hp : l.pending = none) (h : l.scan = (.ok x, l')) (hx : x.kind ≠ .eof) :
    x.length ≤ l'.rest.length := by
  obtain ⟨rfl, _⟩ | ⟨_, takes, _⟩ := scan_found hp h
  · exact absurd rfl hx
  · exact takes.length_le

/-- A pull that delivers no end of the text takes a character. -/
theorem nextToken_lt (hl : l.Ready) {t : Token} (h : l.nextToken = (.ok t, l'))
    (ht : t.kind ≠ .eof) : l'.rest.length < l.rest.length := by
  cases pulled_of_eq h with
  | @waiting x waits =>
    obtain ⟨_, pos, le⟩ := hl x waits
    simp only [deliver, List.length_drop]
    omega
  | @found x m idle scanned =>
    obtain ⟨rfl, _⟩ | ⟨rest_eq, ⟨_, pos, le⟩, _⟩ := scan_found idle scanned
    · exact absurd rfl ht
    · have skipped := skipSpace_length_le l
      rw [← rest_eq] at skipped
      simp only [deliver, List.length_drop]
      omega

theorem nextToken_ready (l : Lexer) : l.nextToken.2.Ready := by
  have pulled := pulled_of_eq (l := l) rfl
  generalize l.nextToken = r at pulled
  cases pulled with
  | waiting => exact .of_none rfl
  | failed idle scanned => exact .of_none (scan_failed idle scanned)
  | found idle scanned =>
    obtain ⟨_, _, rfl, _⟩ | ⟨_, _, behind⟩ := scan_found idle scanned
    · exact .of_none ((skipSpace_pending l).trans idle)
    · exact behind

theorem ofSource_ready (source : List Char) (options : LexerOptions) :
    (ofSource source options).Ready := .of_none rfl

theorem isEof_iff {t : Token} : t.isEof = true ↔ t.kind = .eof := by
  unfold Token.isEof
  cases t.kind <;> simp

/-- Pulls beyond the characters that are left find nothing else. -/
theorem run_of_lt (hl : l.Ready) {n m : Nat} (hn : l.rest.length < n) (hm : l.rest.length < m) :
    run n l = run m l := by
  induction n generalizing l m with
  | zero => omega
  | succ n ih =>
    cases m with
    | zero => omega
    | succ m =>
      simp only [run]
      have hready := nextToken_ready l
      rcases h : l.nextToken with ⟨e | t, l'⟩
      · rfl
      · by_cases ht : t.isEof = true
        · simp only [if_pos ht]
        · have hlt := nextToken_lt hl h (fun hk => ht (isEof_iff.2 hk))
          have hready : l'.Ready := by simpa only [h] using hready
          have hrun : run n l' = run m l' := ih hready (by omega) (by omega)
          simp only [if_neg ht, hrun]

theorem length_run_le (n : Nat) (l : Lexer) : (l.run n).1.length ≤ n := by
  induction n generalizing l with
  | zero => exact Nat.le_refl _
  | succ n ih =>
    rw [run]
    rcases l.nextToken with ⟨e | t, l'⟩
    · exact Nat.zero_le _
    · dsimp only
      split
      · exact Nat.succ_le_succ (Nat.zero_le n)
      · exact Nat.succ_le_succ (ih l')

end Lexer

end TemplateFormula
