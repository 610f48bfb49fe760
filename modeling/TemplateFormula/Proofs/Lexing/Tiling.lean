import TemplateFormula.Proofs.Lexing.Places
import TemplateFormula.Proofs.Lexing.Reading

/-!
# Tokens tile the source

What lies between two tokens is white space that the mode skips, and a token is written as the
characters that it takes. So no character is lost or read twice: up to the last token the source is
made of gaps and tokens, and with the end of the text or an error the pulls come to an end.
-/

namespace TemplateFormula

/-- A lexeme is spelled as the characters that it takes. A character of free text may stand behind a
backslash, which is not part of its spelling. -/
def Lexeme.Spells (x : Lexeme) (cs : List Char) : Prop :=
  match x.kind with
  | .char c => cs.take x.length = [c] ∨ ∃ d, cs.take x.length = ['\\', d] ∧ Text.escapedChar d = c
  | k => x.raw.getD k.spelling = String.ofList (cs.take x.length)

namespace Scan

variable {cs : List Char} {x : Lexeme} {n : Nat}

theorem take_of_initial {us : List Char} (h : us <+: cs) : cs.take us.length = us :=
  (List.prefix_iff_eq_take.1 h).symm

theorem keyword?_spells (h : keyword? cs = some x) : x.Spells cs := by
  obtain ⟨k, member, _, rfl⟩ := keyword?_eq_some h
  simp only [keywords, List.mem_cons, List.not_mem_nil, or_false] at member
  rcases member with rfl | rfl | rfl | rfl <;> rfl

theorem identifier?_spells (h : identifier? cs = some x) : x.Spells cs := by
  obtain ⟨c, ds, rfl, _, rfl⟩ := identifier?_eq_some h
  have initial : c :: ds.takeWhile isIdentifierPart <+: c :: ds :=
    (List.prefix_cons_inj c).2 (List.takeWhile_prefix _)
  exact congrArg String.ofList (take_of_initial initial).symm

theorem number?_spells {after : Bool} (h : number? after cs = some x) : x.Spells cs := by
  obtain ⟨_, _, _, rfl⟩ := number?_eq_some h
  exact congrArg String.ofList (take_of_initial (numeralChars_initial after cs)).symm

theorem quoted?_spells (h : quoted? cs = .ok (some x)) : x.Spells cs := by
  obtain ⟨_, _, _, rfl, _, _, rfl⟩ := quoted?_eq_some h
  rfl

theorem punctuator?_spells (h : punctuator? cs = some x) : x.Spells cs := by
  obtain ⟨p, _, initial, rfl⟩ := punctuator?_eq_some h
  have spelling : String.ofList (cs.take p.toList.length) = p := by
    rw [take_of_initial initial, String.ofList_toList]
  exact spelling.symm

theorem freeChar?_spells (h : freeChar? cs = some x) : x.Spells cs := by
  obtain ⟨c, _, rfl, _, rfl⟩ | ⟨_, _, rfl, _, rfl⟩ := freeChar?_eq_some h
  · exact .inr ⟨c, rfl, rfl⟩
  · exact .inl rfl

theorem dollarPath_initial (cs : List Char) : dollarPath cs <+: cs := by
  unfold dollarPath
  split
  · have hdots := List.dropWhile_suffix (· == '.') (l := (cs.takeWhile isPathPart).reverse)
    have hpath := List.reverse_prefix.2 hdots
    rw [List.reverse_reverse] at hpath
    exact hpath.trans (List.takeWhile_prefix _)
  · exact List.nil_prefix

/-- What was found at the end of a stretch is spelled as it stands there. -/
def Stretch.Spelled (s : Stretch) (n : Nat) (cs : List Char) : Prop :=
  n ≤ s.length ∧ ∀ x, s.next = some x → x.Spells (cs.drop (s.length - n))

theorem Stretch.Spelled.here {next : Option Lexeme} (h : ∀ x, next = some x → x.Spells cs) :
    Stretch.Spelled ⟨n, next⟩ n cs := by
  refine ⟨Nat.le_refl _, ?_⟩
  simpa using h

theorem Stretch.Spelled.later {s : Stretch} (us : List Char)
    (h : s.Spelled (n + us.length) cs) : s.Spelled n (us ++ cs) := by
  obtain ⟨hn, hx⟩ := h
  refine ⟨by omega, fun x hs => ?_⟩
  have hlength : s.length - n = us.length + (s.length - (n + us.length)) := by omega
  rw [hlength, List.drop_length_add_append]
  exact hx x hs

theorem Stretch.Spelled.next_spells {s : Stretch} (h : s.Spelled 0 cs) (none_ : s.length = 0)
    (next : s.next = some x) : x.Spells cs := by
  simpa [none_] using h.2 x next

theorem rawStretch_spelled {s : Stretch} (h : rawStretch n cs = .ok s) : s.Spelled n cs := by
  fun_induction rawStretch n cs with
  | case1 | case5 =>
    cases h
    exact .here (by simp)
  | case2 | case4 => cases h
  | case3 n c cs _ ih => exact .later ['\\', c] (ih h)
  | case6 n cs hc =>
    cases h
    refine .here ?_
    rintro x ⟨⟩
    cases cs with
    | nil => simp at hc
    | cons c cs =>
      obtain rfl : c = '$' := by simpa using hc
      rfl
  | case7 n cs _ _ _ _ ih => exact .later ['$'] (ih h)
  | case8 n cs _ _ path _ =>
    cases h
    refine .here ?_
    rintro x ⟨⟩
    have hpath : '$' :: dollarPath cs <+: '$' :: cs :=
      (List.prefix_cons_inj _).2 (dollarPath_initial cs)
    exact congrArg String.ofList (take_of_initial hpath).symm
  | case9 n c cs _ _ _ ih => exact .later [c] (ih h)

theorem templateStretch_spelled {s : Stretch} (h : templateStretch n cs = .ok s) :
    s.Spelled n cs := by
  fun_induction templateStretch n cs with
  | case1 =>
    cases h
    exact .here (by simp)
  | case2 n =>
    cases h
    exact ⟨by simp, by simp⟩
  | case4 => cases h
  | case3 n c cs _ ih => exact .later ['\\', c] (ih h)
  | case5 n cs =>
    cases h
    refine .here ?_
    rintro x ⟨⟩
    rfl
  | case6 n c cs =>
    cases h
    refine .here ?_
    rintro x ⟨⟩
    rfl
  | case7 n c cs _ _ _ _ ih => exact .later [c] (ih h)

end Scan

namespace Lexer

variable {l l' : Lexer} {x : Lexeme} {source : List Char}

/-- What a scan found, with what waits behind it, is spelled as it stands in the text. -/
structure Result.Spelled (rest : List Char) (r : Result Lexeme) : Prop where
  found : ∀ x, r.1 = .ok x → x.Spells rest
  behind : ∀ x y, r.1 = .ok x → r.2.pending = some y → y.Spells (rest.drop x.length)

theorem spelled_error (rest : List Char) (e : LexError) : Result.Spelled rest (.error e, l) :=
  ⟨by simp, by simp⟩

theorem spelled_ok {rest : List Char} (hp : l.pending = none) (hx : x.Spells rest) :
    Result.Spelled rest (.ok x, l) := by
  refine ⟨?_, ?_⟩
  · rintro _ ⟨⟩
    exact hx
  · rintro _ y ⟨⟩ hy
    rw [hp] at hy
    cases hy

/-- A punctuator that is given another kind of the same spelling. -/
theorem Renames.spells {rest : List Char} {k : TokenKind} (h : Renames x.kind k)
    (hx : x.Spells rest) : Lexeme.Spells { x with kind := k } rest := by
  obtain ⟨kind, raw, length⟩ := x
  cases h <;> exact hx

theorem Settled.spelled {rest : List Char} {r : Result Lexeme} (h : l.Settled x r)
    (hp : l.pending = none) (hx : x.Spells rest) : r.Spelled rest := by
  cases h with
  | found k ms renames => exact spelled_ok hp (renames.spells hx)
  | unexpected ms => exact spelled_error _ _

theorem word?_spells (h : l.word? = some x) : x.Spells l.rest := by
  obtain h | h | h := word?_eq_some h
  · exact Scan.keyword?_spells h
  · exact Scan.identifier?_spells h
  · exact Scan.number?_spells h

/-- A delivered stretch of literal text is spelled as it stands there. -/
theorem spelled_stretch {st : Scan.Stretch} {k : TokenKind} (hk : ∀ c, k ≠ .char c)
    (hst : st.Spelled 0 l.rest) :
    Result.Spelled l.rest (.ok ⟨k, some (String.ofList (l.rest.take st.length)), st.length⟩,
      { l' with pending := st.next }) := by
  refine ⟨?_, fun x y hx hy => ?_⟩
  · rintro _ ⟨⟩
    simp only [Lexeme.Spells, Option.getD_some]
  · cases hx
    exact hst.2 y hy

theorem Scanned.spelled {r : Result Lexeme} (h : l.Scanned r) (hp : l.pending = none) :
    r.Spelled l.rest := by
  cases h with
  | unexpected | unended => exact spelled_error _ _
  | island _ opens =>
    refine spelled_ok hp ?_
    rw [opens]
    rfl
  | word found => exact spelled_ok hp (word?_spells found)
  | quoted found => exact spelled_ok hp (Scan.quoted?_spells found)
  | sign _ found => exact (settle_settled l _).spelled hp (Scan.punctuator?_spells found)
  | backtick _ opens =>
    refine spelled_ok hp ?_
    rw [opens]
    rfl
  | free _ found => exact spelled_ok hp (Scan.freeChar?_spells found)
  | raw stretch =>
    exact spelled_stretch (fun _ => TokenKind.noConfusion) (Scan.rawStretch_spelled stretch)
  | behindRaw stretch none_ next =>
    exact spelled_ok hp ((Scan.rawStretch_spelled stretch).next_spells none_ next)
  | template _ stretch =>
    exact spelled_stretch (fun _ => TokenKind.noConfusion) (Scan.templateStretch_spelled stretch)
  | behindTemplate _ stretch none_ next =>
    exact spelled_ok (by rw [afterTemplate_pending, hp])
      ((Scan.templateStretch_spelled stretch).next_spells none_ next)

theorem scan_spelled (hp : l.pending = none) (hr : l.skipSpace.rest ≠ []) :
    Result.Spelled l.skipSpace.rest l.scan := by
  rw [← skipSpace_pending] at hp
  rcases l.scan_outcome with ⟨none_, _⟩ | ⟨none_, _⟩ | ⟨_, scanned⟩
  · exact absurd none_ hr
  · exact absurd none_ hr
  · exact scanned.spelled hp

end Lexer

/-- The characters of a text between two indices. -/
def between (source : List Char) (i j : Nat) : List Char := (source.drop i).take (j - i)

theorem between_append {source : List Char} {i j k : Nat} (hij : i ≤ j) (hjk : j ≤ k) :
    between source i j ++ between source j k = between source i k := by
  have hj : source.drop j = (source.drop i).drop (j - i) := by
    rw [List.drop_drop, Nat.add_sub_cancel' hij]
  have hk : k - i = (j - i) + (k - j) := by omega
  rw [between, between, between, hj, hk, List.take_add]

theorem between_initial (source : List Char) (i j : Nat) : between source i j <+: source.drop i :=
  List.take_prefix _ _

theorem between_length (source : List Char) (i : Nat) :
    between source i source.length = source.drop i := by
  rw [between, List.take_of_length_le]
  simp only [List.length_drop, Nat.le_refl]

theorem between_drop {source : List Char} {i j : Nat} (hij : i ≤ j) (hj : j ≤ source.length) :
    between source i j ++ source.drop j = source.drop i := by
  rw [← between_length source j, between_append hij hj, between_length]

/-- Behind what a lexer has read of a text there is only white space that its mode skips up to an
index. -/
structure Lexer.Gap (source : List Char) (l : Lexer) (i : Nat) : Prop where
  le : l.position.index ≤ i
  spaces : ∀ c ∈ between source l.position.index i, isSpace c
  skipped : l.position.index < i → skipsSpace l.mode

namespace Token

variable (source : List Char) (t : Token)

/-- The characters that a token takes. -/
def span : List Char := between source t.start.index t.stop.index

/-- The gaps and the spans of tokens one after another, from an index on. -/
def woven : Nat → List Token → List Char
  | _, [] => []
  | i, t :: ts => between source i t.start.index ++ t.span source ++ woven t.stop.index ts

/-- A token is written as its span, or is a character that its span is or has behind a backslash. -/
def Written : Prop :=
  match t.kind with
  | .char c => t.span source = [c] ∨ ∃ d, t.span source = ['\\', d] ∧ Text.escapedChar d = c
  | _ => t.text = String.ofList (t.span source)

/-- The token comes next behind what a lexer has read of a text. -/
structure Follows (l : Lexer) : Prop where
  gap : l.Gap source t.start.index
  stop_le : t.stop.index ≤ source.length
  written : t.kind ≠ .eof → t.start.index < t.stop.index ∧ t.Written source
  ends : t.kind = .eof → t.start.index = source.length ∧ t.stop.index = source.length

variable {source t} {l : Lexer}

theorem Follows.start_le (h : t.Follows source l) : t.start.index ≤ t.stop.index := by
  by_cases ht : t.kind = .eof
  · exact Nat.le_of_eq ((h.ends ht).1.trans (h.ends ht).2.symm)
  · exact Nat.le_of_lt (h.written ht).1

theorem Follows.stop_ge (h : t.Follows source l) : l.position.index ≤ t.stop.index :=
  Nat.le_trans h.gap.le h.start_le

theorem Follows.woven_cons (h : t.Follows source l) (ts : List Token) :
    woven source l.position.index (t :: ts) =
      between source l.position.index t.stop.index ++ woven source t.stop.index ts := by
  rw [woven, span, between_append h.gap.le h.start_le]

end Token

namespace Lexer

variable {l l' : Lexer} {x : Lexeme} {source : List Char}

/-- The lexer stands in a text. -/
structure Stands (source : List Char) (l : Lexer) : Prop where
  index_le : l.position.index ≤ source.length
  rest_eq : l.rest = source.drop l.position.index

theorem Stands.between_eq (h : l.Stands source) (n : Nat) :
    between source l.position.index (l.position.index + n) = l.rest.take n := by
  rw [between, h.rest_eq, Nat.add_sub_cancel_left]

theorem Stands.length_eq (h : l.Stands source) :
    l.position.index + l.rest.length = source.length := by
  have := h.index_le
  rw [h.rest_eq, List.length_drop]
  omega

theorem Stands.of_kept (h : l.Stands source) (kept : Kept l l') : l'.Stands source :=
  ⟨by rw [kept.position]; exact h.index_le, by rw [kept.rest, kept.position]; exact h.rest_eq⟩

/-- What a text is left with behind some of its first characters. -/
theorem Stands.advance (h : l.Stands source) {us vs : List Char} (hr : l.rest = us ++ vs) :
    (l.position.advance us).index ≤ source.length ∧
      vs = source.drop (l.position.advance us).index := by
  have hlength := h.length_eq
  rw [hr, List.length_append] at hlength
  rw [Position.advance_index]
  refine ⟨by omega, ?_⟩
  rw [← List.drop_drop, ← h.rest_eq, hr, List.drop_left]

theorem Stands.skipSpace (h : l.Stands source) : l.skipSpace.Stands source := by
  unfold Lexer.skipSpace
  split
  · obtain ⟨index_le, rest_eq⟩ :=
      h.advance (List.takeWhile_append_dropWhile (p := isSpace)).symm
    exact ⟨index_le, rest_eq⟩
  · exact h

theorem gap_refl (source : List Char) (l : Lexer) : l.Gap source l.position.index :=
  ⟨Nat.le_refl _, by simp [between], fun lt => absurd lt (Nat.lt_irrefl _)⟩

theorem Stands.gap (h : l.Stands source) : l.Gap source l.skipSpace.position.index := by
  unfold Lexer.skipSpace
  split
  · next skips =>
    simp only [Position.advance_index]
    refine ⟨Nat.le_add_right _ _, ?_, fun _ => skips⟩
    rw [h.between_eq, Scan.take_of_initial (List.takeWhile_prefix _)]
    exact List.all_eq_true.1 List.all_takeWhile
  · exact gap_refl source l

/-- The lexer stands in a text and what waits to be delivered is written there. -/
structure Tracks (source : List Char) (l : Lexer) : Prop extends l.Stands source where
  ready : l.Ready
  spelled : ∀ x, l.pending = some x → x.Spells l.rest

theorem ofSource_tracks (source : List Char) (options : LexerOptions) :
    (ofSource source options).Tracks source :=
  ⟨⟨Nat.zero_le _, rfl⟩, ofSource_ready source options, by rintro x ⟨⟩⟩

theorem deliver_stands (h : l.Stands source) (x : Lexeme) : (l.deliver x).2.Stands source := by
  obtain ⟨index_le, rest_eq⟩ := h.advance (List.take_append_drop x.length l.rest).symm
  exact ⟨index_le, rest_eq⟩

theorem deliver_span (h : l.Stands source) (hx : x.length ≤ l.rest.length) :
    (l.deliver x).1.span source = l.rest.take x.length := by
  simp only [Token.span, deliver, Position.advance_index, List.length_take, Nat.min_eq_left hx]
  exact h.between_eq x.length

theorem deliver_written (h : l.Stands source) (hx : x.length ≤ l.rest.length)
    (spelled : x.Spells l.rest) : (l.deliver x).1.Written source := by
  simp only [Token.Written, deliver_span h hx]
  obtain ⟨kind, raw, length⟩ := x
  cases kind <;> exact spelled

theorem deliver_follows {m : Lexer} (h : m.Stands source) (gap : l.Gap source m.position.index)
    (takes : x.Takes m.rest) (spelled : x.Spells m.rest) :
    (m.deliver x).1.Follows source l := by
  refine ⟨gap, (deliver_stands h x).index_le, fun _ => ⟨?_, ?_⟩, fun eof => ?_⟩
  · have pos := takes.pos
    have le := takes.length_le
    simp only [deliver, Position.advance_index, List.length_take]
    omega
  · exact deliver_written h takes.length_le spelled
  · exact absurd eof takes.kind_ne

theorem eof_follows {m : Lexer} (h : m.Stands source) (gap : l.Gap source m.position.index)
    (hr : m.rest = []) : (m.deliver ⟨.eof, none, 0⟩).1.Follows source l := by
  have hlength := h.length_eq
  rw [hr, List.length_nil, Nat.add_zero] at hlength
  refine ⟨gap, (deliver_stands h _).index_le, fun kind => absurd rfl kind, fun _ => ?_⟩
  simp only [deliver, Position.advance_index, List.take_zero, List.length_nil]
  exact ⟨hlength, hlength⟩

/-- A pull that delivers a token. -/
theorem nextToken_follows (h : l.Tracks source) {t : Token} (ht : l.nextToken = (.ok t, l')) :
    t.Follows source l ∧ l'.position = t.stop := by
  refine ⟨?_, ?_⟩
  · cases pulled_of_eq ht with
    | @waiting x hx =>
      exact deliver_follows (m := { l with pending := none }) ⟨h.index_le, h.rest_eq⟩
        (gap_refl source l) (h.ready x hx) (h.spelled x hx)
    | @found x l₀ hp hscan =>
      have kept : Kept l.skipSpace l₀ := by simpa only [hscan] using scan_kept l
      have stands : l₀.Stands source := h.skipSpace.of_kept kept
      have gap : l.Gap source l₀.position.index := kept.position ▸ h.gap
      obtain ⟨rfl, _, _, hr⟩ | ⟨rest_eq, takes, _⟩ := scan_found hp hscan
      · exact eof_follows stands gap hr
      · have hr : l.skipSpace.rest ≠ [] := rest_eq ▸ takes.ne_nil
        have spelled := scan_spelled hp hr
        rw [hscan, ← rest_eq] at spelled
        exact deliver_follows stands gap takes (spelled.found x rfl)
  · cases pulled_of_eq ht <;> rfl

/-- Also behind an error the lexer stands in the text. -/
theorem nextToken_stands (h : l.Tracks source) : l.nextToken.2.Stands source := by
  have pulled := pulled_of_eq (l := l) rfl
  generalize l.nextToken = r at pulled
  have stands := h.skipSpace.of_kept (scan_kept l)
  cases pulled with
  | waiting => exact deliver_stands (l := { l with pending := none }) ⟨h.index_le, h.rest_eq⟩ _
  | failed _ hscan => simpa only [hscan] using stands
  | found _ hscan =>
    rw [hscan] at stands
    exact deliver_stands stands _

theorem nextToken_tracks (h : l.Tracks source) : l.nextToken.2.Tracks source := by
  refine ⟨nextToken_stands h, nextToken_ready l, ?_⟩
  have pulled := pulled_of_eq (l := l) rfl
  generalize l.nextToken = r at pulled
  intro y hy
  cases pulled with
  | waiting => cases hy
  | failed hp hscan => cases (scan_failed hp hscan).symm.trans hy
  | @found x l₀ hp hscan =>
    obtain ⟨_, _, rfl, _⟩ | ⟨rest_eq, takes, _⟩ := scan_found hp hscan
    · cases ((skipSpace_pending l).trans hp).symm.trans hy
    · have hr : l.skipSpace.rest ≠ [] := rest_eq ▸ takes.ne_nil
      have spelled := scan_spelled hp hr
      rw [hscan, ← rest_eq] at spelled
      exact spelled.behind x y rfl hy

/-- Each token comes next behind those before it, and the end of the text comes last. -/
inductive Tiles (source : List Char) : Lexer → List (Token × Lexer) → Prop where
  | nil (l : Lexer) : Tiles source l []
  | last {l l' : Lexer} {t : Token} (h : t.Follows source l) (ht : t.kind = .eof)
      (hl : l'.position = t.stop) : Tiles source l [(t, l')]
  | cons {l l' : Lexer} {t : Token} {ts : List (Token × Lexer)} (h : t.Follows source l)
      (ht : t.kind ≠ .eof) (hl : l'.position = t.stop) (more : Tiles source l' ts) :
      Tiles source l ((t, l') :: ts)

theorem run_tiles (n : Nat) (h : l.Tracks source) : Tiles source l (l.run n).1 := by
  induction n generalizing l with
  | zero => exact .nil l
  | succ n ih =>
    have tracks := nextToken_tracks h
    rw [run]
    rcases hnext : l.nextToken with ⟨e | t, l'⟩
    · exact .nil l
    · rw [hnext] at tracks
      obtain ⟨follows, position⟩ := nextToken_follows h hnext
      by_cases ht : t.kind = .eof
      · simp only [if_pos (isEof_iff.2 ht)]
        exact .last follows ht position
      · have goes : ¬ t.isEof = true := fun eof => ht (isEof_iff.1 eof)
        simp only [if_neg goes]
        exact .cons follows ht position (ih tracks)

namespace Tiles

variable {ts : List (Token × Lexer)}

theorem start_ge (h : Tiles source l ts) : ∀ p ∈ ts, l.position.index ≤ p.1.start.index := by
  induction h with
  | nil l => simp
  | last h _ _ =>
    rintro p hp
    obtain rfl := List.mem_singleton.1 hp
    exact h.gap.le
  | cons h _ hl _ ih =>
    intro p hp
    rcases List.mem_cons.1 hp with rfl | hp
    · exact h.gap.le
    · exact Nat.le_trans (hl ▸ h.stop_ge) (ih p hp)

theorem ordered (h : Tiles source l ts) :
    (ts.map (·.1)).Pairwise fun t u => t.stop.index ≤ u.start.index := by
  induction h with
  | nil l => exact .nil
  | last _ _ _ => exact List.pairwise_singleton _ _
  | cons _ _ hl more ih =>
    refine List.pairwise_cons.2 ⟨fun u hu => ?_, ih⟩
    obtain ⟨p, hp, rfl⟩ := List.mem_map.1 hu
    exact hl ▸ more.start_ge p hp

theorem woven_initial (h : Tiles source l ts) :
    Token.woven source l.position.index (ts.map (·.1)) <+: source.drop l.position.index := by
  induction h with
  | nil l => exact List.nil_prefix
  | last h _ _ =>
    rw [List.map_cons, h.woven_cons, List.map_nil, Token.woven, List.append_nil]
    exact between_initial _ _ _
  | cons h _ hl _ ih =>
    rw [List.map_cons, h.woven_cons, ← between_drop h.stop_ge h.stop_le, ← hl]
    exact (List.prefix_append_right_inj _).2 ih

/-- Up to the end of the text the tokens with the gaps between them are all that is left. -/
theorem woven_eq (h : Tiles source l ts) (hend : ∃ t ∈ ts.map (·.1), t.kind = .eof) :
    Token.woven source l.position.index (ts.map (·.1)) = source.drop l.position.index := by
  obtain ⟨t, hmem, ht⟩ := hend
  induction h with
  | nil l => cases hmem
  | last h hk _ =>
    rw [List.map_cons, h.woven_cons, (h.ends hk).2, between_length]
    exact List.append_nil _
  | @cons l _ u _ h hk hl _ ih =>
    have hne : t ≠ u := fun same => hk (same ▸ ht)
    rw [List.map_cons, h.woven_cons, ← hl, ih ((List.mem_cons.1 hmem).resolve_left hne), hl,
      between_drop h.stop_ge h.stop_le]

end Tiles

/-- Every token comes next behind those before it, so that with the gaps between them the tokens up
to the first error are the beginning of the source. As many pulls as there are characters and one
more reach an error or the end of the text, and the tokens and gaps are then the source. -/
theorem trace_tiles (source : List Char) (options : LexerOptions) :
    let start := ofSource source options
    Tiles source start start.trace.1 ∧
    start.tokens.Pairwise (fun t u => t.stop.index ≤ u.start.index) ∧
    Token.woven source 0 start.tokens <+: source ∧
    start.tokens.length ≤ source.length + 1 ∧
    (start.failure? = none →
      Token.woven source 0 start.tokens = source ∧
      ∃ ts t, start.tokens = ts ++ [t] ∧ t.kind = .eof) := by
  intro start
  have tiles := run_tiles (source.length + 1) (ofSource_tracks source options)
  refine ⟨tiles, tiles.ordered, tiles.woven_initial, ?_, fun succeeds => ?_⟩
  · rw [tokens, List.length_map]
    exact length_run_le _ _
  · obtain ⟨ts, t, last, ht⟩ := tokens_end (ofSource_ready source options) succeeds
    have hmem : t ∈ start.tokens := by simp [start, last]
    exact ⟨tiles.woven_eq ⟨t, hmem, ht⟩, ts, t, last, ht⟩

end Lexer

end TemplateFormula
