import TemplateFormula.Proofs.Lexing.Breaks

/-!
# Lines of a source

Line and column of a token are carried from token to token. They are those of the text before the
token, but for one thing: a line break that a token ends in the middle of is counted as two breaks
from there on.
-/

namespace TemplateFormula

namespace Position

variable {source : List Char} {p : Position} {i k m : Nat}

/-- The place some lines further on. -/
def lower (p : Position) (k : Nat) : Position := { p with line := p.line + k }

@[simp] theorem lower_index (p : Position) (k : Nat) : (p.lower k).index = p.index := rfl

@[simp] theorem lower_zero (p : Position) : p.lower 0 = p := rfl

theorem lower_lower (p : Position) (k m : Nat) : (p.lower k).lower m = p.lower (k + m) := by
  simp only [lower, Nat.add_assoc]

theorem lower_advance (p : Position) (k : Nat) (cs : List Char) :
    (p.lower k).advance cs = (p.advance cs).lower k := by
  fun_induction advance p cs with
  | case1 p => rw [advance_nil]
  | case2 p cs ih =>
    rw [← ih, advance]
    simp only [lower, Nat.add_right_comm]
  | case3 p cs alone ih =>
    rw [← ih, advance]
    · simp only [lower, Nat.add_right_comm]
    · exact alone
  | case4 p cs ih =>
    rw [← ih, advance]
    simp only [lower, Nat.add_right_comm]
  | case5 p c cs pair return_ feed ih =>
    rw [← ih, advance]
    · rfl
    · exact pair
    · exact return_
    · exact feed

theorem advance_return (p : Position) (vs : List Char) :
    (p.advance ['\r']).advance vs =
      (p.advance ('\r' :: vs)).lower (if InBreak ('\r' :: vs) 1 then 1 else 0) := by
  have first : p.advance ['\r'] = ⟨p.index + 1, p.line + 1, 1⟩ := by simp [advance]
  rw [first]
  cases vs with
  | nil => rw [if_neg (not_inBreak_end (Nat.le_refl 1)), lower_zero, advance_nil, first]
  | cons c vs =>
    by_cases feed : c = '\n'
    · subst feed
      rw [if_pos ⟨Nat.one_pos, rfl, rfl⟩, ← lower_advance p 1, advance, advance]
      simp only [lower]
    · have parts : ¬ InBreak ('\r' :: c :: vs) 1 := fun h => feed (Option.some.inj h.2.2)
      have alone : ∀ ds, c :: vs = '\n' :: ds → False := by
        rintro ds same
        exact feed (List.cons.inj same).1
      rw [if_neg parts, lower_zero, advance.eq_3 _ _ alone]

/-- Advancing over a text in two steps counts a line break that is parted by the steps twice. -/
theorem advance_append (p : Position) (us vs : List Char) :
    (p.advance us).advance vs =
      (p.advance (us ++ vs)).lower (if InBreak (us ++ vs) us.length then 1 else 0) := by
  fun_induction advance p us with
  | case1 p =>
    rw [List.nil_append, List.length_nil, if_neg (not_inBreak_zero vs), lower_zero]
  | case2 p cs ih =>
    have parts : InBreak ('\r' :: '\n' :: (cs ++ vs)) (cs.length + 2) ↔
        InBreak (cs ++ vs) cs.length := by
      rw [inBreak_cons _ (Nat.succ_pos _), inBreak_cons_of_ne (by decide)]
    rw [ih]
    simp only [List.cons_append, List.length_cons, advance, parts]
  | case3 p cs alone ih =>
    cases cs with
    | nil => exact advance_return p vs
    | cons c cs =>
      have parts : InBreak ('\r' :: c :: (cs ++ vs)) (cs.length + 2) ↔
          InBreak (c :: (cs ++ vs)) (cs.length + 1) := inBreak_cons _ (Nat.succ_pos _)
      have single : ∀ ds, c :: (cs ++ vs) = '\n' :: ds → False := by
        rintro ds same
        exact alone cs (congrArg (· :: cs) (List.cons.inj same).1)
      rw [ih]
      simp only [List.cons_append, List.length_cons, advance.eq_3 _ _ single, parts]
  | case4 p cs ih =>
    rw [ih]
    simp only [List.cons_append, List.length_cons, advance,
      inBreak_cons_of_ne (show '\n' ≠ '\r' by decide)]
  | case5 p c cs pair return_ feed ih =>
    rw [ih, List.cons_append, List.length_cons, advance.eq_5 _ _ _ ?_ return_ feed]
    · simp only [inBreak_cons_of_ne return_]
    · rintro ds rfl
      exact absurd rfl return_

/-- The place of an index as counted from the beginning of a text. -/
def ofIndex (source : List Char) (i : Nat) : Position := start.advance (source.take i)

@[simp] theorem ofIndex_index (h : i ≤ source.length) : (ofIndex source i).index = i := by
  rw [ofIndex, advance_index, List.length_take, Nat.min_eq_left h]
  exact Nat.zero_add i

/-- Advancing from one index to the next counts the break that is parted by the first. -/
theorem ofIndex_advance {us : List Char} (hi : i ≤ source.length) (hus : us <+: source.drop i) :
    (ofIndex source i).advance us =
      (ofIndex source (i + us.length)).lower
        (if i < i + us.length ∧ InBreak source i then 1 else 0) := by
  obtain ⟨vs, hvs⟩ := hus
  have taken : source.take i ++ us = source.take (i + us.length) := by
    rw [List.take_add, ← hvs, List.take_left]
  have length : (source.take i).length = i := by rw [List.length_take, Nat.min_eq_left hi]
  have parts : InBreak (source.take (i + us.length)) i ↔ i < i + us.length ∧ InBreak source i := by
    by_cases more : i < i + us.length
    · simp only [InBreak, List.getElem?_take_of_lt more,
        List.getElem?_take_of_lt (Nat.lt_of_le_of_lt (Nat.sub_le i 1) more), more, true_and]
    · refine iff_of_false (not_inBreak_end ?_) fun h => more h.1
      exact Nat.le_trans (List.length_take_le _ _) (Nat.le_of_not_lt more)
  rw [ofIndex, advance_append, length, taken]
  simp only [parts]
  rfl

end Position

namespace Lexer

variable {l l' : Lexer} {x : Lexeme} {source : List Char} {p : Position} {t : Token} {k : Nat}

/-- The place is the lexer's behind some of the characters that are left. -/
def Reach (l : Lexer) (p : Position) : Prop := ∃ us, us <+: l.rest ∧ p = l.position.advance us

theorem reach_here (l : Lexer) : l.Reach l.position :=
  ⟨[], List.nil_prefix, (Position.advance_nil _).symm⟩

theorem reach_take (l : Lexer) (n : Nat) : l.Reach (l.position.advance (l.rest.take n)) :=
  ⟨_, List.take_prefix _ _, rfl⟩

theorem Reach.of_kept (h : l'.Reach p) (kept : Kept l l') : l.Reach p := by
  obtain ⟨us, initial, rfl⟩ := h
  exact ⟨us, kept.rest ▸ initial, by rw [kept.position]⟩

/-- White space is skipped up to another character, so that no line break is parted behind it. -/
theorem Reach.of_skipSpace (h : l.skipSpace.Reach p) : l.Reach p := by
  unfold Lexer.skipSpace at h
  split at h
  · obtain ⟨us, initial, rfl⟩ := h
    dsimp only at initial ⊢
    have whole := List.takeWhile_append_dropWhile (p := isSpace) (l := l.rest)
    refine ⟨l.rest.takeWhile isSpace ++ us, ?_, ?_⟩
    · have longer := (List.prefix_append_right_inj (l.rest.takeWhile isSpace)).2 initial
      rwa [whole] at longer
    · rw [Position.advance_append, if_neg, Position.lower_zero]
      intro parts
      have feed := parts.head?_drop
      rw [List.drop_left] at feed
      obtain ⟨vs, rfl⟩ := List.head?_eq_some_iff.1 feed
      obtain ⟨ws, behind⟩ := initial
      have ink := List.head?_dropWhile_not isSpace l.rest
      rw [← behind] at ink
      have ink : isSpace '\n' = false := ink
      cases ink
  · exact h

/-- An error stands at the lexer or somewhere in what is left. -/
def Result.Near {α : Type} (l : Lexer) (r : Result α) : Prop :=
  ∀ e, r.1 = .error e → l.Reach e.place

theorem near_unexpected (kept : Kept l l') (m : Lexer) (n : Nat) :
    Result.Near l ((.error (l'.unexpected n), m) : Result Lexeme) := by
  rintro _ ⟨⟩
  exact Reach.of_kept (reach_take l' n) kept

theorem near_ok {α : Type} (l m : Lexer) (a : α) : Result.Near l (.ok a, m) := by
  rintro _ ⟨⟩

theorem Settled.near {r : Result Lexeme} (h : l.Settled x r) : r.Near l := by
  cases h with
  | found k ms => exact near_ok l _ _
  | unexpected ms => exact near_unexpected (kept_refl l) _ 0

theorem Scanned.near {r : Result Lexeme} (h : l.Scanned r) : r.Near l := by
  cases h with
  | unexpected n => exact near_unexpected (kept_refl l) _ n
  | unended =>
    rintro _ ⟨⟩
    exact reach_here l
  | sign => exact (settle_settled l _).near
  | island | word | quoted | backtick | free | raw | behindRaw | template | behindTemplate =>
    exact near_ok l _ _

theorem scan_near (l : Lexer) : Result.Near l.skipSpace l.scan := by
  rcases l.scan_outcome with ⟨_, _, scanned⟩ | ⟨_, _, scanned⟩ | ⟨_, scanned⟩
  · rw [scanned]
    exact near_ok _ _ _
  · rw [scanned]
    rintro _ ⟨⟩
    exact reach_here _
  · exact scanned.near

theorem deliver_reach (l : Lexer) (x : Lexeme) :
    l.Reach (l.deliver x).1.start ∧ l.Reach (l.deliver x).1.stop :=
  ⟨reach_here l, reach_take l x.length⟩

theorem nextToken_near (l : Lexer) : Result.Near l l.nextToken := by
  have pulled := pulled_of_eq (l := l) rfl
  generalize l.nextToken = r at pulled
  cases pulled with
  | waiting | found => exact near_ok l _ _
  | failed _ scanned =>
    have near := scan_near l
    rw [scanned] at near
    rintro _ ⟨⟩
    exact (near _ rfl).of_skipSpace

theorem nextToken_reach (ht : l.nextToken = (.ok t, l')) : l.Reach t.start ∧ l.Reach t.stop := by
  cases pulled_of_eq ht with
  | waiting => exact deliver_reach l _
  | @found x m _ scanned =>
    have kept := scan_kept l
    rw [scanned] at kept
    obtain ⟨start, stop⟩ := deliver_reach m x
    exact ⟨(start.of_kept kept).of_skipSpace, (stop.of_kept kept).of_skipSpace⟩

/-- A place in what is left of a text, from the place of the lexer. -/
theorem Reach.eq (h : l.Stands source)
    (counted : l.position = (Position.ofIndex source l.position.index).lower k)
    (reach : l.Reach p) :
    l.position.index ≤ p.index ∧
      p = (Position.ofIndex source p.index).lower
        (k + if l.position.index < p.index ∧ InBreak source l.position.index then 1 else 0) := by
  obtain ⟨us, initial, rfl⟩ := reach
  rw [h.rest_eq] at initial
  rw [Position.advance_index]
  refine ⟨Nat.le_add_right _ _, ?_⟩
  generalize hi : l.position.index = i at counted initial
  have le : i ≤ source.length := hi ▸ h.index_le
  rw [counted, Position.lower_advance, Position.ofIndex_advance le initial, Position.lower_lower,
    Nat.add_comm k]

/-- The line breaks in front of an index that are parted by ends of tokens. -/
def partings (source : List Char) (stops : List Nat) (i : Nat) : Nat :=
  stops.countP fun j => j < i ∧ InBreak source j

theorem partings_cons (source : List Char) (j : Nat) (stops : List Nat) (i : Nat) :
    partings source (j :: stops) i =
      (if j < i ∧ InBreak source j then 1 else 0) + partings source stops i := by
  simp only [partings, List.countP_cons, decide_eq_true_eq]
  exact Nat.add_comm _ _

theorem partings_eq_zero {stops : List Nat} {i : Nat} (h : ∀ j ∈ stops, i ≤ j) :
    partings source stops i = 0 := by
  refine List.countP_eq_zero.2 fun j hj => ?_
  have := h j hj
  simp only [decide_eq_true_eq]
  omega

/-- The places that a run gives out. -/
inductive Places (r : List (Token × Lexer) × Option LexError × Lexer) : Position → Prop where
  | start {t : Token} (h : t ∈ r.1.map (·.1)) : Places r t.start
  | stop {t : Token} (h : t ∈ r.1.map (·.1)) : Places r t.stop
  | error {e : LexError} (h : r.2.1 = some e) : Places r e.place

theorem Places.of_nil {e : Option LexError} (h : Places ([], e, l) p) :
    ∃ f, e = some f ∧ p = f.place := by
  rcases h with h | h | h
  · exact absurd h List.not_mem_nil
  · exact absurd h List.not_mem_nil
  · exact ⟨_, h, rfl⟩

theorem Places.of_cons {ts : List (Token × Lexer)} {e : Option LexError}
    (h : Places ((t, l') :: ts, e, l) p) : (p = t.start ∨ p = t.stop) ∨ Places (ts, e, l) p := by
  rcases h with h | h | h
  · rcases List.mem_cons.1 h with rfl | h
    · exact .inl (.inl rfl)
    · exact .inr (.start h)
  · rcases List.mem_cons.1 h with rfl | h
    · exact .inl (.inr rfl)
    · exact .inr (.stop h)
  · exact .inr (.error h)

theorem Tiles.stop_ge {ts : List (Token × Lexer)} (h : Tiles source l ts) :
    ∀ t ∈ ts.map (·.1), l.position.index ≤ t.stop.index := by
  induction h with
  | nil l => simp
  | last follows _ _ =>
    intro t ht
    obtain rfl := List.mem_singleton.1 ht
    exact follows.stop_ge
  | cons follows _ hl _ ih =>
    intro t ht
    rcases List.mem_cons.1 ht with rfl | ht
    · exact follows.stop_ge
    · exact Nat.le_trans (hl ▸ follows.stop_ge) (ih t ht)

/-- The place is lower than the text before it tells: by some lines and one for each line break that
is parted before it. -/
def Counted (source : List Char) (k : Nat) (stops : List Nat) (p : Position) : Prop :=
  p = (Position.ofIndex source p.index).lower (k + partings source stops p.index)

/-- A place that is reached before any of the other ends of tokens. -/
theorem Reach.counted {stops : List Nat} (h : l.Stands source)
    (counted : l.position = (Position.ofIndex source l.position.index).lower k) (reach : l.Reach p)
    (later : ∀ j ∈ stops, p.index ≤ j) :
    l.position.index ≤ p.index ∧ Counted source k (l.position.index :: stops) p := by
  rw [Counted, partings_cons, partings_eq_zero later, Nat.add_zero]
  exact reach.eq h counted

/-- What has been counted up to the end of a token is counted from its start, too. -/
theorem Counted.carried {stops : List Nat} {i j : Nat} (hij : i < j) (hj : j ≤ p.index)
    (h : Counted source (k + if i < j ∧ InBreak source i then 1 else 0) (j :: stops) p) :
    Counted source k (i :: j :: stops) p := by
  have same : (i < p.index ∧ InBreak source i) ↔ (i < j ∧ InBreak source i) := by
    simp only [hij, Nat.lt_of_lt_of_le hij hj, true_and]
  rw [Counted, partings_cons]
  simp only [same]
  rw [← Nat.add_assoc]
  exact h

/-- A place carries the lines that the lexer is off by and one for each break that is parted on the
way to the place. -/
theorem run_counted (n : Nat) (h : l.Tracks source)
    (counted : l.position = (Position.ofIndex source l.position.index).lower k)
    (place : Places (run n l) p) :
    l.position.index ≤ p.index ∧
      Counted source k (l.position.index :: ((run n l).1.map (·.1)).map (·.stop.index)) p := by
  induction n generalizing l k with
  | zero =>
    obtain ⟨e, none_, _⟩ := place.of_nil
    cases none_
  | succ n ih =>
    have tracks := nextToken_tracks h
    have near := nextToken_near l
    rw [run] at place ⊢
    rcases hnext : l.nextToken with ⟨e | t, l'⟩
    · rw [hnext] at place near
      obtain ⟨_, ⟨⟩, rfl⟩ := place.of_nil
      exact (near e rfl).counted h.toStands counted fun _ h => absurd h List.not_mem_nil
    rw [hnext] at tracks place
    obtain ⟨follows, position⟩ := nextToken_follows h hnext
    obtain ⟨start, stop⟩ := nextToken_reach hnext
    have own {stops : List Nat} (later : ∀ j ∈ stops, t.stop.index ≤ j)
        (hp : p = t.start ∨ p = t.stop) :
        l.position.index ≤ p.index ∧ Counted source k (l.position.index :: stops) p := by
      rcases hp with rfl | rfl
      · exact start.counted h.toStands counted fun j hj =>
          Nat.le_trans follows.start_le (later j hj)
      · exact stop.counted h.toStands counted later
    by_cases ht : t.isEof = true
    · simp only [if_pos ht] at place ⊢
      rcases place.of_cons with hp | none_
      · exact own (by simp) hp
      · obtain ⟨e, ⟨⟩, _⟩ := none_.of_nil
    · simp only [if_neg ht] at place ⊢
      have stops : ∀ j ∈ ((run n l').1.map (·.1)).map (·.stop.index), t.stop.index ≤ j := by
        rw [List.forall_mem_map, ← position]
        exact (run_tiles n tracks).stop_ge
      rcases place.of_cons with hp | later
      · exact own (by simpa using stops) hp
      have lt := (follows.written fun eof => ht (isEof_iff.2 eof)).1
      have past : l.position.index < t.stop.index := Nat.lt_of_le_of_lt follows.gap.le lt
      have counted' := (stop.eq h.toStands counted).2
      rw [← position] at counted'
      obtain ⟨ge, further⟩ := ih tracks counted' later
      rw [position] at ge further
      exact ⟨Nat.le_trans (Nat.le_of_lt past) ge, further.carried past ge⟩

/-- Every place that the lexer gives out, of a token or an error, has the index, the column and, but
for the breaks that are counted twice, the line that the source before it tells. A break is counted
twice where a token ends between the carriage return and the line feed, and only a carriage return
in the free text of a filter is such a token. -/
theorem places_counted (source : List Char) (options : LexerOptions) :
    let start := ofSource source options
    (∀ p, Places start.trace p →
      p = (Position.ofIndex source p.index).lower
        (partings source (start.tokens.map (·.stop.index)) p.index)) ∧
    (∀ r ∈ start.trace.1, InBreak source r.1.stop.index →
      r.1.kind = .char '\r' ∧ r.2.mode = .filter) := by
  intro start
  have tracks := ofSource_tracks source options
  refine ⟨fun p place => ?_, run_inBreak _ tracks (by rintro x ⟨⟩)⟩
  obtain ⟨_, counted⟩ := run_counted (k := 0) _ tracks rfl place
  rwa [Counted, partings_cons, Nat.zero_add, if_neg fun h => not_inBreak_zero _ h.2,
    Nat.zero_add] at counted

/-- A carriage return and a line feed in the free text of a filter, and a backslash behind them. -/
def brokenFilter : List Char := "$\x7bx|f:\r\n\\q\x7d".toList

theorem brokenFilter_line_counted_twice :
    (ofSource brokenFilter ⟨false, true⟩).failure? = some (.unexpectedChar '\\' ⟨8, 3, 1⟩) ∧
      Position.ofIndex brokenFilter 8 = ⟨8, 2, 1⟩ := by
  decide +kernel

end Lexer

end TemplateFormula
