import TemplateFormula.Proofs.Lexing.Tiling
import TemplateFormula.Proofs.Lexing.Following

/-!
# Line breaks and tokens

A carriage return with its line feed is one line break. Words, quoted texts and stretches of literal
text do not end between the two. Only in the free text of a filter, where every character is a token
of its own, does a token end there.
-/

namespace TemplateFormula

/-- An index between a carriage return and its line feed. -/
def InBreak (cs : List Char) (i : Nat) : Prop :=
  0 < i ∧ cs[i - 1]? = some '\r' ∧ cs[i]? = some '\n'

instance (cs : List Char) (i : Nat) : Decidable (InBreak cs i) :=
  inferInstanceAs (Decidable (_ ∧ _ ∧ _))

section InBreak

variable {cs us vs : List Char} {i n : Nat}

theorem not_inBreak_zero (cs : List Char) : ¬ InBreak cs 0 := fun h => Nat.lt_irrefl _ h.1

theorem not_inBreak_end {cs : List Char} (h : cs.length ≤ i) : ¬ InBreak cs i := by
  rintro ⟨_, _, feed⟩
  rw [List.getElem?_eq_none h] at feed
  cases feed

theorem inBreak_drop (hn : 0 < n) : InBreak (cs.drop i) n ↔ InBreak cs (i + n) := by
  have before : i + n - 1 = i + (n - 1) := by omega
  have pos : 0 < i + n := by omega
  simp only [InBreak, List.getElem?_drop, before, hn, pos]

theorem inBreak_cons (c : Char) (hn : 0 < n) : InBreak (c :: cs) (n + 1) ↔ InBreak cs n := by
  rw [Nat.add_comm, ← inBreak_drop hn, List.drop_one, List.tail_cons]

theorem inBreak_cons_of_ne {c : Char} (hc : c ≠ '\r') :
    InBreak (c :: cs) (n + 1) ↔ InBreak cs n := by
  rcases Nat.eq_zero_or_pos n with rfl | pos
  · refine iff_of_false (fun h => ?_) (not_inBreak_zero cs)
    exact hc (Option.some.inj h.2.1)
  · exact inBreak_cons c pos

/-- What is left behind the carriage return begins with the line feed. -/
theorem InBreak.head?_drop (h : InBreak cs i) : (cs.drop i).head? = some '\n' := by
  rw [List.head?_drop]
  exact h.2.2

/-- What is taken ends in the carriage return. -/
theorem InBreak.mem_take (h : InBreak cs i) : '\r' ∈ cs.take i := by
  obtain ⟨pos, return_, _⟩ := h
  refine List.mem_of_getElem? (i := i - 1) ?_
  rw [List.getElem?_take_of_lt (by omega), return_]

end InBreak

namespace Scan

variable {cs : List Char} {x : Lexeme} {n : Nat}

theorem not_inBreak_of_take (h : '\r' ∉ cs.take n) : ¬ InBreak cs n := fun parts => h parts.mem_take

theorem not_mem_takeWhile {p : Char → Bool} (h : p '\r' = false) (cs : List Char) :
    '\r' ∉ cs.takeWhile p := by
  intro mem
  have := List.all_eq_true.1 List.all_takeWhile _ mem
  rw [h] at this
  cases this

theorem keyword?_whole (h : keyword? cs = some x) : ¬ InBreak cs x.length := by
  obtain ⟨k, member, word, rfl⟩ := keyword?_eq_some h
  refine not_inBreak_of_take fun mem => ?_
  have letter : '\r' ∈ k.1 := by
    rw [← word]
    exact List.mem_map.2 ⟨'\r', mem, by decide⟩
  have plain : ∀ k ∈ keywords, '\r' ∉ k.1 := by decide
  exact plain k member letter

theorem identifier?_whole (h : identifier? cs = some x) : ¬ InBreak cs x.length := by
  have spells := identifier?_spells h
  obtain ⟨c, ds, rfl, start, rfl⟩ := identifier?_eq_some h
  refine not_inBreak_of_take ?_
  rw [← String.ofList_injective spells]
  rintro mem
  rcases List.mem_cons.1 mem with rfl | mem
  · exact absurd start (by decide)
  · exact not_mem_takeWhile (by decide) ds mem

theorem not_mem_wholeChars (cs : List Char) : '\r' ∉ wholeChars cs := by
  unfold wholeChars
  split
  · decide
  · exact not_mem_takeWhile (by decide) _

theorem not_mem_fractionChars (cs : List Char) : '\r' ∉ fractionChars cs := by
  unfold fractionChars
  split
  · dsimp only
    split
    · exact List.not_mem_nil
    · exact List.not_mem_cons_of_ne_of_not_mem (by decide) (not_mem_takeWhile (by decide) _)
  · exact List.not_mem_nil

theorem not_mem_exponentSignChars (cs : List Char) : '\r' ∉ exponentSignChars cs := by
  unfold exponentSignChars
  split <;> decide

theorem not_mem_exponentChars (cs : List Char) : '\r' ∉ exponentChars cs := by
  unfold exponentChars
  split
  · next c cs =>
    split
    · next he =>
      have hc : '\r' ≠ c := by rcases he with rfl | rfl <;> decide
      dsimp only
      split
      · exact List.not_mem_nil
      · rw [List.cons_append]
        refine List.not_mem_cons_of_ne_of_not_mem hc ?_
        rw [List.mem_append]
        exact not_or.2 ⟨not_mem_exponentSignChars cs, not_mem_takeWhile (by decide) _⟩
    · exact List.not_mem_nil
  · exact List.not_mem_nil

theorem not_mem_unsignedChars (cs : List Char) : '\r' ∉ unsignedChars cs := by
  unfold unsignedChars
  dsimp only
  split
  · exact List.not_mem_nil
  · rw [List.mem_append, List.mem_append]
    exact not_or.2 ⟨not_or.2 ⟨not_mem_wholeChars cs, not_mem_fractionChars _⟩,
      not_mem_exponentChars _⟩

theorem not_mem_numeralChars (after : Bool) (cs : List Char) : '\r' ∉ numeralChars after cs := by
  unfold numeralChars
  split
  · dsimp only
    split
    · exact List.not_mem_nil
    · exact List.not_mem_cons_of_ne_of_not_mem (by decide) (not_mem_unsignedChars _)
  · exact not_mem_unsignedChars _

theorem number?_whole {after : Bool} (h : number? after cs = some x) : ¬ InBreak cs x.length := by
  obtain ⟨_, _, _, rfl⟩ := number?_eq_some h
  refine not_inBreak_of_take ?_
  rw [take_of_initial (numeralChars_initial after cs)]
  exact not_mem_numeralChars after cs

theorem punctuator?_whole (h : punctuator? cs = some x) : ¬ InBreak cs x.length := by
  obtain ⟨p, member, initial, rfl⟩ := punctuator?_eq_some h
  have plain : ∀ p ∈ punctuators, '\r' ∉ p.toList := by decide
  refine not_inBreak_of_take ?_
  dsimp only
  rw [take_of_initial initial]
  exact plain p member

theorem quotedLength_closed {q : Char} {m : Nat} (h : quotedLength q n cs = .ok m) :
    n ≤ m ∧ cs[m - n]? = some q := by
  fun_induction quotedLength q n cs with
  | case1 | case2 | case4 => cases h
  | case3 n c cs _ ih =>
    obtain ⟨le, closing⟩ := ih h
    have hm : m - n = m - (n + 2) + 2 := by omega
    exact ⟨by omega, by rw [hm]; exact closing⟩
  | case5 =>
    cases h
    simp
  | case6 n c cs _ _ _ ih =>
    obtain ⟨le, closing⟩ := ih h
    have hm : m - n = m - (n + 1) + 1 := by omega
    exact ⟨by omega, by rw [hm]; exact closing⟩

theorem quoted?_whole (h : quoted? cs = .ok (some x)) : ¬ InBreak cs x.length := by
  obtain ⟨q, ds, m, rfl, quote, closed, rfl⟩ := quoted?_eq_some h
  obtain ⟨le, closing⟩ := quotedLength_closed closed
  have last : (q :: ds)[m]? = some q := by
    obtain ⟨k, rfl⟩ := Nat.exists_eq_add_of_le' le
    simpa using closing
  rintro ⟨_, return_, _⟩
  have return_ : (q :: ds)[m]? = some '\r' := return_
  rw [last] at return_
  obtain rfl := Option.some.inj return_
  rcases quote with quote | quote <;> exact absurd quote (by decide)

/-- Only as a character of free text does a carriage return stand before its line feed. -/
theorem freeChar?_whole (h : freeChar? cs = some x) (parts : InBreak cs x.length) :
    x.kind = .char '\r' := by
  obtain ⟨c, _, rfl, escapes, rfl⟩ | ⟨c, _, rfl, _, rfl⟩ := freeChar?_eq_some h
  · obtain rfl : c = '\r' := Option.some.inj parts.2.1
    exact absurd escapes (by decide)
  · obtain rfl : c = '\r' := Option.some.inj parts.2.1
    rfl

theorem not_mem_dollarPath (cs : List Char) : '\r' ∉ dollarPath cs := by
  unfold dollarPath
  split
  · intro mem
    have := (List.dropWhile_sublist _).subset (List.mem_reverse.1 mem)
    exact not_mem_takeWhile (by decide) cs (List.mem_reverse.1 this)
  · exact List.not_mem_nil

/-- A stretch ends neither in front of a line feed nor, with what was found behind it, in a carriage
return. -/
def Stretch.Whole (s : Stretch) (n : Nat) (cs : List Char) : Prop :=
  n ≤ s.length ∧ (cs.drop (s.length - n)).head? ≠ some '\n' ∧
    ∀ x, s.next = some x → ¬ InBreak (cs.drop (s.length - n)) x.length

theorem Stretch.Whole.here {next : Option Lexeme} (hcs : cs.head? ≠ some '\n')
    (h : ∀ x, next = some x → ¬ InBreak cs x.length) : Stretch.Whole ⟨n, next⟩ n cs := by
  refine ⟨Nat.le_refl _, ?_⟩
  simpa using ⟨hcs, h⟩

theorem Stretch.Whole.later {s : Stretch} (us : List Char) (h : s.Whole (n + us.length) cs) :
    s.Whole n (us ++ cs) := by
  obtain ⟨hn, h⟩ := h
  have hlength : s.length - n = us.length + (s.length - (n + us.length)) := by omega
  rw [Stretch.Whole, hlength, List.drop_length_add_append]
  exact ⟨by omega, h⟩

theorem Stretch.Whole.next_whole {s : Stretch} (h : s.Whole 0 cs) (none_ : s.length = 0)
    (next : s.next = some x) : ¬ InBreak cs x.length := by
  simpa [none_] using h.2.2 x next

theorem rawStretch_whole {s : Stretch} (h : rawStretch n cs = .ok s) : s.Whole n cs := by
  fun_induction rawStretch n cs with
  | case1 | case5 =>
    cases h
    exact .here (by simp) (by simp)
  | case2 | case4 => cases h
  | case3 n c cs _ ih => exact .later ['\\', c] (ih h)
  | case6 n cs hc =>
    cases h
    refine .here (by simp) ?_
    rintro x ⟨⟩ ⟨_, return_, _⟩
    have return_ : cs[0]? = some '\r' := return_
    rw [← List.head?_eq_getElem?, hc] at return_
    exact absurd return_ (by decide)
  | case7 n cs _ _ _ _ ih => exact .later ['$'] (ih h)
  | case8 n cs =>
    cases h
    refine .here (by simp) ?_
    rintro x ⟨⟩
    have hpath : '$' :: dollarPath cs <+: '$' :: cs :=
      (List.prefix_cons_inj _).2 (dollarPath_initial cs)
    have htake : ('$' :: cs).take ((dollarPath cs).length + 1) = '$' :: dollarPath cs :=
      take_of_initial hpath
    refine not_inBreak_of_take ?_
    dsimp only
    rw [htake]
    exact List.not_mem_cons_of_ne_of_not_mem (by decide) (not_mem_dollarPath cs)
  | case9 n c cs _ _ _ ih => exact .later [c] (ih h)

theorem templateStretch_whole {s : Stretch} (h : templateStretch n cs = .ok s) :
    s.Whole n cs := by
  fun_induction templateStretch n cs with
  | case1 =>
    cases h
    exact .here (by simp) (by simp)
  | case2 n =>
    cases h
    exact ⟨by simp, by simp⟩
  | case4 => cases h
  | case3 n c cs _ ih => exact .later ['\\', c] (ih h)
  | case5 n cs =>
    cases h
    refine .here (by simp) ?_
    rintro x ⟨⟩
    exact not_inBreak_of_take (by simp)
  | case6 n c cs =>
    cases h
    refine .here (by simp [backtick]) ?_
    rintro x ⟨⟩
    exact not_inBreak_of_take (by simp [backtick])
  | case7 n c cs _ _ _ _ ih => exact .later [c] (ih h)

end Scan

namespace Lexer

variable {l l' : Lexer} {x y : Lexeme} {source : List Char} {t : Token}

/-- What a scan found ends in front of no line feed that a carriage return before it belongs to,
unless it is this carriage return in free text. -/
structure Result.Whole (rest : List Char) (r : Result Lexeme) : Prop where
  found : ∀ x, r.1 = .ok x → InBreak rest x.length → x.kind = .char '\r' ∧ r.2.mode = .filter
  behind : ∀ x y, r.1 = .ok x → r.2.pending = some y → ¬ InBreak (rest.drop x.length) y.length

theorem whole_error (rest : List Char) (e : LexError) : Result.Whole rest (.error e, l) :=
  ⟨by simp, by simp⟩

theorem whole_ok {rest : List Char} (hp : l.pending = none) (hx : ¬ InBreak rest x.length) :
    Result.Whole rest (.ok x, l) := by
  refine ⟨?_, ?_⟩
  · rintro _ ⟨⟩ parts
    exact absurd parts hx
  · rintro _ y ⟨⟩ hy
    rw [hp] at hy
    cases hy

theorem Settled.whole {rest : List Char} {r : Result Lexeme} (h : l.Settled x r)
    (hp : l.pending = none) (hx : ¬ InBreak rest x.length) : r.Whole rest := by
  cases h with
  | found k ms => exact whole_ok hp hx
  | unexpected ms => exact whole_error _ _

theorem whole_free {rest : List Char} (hp : l.pending = none) (filter : l.mode = .filter)
    (hx : InBreak rest x.length → x.kind = .char '\r') : Result.Whole rest (.ok x, l) := by
  refine ⟨?_, ?_⟩
  · rintro _ ⟨⟩ parts
    exact ⟨hx parts, filter⟩
  · rintro _ y ⟨⟩ hy
    rw [hp] at hy
    cases hy

theorem word?_whole (h : l.word? = some x) : ¬ InBreak l.rest x.length := by
  obtain h | h | h := word?_eq_some h
  · exact Scan.keyword?_whole h
  · exact Scan.identifier?_whole h
  · exact Scan.number?_whole h

/-- A delivered stretch of literal text and what waits behind it. -/
theorem whole_stretch {st : Scan.Stretch} {k : TokenKind} {raw : Option String}
    (hst : st.Whole 0 l.rest) :
    Result.Whole l.rest (.ok ⟨k, raw, st.length⟩, { l' with pending := st.next }) := by
  obtain ⟨_, ends, next⟩ := hst
  refine ⟨?_, ?_⟩
  · rintro _ ⟨⟩ parts
    exact absurd parts.head?_drop ends
  · rintro _ y ⟨⟩ hy
    exact next y hy

theorem Scanned.whole {r : Result Lexeme} (h : l.Scanned r) (hp : l.pending = none) :
    r.Whole l.rest := by
  cases h with
  | unexpected | unended => exact whole_error _ _
  | island _ opens =>
    refine whole_ok hp (Scan.not_inBreak_of_take ?_)
    simp [opens]
  | word found => exact whole_ok hp (word?_whole found)
  | quoted found => exact whole_ok hp (Scan.quoted?_whole found)
  | sign _ found => exact (settle_settled l _).whole hp (Scan.punctuator?_whole found)
  | backtick _ opens =>
    refine whole_ok hp (Scan.not_inBreak_of_take ?_)
    simp [opens, Scan.backtick]
  | free filter found => exact whole_free hp filter (Scan.freeChar?_whole found)
  | raw stretch => exact whole_stretch (Scan.rawStretch_whole stretch)
  | behindRaw stretch none_ next =>
    exact whole_ok hp ((Scan.rawStretch_whole stretch).next_whole none_ next)
  | template _ stretch => exact whole_stretch (Scan.templateStretch_whole stretch)
  | behindTemplate _ stretch none_ next =>
    exact whole_ok (by rw [afterTemplate_pending, hp])
      ((Scan.templateStretch_whole stretch).next_whole none_ next)

theorem scan_whole (hp : l.pending = none) : Result.Whole l.skipSpace.rest l.scan := by
  rw [← skipSpace_pending] at hp
  rcases l.scan_outcome with ⟨_, _, scanned⟩ | ⟨_, _, scanned⟩ | ⟨_, scanned⟩
  · rw [scanned]
    exact whole_ok hp (not_inBreak_zero _)
  · rw [scanned]
    exact whole_error _ _
  · exact scanned.whole hp

/-- What waits to be delivered ends in front of no line feed that belongs to it. -/
def Unparted (l : Lexer) : Prop := ∀ x, l.pending = some x → ¬ InBreak l.rest x.length

theorem deliver_inBreak (h : l.Stands source) (takes : x.Takes l.rest)
    (parts : InBreak source (l.deliver x).1.stop.index) : InBreak l.rest x.length := by
  simp only [deliver, Position.advance_index, List.length_take, Nat.min_eq_left takes.length_le]
    at parts
  rw [h.rest_eq]
  exact (inBreak_drop takes.pos).2 parts

/-- A line break is parted by the end of a token only in free text. -/
theorem nextToken_inBreak (h : l.Tracks source) (hl : l.Unparted) (ht : l.nextToken = (.ok t, l')) :
    l'.Unparted ∧ (InBreak source t.stop.index → t.kind = .char '\r' ∧ l'.mode = .filter) := by
  cases pulled_of_eq ht with
  | @waiting x hx =>
    refine ⟨by rintro x ⟨⟩, fun parts => absurd ?_ (hl x hx)⟩
    exact deliver_inBreak (l := { l with pending := none }) ⟨h.index_le, h.rest_eq⟩ (h.ready x hx)
      parts
  | @found x m idle scanned =>
    have whole := scan_whole idle
    have kept := scan_kept l
    rw [scanned] at whole kept
    have stands : m.Stands source := h.skipSpace.of_kept kept
    refine ⟨fun y (hy : m.pending = some y) => ?_, fun parts => ?_⟩
    · have := whole.behind x y rfl hy
      rwa [← kept.rest] at this
    · obtain ⟨rfl, _, _, hr⟩ | ⟨_, takes, _⟩ := scan_found idle scanned
      · refine absurd parts (not_inBreak_end ?_)
        have length := stands.length_eq
        rw [hr] at length
        simp only [deliver, Position.advance_index]
        exact Nat.le_trans (Nat.le_of_eq length.symm) (Nat.add_le_add_left (Nat.zero_le _) _)
      · exact whole.found x rfl (kept.rest ▸ deliver_inBreak stands takes parts)

theorem run_inBreak (n : Nat) (h : l.Tracks source) (hl : l.Unparted) :
    ∀ r ∈ (run n l).1, InBreak source r.1.stop.index →
      r.1.kind = .char '\r' ∧ r.2.mode = .filter := by
  induction n generalizing l with
  | zero => exact fun r hr => absurd hr List.not_mem_nil
  | succ n ih =>
    have tracks := nextToken_tracks h
    rw [run]
    rcases hnext : l.nextToken with ⟨e | t, l'⟩
    · exact fun r hr => absurd hr List.not_mem_nil
    rw [hnext] at tracks
    obtain ⟨unparted, own⟩ := nextToken_inBreak h hl hnext
    dsimp only
    split
    · exact fun r hr => List.mem_singleton.1 hr ▸ own
    · exact List.forall_mem_cons.2 ⟨own, ih tracks unparted⟩

end Lexer

end TemplateFormula
