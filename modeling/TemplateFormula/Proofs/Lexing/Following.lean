import TemplateFormula.Proofs.Lexing.Closing
import TemplateFormula.Proofs.Lexing.Modes
import TemplateFormula.Proofs.Lexing.Places
import Mathlib.Data.List.TakeWhile

/-!
# Text behind an island

A text whose last token before its end closes an island is read token by token in the same way with
more text behind it, and the lexer goes on there as at the start of a text.
-/

namespace TemplateFormula

namespace Scan

/-- More text behind a text does not change what is found at its front, where it is known whether an
operand stands before. -/
structure Parts (afterOperand : Bool) (p u : List Char) : Prop where
  some_ : p ≠ []
  island : ['$', '\x7b'].isPrefixOf (p ++ u) = ['$', '\x7b'].isPrefixOf p
  keyword : keyword? (p ++ u) = keyword? p
  identifier : identifier? (p ++ u) = identifier? p
  number : number? afterOperand (p ++ u) = number? afterOperand p
  punctuator : punctuator? (p ++ u) = punctuator? p
  free : ∀ x, freeChar? p = some x → freeChar? (p ++ u) = some x

theorem freeChar?_append {p : List Char} {x : Lexeme} (h : freeChar? p = some x) (u : List Char) :
    freeChar? (p ++ u) = some x := by
  obtain ⟨c, ds, rfl, escapes, rfl⟩ | ⟨c, ds, rfl, plain, rfl⟩ := freeChar?_eq_some h
  · exact if_pos escapes
  · exact freeChar?_of_ne plain _

/-- A closing brace ends what stands in front of it. -/
theorem parts_brace (afterOperand : Bool) (p u : List Char) :
    Parts afterOperand (p ++ ['\x7d']) u := by
  have spread : (p ++ ['\x7d']) ++ u = p ++ '\x7d' :: u := by simp
  refine ⟨by simp, ?_, ?_, ?_, ?_, ?_, fun x found => freeChar?_append found u⟩ <;> rw [spread]
  · rw [isPrefixOf_closing (by decide), isPrefixOf_closing (by decide)]
  · rw [keyword?_closing parting_brace, keyword?_closing parting_brace]
  · rw [identifier?_closing parting_brace, identifier?_closing parting_brace]
  · have number (u : List Char) :
        number? afterOperand (p ++ '\x7d' :: u) = number? afterOperand p :=
      number?_closing parting_brace (absurd · not_isSign_brace) (absurd · not_isSign_brace)
    rw [number, number]
  · exact punctuator?_closing p u

end Scan

namespace Lexer

variable {l m : Lexer} {x y : Lexeme}

/-- The lexer with more text at its end. -/
def followed (u : List Char) (l : Lexer) : Lexer := { l with rest := l.rest ++ u }

def Closes (l : Lexer) : Prop := l.rest.getLast? = some '\x7d'

theorem Closes.rest_eq (h : l.Closes) : ∃ p, l.rest = p ++ ['\x7d'] :=
  List.getLast?_eq_some_iff.mp h

theorem Closes.parts (h : l.Closes) (u : List Char) : Scan.Parts l.afterOperand l.rest u := by
  obtain ⟨p, rest_eq⟩ := h.rest_eq
  rw [rest_eq]
  exact Scan.parts_brace l.afterOperand p u

theorem Closes.rest_ne (h : l.Closes) : l.rest ≠ [] := (h.parts []).some_

section Settled

variable (u : List Char)

theorem settle_followed (h : l.settle x = (.ok y, m)) :
    (l.followed u).settle x = (.ok y, m.followed u) := by
  obtain ⟨found, ms, settles⟩ := settle_settles l x
  have here := settles l ⟨rfl, rfl, rfl⟩
  have there := settles (l.followed u) ⟨rfl, rfl, rfl⟩
  dsimp only at here there
  rw [here] at h
  rw [there]
  cases found with
  | none => cases (Prod.mk.inj h).1
  | some found =>
    cases h
    rfl

theorem openIsland?_eq (l : Lexer) :
    l.openIsland? = if ['$', '\x7b'].isPrefixOf l.rest then
      some (⟨.openIsland, none, 2⟩, l.push .script) else none := by
  unfold openIsland?
  split
  · next rest_eq => simp [rest_eq]
  · next other =>
    rw [if_neg]
    intro opens
    obtain ⟨cs, rest_eq⟩ := List.isPrefixOf_iff_prefix.mp opens
    exact other cs rest_eq.symm

theorem openIsland?_kind (opened : l.openIsland? = some (y, m)) : y.kind = .openIsland := by
  obtain ⟨_, rfl, _⟩ := openIsland?_eq_some opened
  rfl

theorem openIsland?_followed (h : Scan.Parts l.afterOperand l.rest u) :
    (l.followed u).openIsland? = l.openIsland?.map fun r => (r.1, r.2.followed u) := by
  have island : ['$', '\x7b'].isPrefixOf (l.followed u).rest = ['$', '\x7b'].isPrefixOf l.rest :=
    h.island
  rw [openIsland?_eq, openIsland?_eq, island]
  split <;> rfl

theorem word?_followed (h : Scan.Parts l.afterOperand l.rest u) :
    (l.followed u).word? = l.word? := by
  have keyword : Scan.keyword? (l.followed u).rest = Scan.keyword? l.rest := h.keyword
  have identifier : Scan.identifier? (l.followed u).rest = Scan.identifier? l.rest := h.identifier
  have number : Scan.number? (l.followed u).afterOperand (l.followed u).rest =
      Scan.number? l.afterOperand l.rest := h.number
  unfold word?
  rw [keyword, identifier, number]

theorem head?_followed (some_ : l.rest ≠ []) : (l.followed u).rest.head? = l.rest.head? :=
  List.head?_append_of_ne_nil _ some_

theorem scanExpression_followed (h : Scan.Parts l.afterOperand l.rest u)
    (found : l.scanExpression = (.ok y, m)) :
    (l.followed u).scanExpression = (.ok y, m.followed u) := by
  unfold scanExpression at found ⊢
  rw [word?_followed u h]
  cases word_eq : l.word? with
  | some x =>
    rw [word_eq] at found
    exact settle_followed u found
  | none =>
    rw [word_eq] at found
    dsimp only at found ⊢
    cases quoted_eq : Scan.quoted? l.rest with
    | error e =>
      rw [quoted_eq] at found
      cases e <;> cases (Prod.mk.inj found).1
    | ok quoted =>
      rw [quoted_eq] at found
      have quoted_eq' : Scan.quoted? (l.followed u).rest = .ok quoted :=
        Scan.quoted?_append quoted_eq h.some_ u
      rw [quoted_eq']
      cases quoted with
      | some x => exact settle_followed u found
      | none =>
        have punctuator : Scan.punctuator? (l.followed u).rest = Scan.punctuator? l.rest :=
          h.punctuator
        dsimp only at found ⊢
        rw [head?_followed u h.some_, punctuator]
        cases punctuator_eq : Scan.punctuator? l.rest with
        | some x =>
          rw [punctuator_eq] at found
          exact settle_followed u found
        | none =>
          rw [punctuator_eq] at found
          dsimp only at found ⊢
          by_cases tick : l.rest.head? = some Scan.backtick
          · rw [if_pos tick] at found ⊢
            cases found
            rfl
          · rw [if_neg tick] at found ⊢
            by_cases filter : l.mode = .filter
            · have filter' : (l.followed u).mode = .filter := filter
              rw [if_pos filter] at found
              rw [if_pos filter']
              cases free_eq : Scan.freeChar? l.rest with
              | none =>
                rw [free_eq] at found
                cases (Prod.mk.inj found).1
              | some x =>
                have free_eq' : Scan.freeChar? (l.followed u).rest = some x := h.free x free_eq
                rw [free_eq] at found
                rw [free_eq']
                exact settle_followed u found
            · rw [if_neg filter] at found
              cases (Prod.mk.inj found).1

theorem deliverStretch_followed {kind : String → TokenKind} {s : Scan.Stretch}
    (short : s.length ≤ l.rest.length) :
    (l.followed u).deliverStretch kind s =
      ((l.deliverStretch kind s).1, (l.deliverStretch kind s).2.followed u) := by
  have spelling : (l.followed u).rest.take s.length = l.rest.take s.length :=
    List.take_append_of_le_length short
  unfold deliverStretch
  rw [spelling]
  split <;> rfl

/-- A delivered stretch is literal text, or what was found behind an empty one. -/
theorem deliverStretch_kind {kind : String → TokenKind} {s : Scan.Stretch}
    (delivered : l.deliverStretch kind s = (some y, m)) :
    s.next = some y ∨ ∃ text, y.kind = kind text := by
  unfold deliverStretch at delivered
  split at delivered
  · exact .inl (Prod.mk.inj delivered).1
  · cases delivered
    exact .inr ⟨_, rfl⟩

theorem deliverStretch_short {kind : String → TokenKind} {s : Scan.Stretch} (h : l.Closes)
    (delivered : ∀ y m, l.deliverStretch kind s = (some y, m) → y.length < l.rest.length) :
    s.length < l.rest.length := by
  have some_ : 0 < l.rest.length := List.length_pos_iff.mpr h.rest_ne
  by_cases zero : s.length = 0
  · omega
  · exact delivered _ _ (deliverStretch_of_pos zero)

/-- Literal text ends in front of a variable or an island. -/
theorem scanRaw_found (found : l.scanRaw = (.ok y, m)) :
    ∃ s, Scan.rawStretch 0 l.rest = .ok s ∧
      (l.deliverStretch .raw s = (some y, m) ∨
        l.deliverStretch .raw s = (none, l) ∧ l.openIsland? = some (y, m)) := by
  unfold scanRaw at found
  split at found
  · cases (Prod.mk.inj found).1
  · next s stretch_eq =>
    refine ⟨s, stretch_eq, ?_⟩
    split at found
    · next delivered =>
      cases found
      exact .inl delivered
    · next n delivered =>
      obtain rfl := deliverStretch_none delivered
      split at found
      · next opened =>
        cases found
        exact .inr ⟨delivered, opened⟩
      · cases (Prod.mk.inj found).1

theorem scanTemplate_found (found : l.scanTemplate = (.ok y, m)) :
    ∃ s, Scan.templateStretch 0 l.rest = .ok s ∧
      (l.afterTemplate s.next).deliverStretch .templateRaw s = (some y, m) := by
  unfold scanTemplate at found
  split at found
  · cases (Prod.mk.inj found).1
  · next s stretch_eq =>
    refine ⟨s, stretch_eq, ?_⟩
    split at found
    · next delivered =>
      cases found
      exact delivered
    · cases (Prod.mk.inj found).1

theorem scanRaw_followed (h : l.Closes) (found : l.scanRaw = (.ok y, m))
    (short : y.length < l.rest.length) : (l.followed u).scanRaw = (.ok y, m.followed u) := by
  obtain ⟨s, stretch_eq, outcome⟩ := scanRaw_found found
  have fits : s.length < l.rest.length := by
    refine deliverStretch_short h fun z n (delivered : l.deliverStretch .raw s = _) => ?_
    rcases outcome with same | ⟨none_, _⟩
    · rw [delivered] at same
      cases same
      exact short
    · rw [delivered] at none_
      cases none_
  have longer : Scan.rawStretch 0 (l.followed u).rest = .ok s :=
    Scan.rawStretch_append stretch_eq h (by omega) u
  unfold scanRaw
  rw [longer]
  dsimp only
  rw [deliverStretch_followed u (by omega)]
  rcases outcome with delivered | ⟨none_, opened⟩
  · rw [delivered]
  · rw [none_]
    dsimp only
    rw [openIsland?_followed u (h.parts u), opened]
    rfl

theorem afterTemplate_followed (next : Option Lexeme) :
    (l.followed u).afterTemplate next = (l.afterTemplate next).followed u := by
  unfold afterTemplate
  split
  · split <;> rfl
  · rfl

theorem scanTemplate_followed (h : l.Closes) (found : l.scanTemplate = (.ok y, m))
    (short : y.length < l.rest.length) :
    (l.followed u).scanTemplate = (.ok y, m.followed u) := by
  obtain ⟨s, stretch_eq, outcome⟩ := scanTemplate_found found
  have rest_eq := afterTemplate_rest (l := l) s.next
  have fits : s.length < (l.afterTemplate s.next).rest.length := by
    have closes : (l.afterTemplate s.next).Closes := by
      rw [Closes, rest_eq]
      exact h
    refine deliverStretch_short closes fun z n
      (delivered : (l.afterTemplate s.next).deliverStretch .templateRaw s = _) => ?_
    rw [delivered] at outcome
    cases outcome
    rw [rest_eq]
    exact short
  have longer : Scan.templateStretch 0 (l.followed u).rest = .ok s :=
    Scan.templateStretch_append stretch_eq h (by rw [rest_eq] at fits; omega) u
  unfold scanTemplate
  rw [longer]
  dsimp only
  rw [afterTemplate_followed, deliverStretch_followed u (by omega), outcome]

end Settled

section Pulled

theorem skipSpace_closes (h : l.Closes) : l.skipSpace.Closes := by
  obtain ⟨p, rest_eq⟩ := h.rest_eq
  unfold skipSpace
  split
  · have dropped : l.rest.dropWhile isSpace = p.dropWhile isSpace ++ ['\x7d'] := by
      rw [rest_eq, Scan.dropWhile_closing (by decide)]
    rw [Closes, dropped, List.getLast?_append, List.getLast?_singleton, Option.some_or]
  · exact h

/-- White space in front of something is skipped whatever is behind that. -/
theorem skipSpace_followed (some_ : l.skipSpace.rest ≠ []) (u : List Char) :
    (l.followed u).skipSpace = l.skipSpace.followed u := by
  have mode_eq : (l.followed u).mode = l.mode := rfl
  unfold skipSpace at some_ ⊢
  rw [mode_eq]
  by_cases skips : skipsSpace l.mode = true
  · rw [if_pos skips] at some_
    rw [if_pos skips, if_pos skips]
    have more : ¬ (l.rest.dropWhile isSpace).isEmpty = true := fun none_ =>
      some_ (List.isEmpty_iff.mp none_)
    have dropped : (l.rest ++ u).dropWhile isSpace = l.rest.dropWhile isSpace ++ u := by
      rw [List.dropWhile_append, if_neg more]
    have taken : (l.rest ++ u).takeWhile isSpace = l.rest.takeWhile isSpace := by
      rw [List.takeWhile_append, if_neg]
      intro whole
      have all := (List.takeWhile_prefix isSpace).eq_of_length whole
      exact some_ (List.dropWhile_eq_nil_iff.mpr (List.takeWhile_eq_self_iff.mp all))
    rw [followed, dropped, taken]
    rfl
  · rw [if_neg skips, if_neg skips]

/-- Literal text does not close an island. -/
theorem scanRaw_kind (found : l.scanRaw = (.ok y, m)) : y.kind ≠ .closeIsland := by
  obtain ⟨s, stretch_eq, delivered | ⟨_, opened⟩⟩ := scanRaw_found found
  · rcases deliverStretch_kind delivered with next | ⟨text, kind_eq⟩
    · obtain ⟨path, kind_eq⟩ := Scan.rawStretch_next_kind stretch_eq next
      simp [kind_eq]
    · simp [kind_eq]
  · simp [openIsland?_kind opened]

theorem scanTemplate_kind (found : l.scanTemplate = (.ok y, m)) : y.kind ≠ .closeIsland := by
  obtain ⟨s, stretch_eq, delivered⟩ := scanTemplate_found found
  rcases deliverStretch_kind delivered with next | ⟨text, kind_eq⟩
  · rcases Scan.templateStretch_next_kind stretch_eq next with kind_eq | kind_eq <;>
      simp [kind_eq]
  · simp [kind_eq]

theorem scanInside_followed {u : List Char} (h : Scan.Parts l.afterOperand l.rest u)
    (found : l.scanInside = (.ok y, m)) :
    (l.followed u).scanInside = (.ok y, m.followed u) := by
  unfold scanInside at found ⊢
  rw [openIsland?_followed u h]
  cases opened : l.openIsland? with
  | none =>
    rw [opened] at found
    exact scanExpression_followed u h found
  | some r =>
    rw [opened] at found
    cases found
    rfl

theorem scan_followed (h : l.Closes) (found : l.scan = (.ok y, m))
    (short : y.length < l.skipSpace.rest.length ∨ y.kind = .closeIsland) (u : List Char) :
    (l.followed u).scan = (.ok y, m.followed u) := by
  have closes := skipSpace_closes h
  unfold scan at found ⊢
  rw [skipSpace_followed closes.rest_ne u]
  generalize l.skipSpace = l at found short closes
  have some_ : ¬ l.rest.isEmpty = true := by
    rw [List.isEmpty_iff]
    exact closes.rest_ne
  have some_' : ¬ (l.followed u).rest.isEmpty = true := by
    rw [List.isEmpty_iff, followed]
    exact List.append_ne_nil_of_left_ne_nil closes.rest_ne u
  have mode_eq : (l.followed u).mode = l.mode := rfl
  dsimp only at found ⊢
  rw [if_neg some_] at found
  rw [if_neg some_', mode_eq]
  cases mode : l.mode with
  | start =>
    rw [mode] at found
    have raw := scanRaw_kind found
    exact scanRaw_followed u closes found (short.resolve_right raw)
  | template =>
    rw [mode] at found
    have raw := scanTemplate_kind found
    exact scanTemplate_followed u closes found (short.resolve_right raw)
  | _ =>
    rw [mode] at found
    exact scanInside_followed (closes.parts u) found

theorem deliver_followed (fits : x.length ≤ l.rest.length) (u : List Char) :
    (l.followed u).deliver x = ((l.deliver x).1, (l.deliver x).2.followed u) := by
  have taken : (l.rest ++ u).take x.length = l.rest.take x.length :=
    List.take_append_of_le_length fits
  have dropped : (l.rest ++ u).drop x.length = l.rest.drop x.length ++ u :=
    List.drop_append_of_le_length fits
  simp only [deliver, followed, mode, taken, dropped]

theorem scan_advances (h : l.Closes) (idle : l.pending = none) :
    Result.Advances l.skipSpace.rest l.scan := by
  have some_ := (skipSpace_closes h).rest_ne
  rcases scan_cases idle with ⟨none_, _⟩ | ⟨none_, _⟩ | ⟨_, advances⟩
  · exact absurd none_ some_
  · exact absurd none_ some_
  · exact advances

/-- A token that leaves something of the text, or closes an island, is there whatever is behind the
text. -/
theorem nextToken_followed (ready : l.Ready) (h : l.Closes) {t : Token}
    (pulled : l.nextToken = (.ok t, m)) (more : m.rest ≠ [] ∨ t.kind = .closeIsland)
    (u : List Char) : (l.followed u).nextToken = (.ok t, m.followed u) := by
  have pending_eq : (l.followed u).pending = l.pending := rfl
  cases pulled_of_eq pulled with
  | @waiting x waits =>
    have fits : x.length ≤ { l with pending := none }.rest.length := (ready x waits).length_le
    have delivered := deliver_followed fits u
    rw [nextToken_of_waiting (pending_eq.trans waits)]
    exact congrArg (fun r => (Except.ok r.1, r.2)) delivered
  | @found x l₀ idle scanned =>
    have advances := scan_advances h idle
    rw [scanned] at advances
    have rest_eq : l₀.rest = l.skipSpace.rest := advances.rest_eq
    have fits : x.length ≤ l₀.rest.length := by
      rw [rest_eq]
      exact (advances.takes x rfl).length_le
    have short : x.length < l.skipSpace.rest.length ∨ x.kind = .closeIsland := by
      rcases more with left | closes
      · left
        rw [← rest_eq]
        exact Nat.lt_of_not_le fun le => left (List.drop_eq_nil_of_le le)
      · exact .inr closes
    rw [nextToken_of_found (pending_eq.trans idle) (scan_followed h scanned short u),
      deliver_followed fits u]

end Pulled

section Ends

theorem Settled.closeIsland {r : Result Lexeme} (h : l.Settled x r) (found : r = (.ok y, m))
    (closes : y.kind = .closeIsland) (other : x.kind ≠ .closeIsland) :
    x.kind = .punctuator "\x7d" ∧ y.length = x.length := by
  cases h with
  | found k ms renames =>
    cases found
    obtain rfl : k = .closeIsland := closes
    generalize x.kind = kind at renames other
    cases renames with
    | same => exact absurd rfl other
    | closeIsland => exact ⟨rfl, rfl⟩
  | unexpected => cases found

/-- Only a brace closes an island. -/
theorem Scanned.closeIsland {r : Result Lexeme} (h : l.Scanned r) (found : r = (.ok y, m))
    (closes : y.kind = .closeIsland) : y.length = 1 ∧ ∃ cs, l.rest = '\x7d' :: cs := by
  have plain {x : Lexeme} (unmarked : x.kind.isUnmarked) : x.kind ≠ .closeIsland :=
    TokenKind.ne_of_isUnmarked unmarked rfl
  cases h with
  | unexpected | unended => cases found
  | island | backtick | raw | template =>
    cases found
    cases closes
  | word word =>
    cases found
    exact absurd closes (plain (word?_isUnmarked word))
  | quoted quoted =>
    cases found
    exact absurd closes (plain (Scan.quoted?_isUnmarked quoted))
  | free _ free =>
    cases found
    exact absurd closes (plain (Scan.freeChar?_isUnmarked free))
  | behindRaw stretch _ next =>
    cases found
    obtain ⟨path, kind_eq⟩ := Scan.rawStretch_next_kind stretch next
    simp [kind_eq] at closes
  | behindTemplate _ stretch _ next =>
    cases found
    rcases Scan.templateStretch_next_kind stretch next with kind_eq | kind_eq <;>
      simp [kind_eq] at closes
  | sign _ sign =>
    obtain ⟨p, _, ⟨cs, rest_eq⟩, rfl⟩ := Scan.punctuator?_eq_some sign
    obtain ⟨brace, length_eq⟩ :=
      (settle_settled l _).closeIsland found closes TokenKind.noConfusion
    obtain rfl : p = "\x7d" := TokenKind.punctuator.inj brace
    exact ⟨length_eq, cs, rest_eq.symm⟩

theorem scan_closeIsland (found : l.scan = (.ok y, m)) (closes : y.kind = .closeIsland) :
    y.length = 1 ∧ ∃ cs, l.skipSpace.rest = '\x7d' :: cs := by
  rcases l.scan_outcome with ⟨_, _, ended⟩ | ⟨_, _, ended⟩ | ⟨_, scanned⟩
  · rw [found] at ended
    cases ended
    cases closes
  · rw [found] at ended
    cases ended
  · exact scanned.closeIsland found closes

theorem skipSpace_suffix (l : Lexer) : l.skipSpace.rest <:+ l.rest := by
  unfold skipSpace
  split
  · exact List.dropWhile_suffix _
  · exact List.suffix_rfl

theorem nextToken_suffix (l : Lexer) : l.nextToken.2.rest <:+ l.rest := by
  have rest_eq := (scan_kept l).rest
  have pulled := pulled_of_eq (l := l) rfl
  generalize l.nextToken = r at pulled
  cases pulled with
  | waiting => exact List.drop_suffix _ _
  | failed _ scanned =>
    rw [scanned] at rest_eq
    exact rest_eq ▸ skipSpace_suffix l
  | @found x l₀ _ scanned =>
    rw [scanned] at rest_eq
    have behind : l₀.rest <:+ l.rest := rest_eq ▸ skipSpace_suffix l
    exact (List.drop_suffix x.length l₀.rest).trans behind

theorem closes_of_suffix {cs : List Char} (suffix : cs <:+ l.rest)
    (closes : cs.getLast? = some '\x7d') : l.Closes := by
  obtain ⟨before, rest_eq⟩ := suffix
  rw [Closes, ← rest_eq, List.getLast?_append, closes, Option.some_or]

end Ends

end Lexer

end TemplateFormula
