import TemplateFormula.Proofs.Json.Scalars
import Mathlib.Data.List.Forall2

/-!
# Written JSON read back

The JSON of a value is read as the JSON form of the value, in either layout and for as many levels
of arrays and objects as the reader follows.
-/

namespace TemplateFormula.Json

open Scan (EndsNumeral)

variable {α : Type} {rest lead post : List Char}

theorem endsNumeral_cons {c : Char} (hdigit : c.isDigit = false)
    (hc : c ≠ '.' ∧ c ≠ 'e' ∧ c ≠ 'E') : EndsNumeral (c :: rest) := by
  rintro _ ⟨⟩
  exact ⟨hdigit, hc⟩

theorem endsNumeral_blank (hpost : IsBlank post) (hrest : EndsNumeral rest) :
    EndsNumeral (post ++ rest) := by
  cases post with
  | nil => exact hrest
  | cons c post =>
    have hc := hpost c (by simp)
    simp only [isSpace, Bool.or_eq_true, beq_iff_eq] at hc
    rcases hc with ((rfl | rfl) | rfl) | rfl <;> exact endsNumeral_cons (by decide) (by decide)

/-- The reader takes this text off what follows it, and blanks before it, and finds this. -/
def Takes (item : List Char → Option (α × List Char)) (cs : List Char) (a : α) : Prop :=
  ∀ lead rest, IsBlank lead → EndsNumeral rest → item (lead ++ (cs ++ rest)) = some (a, rest)

/-- The text starts with something other than a blank or a closing bracket. -/
def Starts (closing : Char) (cs : List Char) : Prop :=
  ∃ c r, cs = c :: r ∧ isSpace c = false ∧ c ≠ closing

/-- A reader of items up to a closing bracket, with commas between them. -/
structure TakesList (closing : Char) (item : List Char → Option (α × List Char))
    (take : Nat → List Char → Option (List α × List Char)) : Prop where
  more {n : Nat} {a : α} {cs r r' : List Char} : item cs = some (a, r') → skipSpace r' = ',' :: r →
    take (n + 1) cs = (take n r).map fun q => (a :: q.1, q.2)
  last {n : Nat} {a : α} {cs r r' : List Char} : item cs = some (a, r') →
    skipSpace r' = closing :: r → take (n + 1) cs = some ([a], r)

section Lists

variable {closing : Char} {item : List Char → Option (α × List Char)}
  {take : Nat → List Char → Option (List α × List Char)}

theorem TakesList.join (htake : TakesList closing item take) (hclosing : isSpace closing = false)
    (hend : ∀ rest, EndsNumeral (closing :: rest)) (hlead : IsBlank lead) (hpost : IsBlank post)
    {css : List (List Char)} {as : List α} (h : List.Forall₂ (Takes item) css as) (hne : css ≠ [])
    {n : Nat} (hn : css.length ≤ n) (rest : List Char) :
    take n (lead ++ (Text.join (',' :: lead) css ++ (post ++ closing :: rest))) =
      some (as, rest) := by
  induction h generalizing n with
  | nil => exact absurd rfl hne
  | @cons cs a css as hcs hcss ih =>
    obtain ⟨m, rfl⟩ : ∃ m, n = m + 1 := ⟨n - 1, by simp at hn; omega⟩
    cases hcss with
    | nil =>
      have hitem := hcs lead (post ++ closing :: rest) hlead (endsNumeral_blank hpost (hend rest))
      have hskip : skipSpace (post ++ closing :: rest) = closing :: rest := by
        rw [skipSpace_blank hpost, skipSpace_visible hclosing]
      exact htake.last hitem hskip
    | @cons ds b css as hds hcss =>
      have hmore := ih (List.cons_ne_nil _ _) (Nat.le_of_succ_le_succ hn)
      have hitem := hcs lead (',' :: (lead ++ (Text.join (',' :: lead) (ds :: css) ++
        (post ++ closing :: rest)))) hlead (endsNumeral_cons (by decide) (by decide))
      have hcomma := htake.more (n := m) hitem (skipSpace_visible (by decide) _)
      rw [hmore] at hcomma
      simpa [Text.join_cons_cons] using hcomma

theorem join_cons (glue p : List Char) (ps : List (List Char)) :
    ∃ more, Text.join glue (p :: ps) = p ++ more := by
  cases ps with
  | nil => exact ⟨[], by simp⟩
  | cons q ps => exact ⟨_, by rw [Text.join_cons_cons, List.append_assoc]⟩

theorem skipSpace_join (hlead : IsBlank lead) {css : List (List Char)} (hne : css ≠ [])
    (h : ∀ cs ∈ css, Starts closing cs) (glue rest : List Char) :
    ∃ c r, skipSpace (lead ++ (Text.join glue css ++ rest)) = c :: r ∧ c ≠ closing := by
  obtain ⟨cs, css, rfl⟩ := List.exists_cons_of_ne_nil hne
  obtain ⟨c, r, rfl, hspace, hc⟩ := h cs (by simp)
  obtain ⟨more, hmore⟩ := join_cons glue (c :: r) css
  rw [skipSpace_blank hlead, hmore, List.cons_append, List.cons_append, skipSpace_visible hspace]
  exact ⟨c, _, rfl, hc⟩

theorem length_le_join (glue : List Char) {css : List (List Char)}
    (hcss : ∀ cs ∈ css, Starts closing cs) : css.length ≤ (Text.join glue css).length := by
  induction css with
  | nil => exact Nat.zero_le _
  | cons cs css ih =>
    have hmore := ih fun ds hds => hcss ds (by simp [hds])
    obtain ⟨c, r, rfl, _⟩ := hcss cs (by simp)
    cases css with
    | nil => simp
    | cons ds css =>
      simp only [Text.join_cons_cons, List.length_append, List.length_cons] at hmore ⊢
      omega

end Lists

section Containers

variable {item : List Char → Option (Value × List Char)}

theorem takesList_items : TakesList ']' item (takeItems? item) where
  more hitem hskip := by simp only [takeItems?, hitem, Option.bind_some, hskip]
  last hitem hskip := by simp only [takeItems?, hitem, Option.bind_some, hskip]

theorem takesList_members : TakesList '\x7d' (takeMember? item) (takeMembers? item) where
  more hitem hskip := by simp only [takeMembers?, hitem, Option.bind_some, hskip]
  last hitem hskip := by simp only [takeMembers?, hitem, Option.bind_some, hskip]

/-- There are enough steps for the items of a list. -/
theorem length_le_steps {closing : Char} {css : List (List Char)}
    (hstarts : ∀ cs ∈ css, Starts closing cs) (lead glue rest : List Char) :
    css.length ≤ (lead ++ (Text.join glue css ++ rest)).length := by
  have hlength := length_le_join glue hstarts
  rw [List.length_append, List.length_append]
  omega

theorem takeArray?_spaced (hlead : IsBlank lead) (hpost : IsBlank post) {css : List (List Char)}
    {vs : List Value} (h : List.Forall₂ (Takes item) css vs)
    (hstarts : ∀ cs ∈ css, Starts ']' cs) (rest : List Char) :
    takeArray? item (lead ++ (Text.join (',' :: lead) css ++ (post ++ ']' :: rest))) =
      some (.array vs, rest) := by
  by_cases hne : css = []
  · subst hne
    cases h
    have hskip : skipSpace (lead ++ (post ++ ']' :: rest)) = ']' :: rest := by
      rw [skipSpace_blank hlead, skipSpace_blank hpost, skipSpace_visible (by decide)]
    simp only [takeArray?, Text.join_nil, List.nil_append, hskip]
  · obtain ⟨c, r, hskip, hc⟩ := skipSpace_join hlead hne hstarts (',' :: lead) (post ++ ']' :: rest)
    have hend (rest : List Char) : EndsNumeral (']' :: rest) :=
      endsNumeral_cons (by decide) (by decide)
    have hitems := takesList_items.join (by decide) hend hlead hpost h hne
      (length_le_steps hstarts lead (',' :: lead) (post ++ ']' :: rest)) rest
    rw [takeArray?, hskip]
    split
    · next heq => exact absurd (List.cons.inj heq).1 hc
    · rw [hitems]
      rfl

theorem takeObject?_spaced (hlead : IsBlank lead) (hpost : IsBlank post) {css : List (List Char)}
    {ms : Members} (h : List.Forall₂ (Takes (takeMember? item)) css ms)
    (hstarts : ∀ cs ∈ css, Starts '\x7d' cs) (order : ms.Ascending) (rest : List Char) :
    takeObject? item (lead ++ (Text.join (',' :: lead) css ++ (post ++ '\x7d' :: rest))) =
      some (.object ms, rest) := by
  by_cases hne : css = []
  · subst hne
    cases h
    have hskip : skipSpace (lead ++ (post ++ '\x7d' :: rest)) = '\x7d' :: rest := by
      rw [skipSpace_blank hlead, skipSpace_blank hpost, skipSpace_visible (by decide)]
    simp only [takeObject?, Text.join_nil, List.nil_append, hskip]
  · obtain ⟨c, r, hskip, hc⟩ :=
      skipSpace_join hlead hne hstarts (',' :: lead) (post ++ '\x7d' :: rest)
    have hend (rest : List Char) : EndsNumeral ('\x7d' :: rest) :=
      endsNumeral_cons (by decide) (by decide)
    have hmembers := takesList_members.join (by decide) hend hlead hpost h hne
      (length_le_steps hstarts lead (',' :: lead) (post ++ '\x7d' :: rest)) rest
    rw [takeObject?, hskip]
    split
    · next heq => exact absurd (List.cons.inj heq).1 hc
    · rw [hmembers, Option.map_some, Members.ofList_of_ascending order]

theorem takes_member {cs : List Char} {v : Value} (h : Takes item cs v) (indent : Nat)
    (key : String) :
    Takes (takeMember? item) (quote key.toList ++ colon indent ++ cs) (key, v) := by
  intro lead rest hlead hrest
  obtain ⟨gap, hgap, hcolon⟩ := colon_layout indent
  have hskip : skipSpace (lead ++ (quote key.toList ++ colon indent ++ cs ++ rest)) =
      '"' :: (key.toList.flatMap escapeChar ++ '"' :: ':' :: (gap ++ (cs ++ rest))) := by
    rw [skipSpace_blank hlead, List.append_assoc, List.append_assoc, quote_append,
      skipSpace_visible (by decide), hcolon]
    simp
  have hcolon : skipSpace (':' :: (gap ++ (cs ++ rest))) = ':' :: (gap ++ (cs ++ rest)) :=
    skipSpace_visible (by decide) _
  simp only [takeMember?, hskip, takeString?_flatMap, Option.bind_some, hcolon,
    h gap rest hgap hrest, Option.map_some, String.ofList_toList]

end Containers

theorem takes_array {depth : Nat} (indent level : Nat) {css : List (List Char)} {vs : List Value}
    (h : List.Forall₂ (Takes (takeValue? depth)) css vs) (hstarts : ∀ cs ∈ css, Starts ']' cs) :
    Takes (takeValue? (depth + 1)) (bracket indent level '[' ']' css) (.array vs) := by
  intro before rest hbefore _
  obtain ⟨lead, post, hlead, hpost, hlayout⟩ := bracket_layout indent level '[' ']' css
  have harray := takeArray?_spaced hlead hpost h hstarts rest
  rw [hlayout, takeValue?, skipSpace_blank hbefore]
  simp only [Written.spaced, List.cons_append, List.append_assoc, List.nil_append]
  rw [skipSpace_visible (by decide)]
  exact harray

theorem takes_object {depth : Nat} (indent level : Nat) {css : List (List Char)} {ms : Members}
    (h : List.Forall₂ (Takes (takeMember? (takeValue? depth))) css ms)
    (hstarts : ∀ cs ∈ css, Starts '\x7d' cs) (order : ms.Ascending) :
    Takes (takeValue? (depth + 1)) (bracket indent level '\x7b' '\x7d' css) (.object ms) := by
  intro before rest hbefore _
  obtain ⟨lead, post, hlead, hpost, hlayout⟩ := bracket_layout indent level '\x7b' '\x7d' css
  have hobject := takeObject?_spaced hlead hpost h hstarts order rest
  rw [hlayout, takeValue?, skipSpace_blank hbefore]
  simp only [Written.spaced, List.cons_append, List.append_assoc, List.nil_append]
  rw [skipSpace_visible (by decide)]
  exact hobject

theorem takeValue?_scalar {c : Char} {cs : List Char} (hspace : isSpace c = false)
    (hc : c ≠ '[' ∧ c ≠ '\x7b') (hlead : IsBlank lead) (depth : Nat) :
    takeValue? depth (lead ++ c :: cs) = takeScalar? (c :: cs) := by
  have hskip : skipSpace (lead ++ c :: cs) = c :: cs := by
    rw [skipSpace_blank hlead, skipSpace_visible hspace]
  cases depth with
  | zero => rw [takeValue?, hskip]
  | succ depth =>
    rw [takeValue?, hskip]
    split
    · next heq => exact absurd (List.cons.inj heq).1 hc.1
    · next heq => exact absurd (List.cons.inj heq).1 hc.2
    · rfl

theorem takes_scalar {c : Char} {cs : List Char} {v : Value} (hspace : isSpace c = false)
    (hc : c ≠ '[' ∧ c ≠ '\x7b') (depth : Nat)
    (h : ∀ rest, EndsNumeral rest → takeScalar? (c :: cs ++ rest) = some (v, rest)) :
    Takes (takeValue? depth) (c :: cs) v := by
  intro lead rest hlead hrest
  rw [List.cons_append, takeValue?_scalar hspace hc hlead]
  exact h rest hrest

theorem takes_null (depth : Nat) : Takes (takeValue? depth) nullChars .null :=
  takes_scalar rfl (by decide) depth fun rest _ => by simp [takeScalar?, takeWord?]

theorem takes_text (depth : Nat) (s : String) :
    Takes (takeValue? depth) (quote s.toList) (.text s) := by
  refine takes_scalar rfl (by decide) depth fun rest _ => ?_
  have hread := takeString?_flatMap s.toList rest
  simp [takeScalar?, hread, Value.ofChars]

theorem isSpace_of_number {c : Char} (hc : c = '-' ∨ c.isDigit = true) : isSpace c = false := by
  rw [Bool.eq_false_iff]
  intro hspace
  simp only [isSpace, Bool.or_eq_true, beq_iff_eq] at hspace
  rcases hspace with ((rfl | rfl) | rfl) | rfl <;> revert hc <;> decide

theorem takes_number (depth : Nat) {x : Float} (hx : x.isFinite = true) (h : Number.ReadsBack x) :
    Takes (takeValue? depth) (Number.chars x) (.number (if Number.isZero x then 0 else x)) := by
  obtain ⟨c, cs, hchars, hc⟩ := Number.chars_head h
  have hnumber (rest : List Char) (hrest : EndsNumeral rest) :=
    Number.takeNumber?_chars hx h hrest
  rw [hchars] at hnumber ⊢
  have hfirst : ∀ d ∈ ['"', 't', 'f', 'n', '[', '\x7b'], d ≠ '-' ∧ d.isDigit = false := by simp
  have hne : ∀ d ∈ ['"', 't', 'f', 'n', '[', '\x7b'], c ≠ d := by
    rintro d hd rfl
    obtain ⟨hminus, hdigit⟩ := hfirst c hd
    rcases hc with hc | hc
    · exact hminus hc
    · rw [hdigit] at hc
      cases hc
  refine takes_scalar (isSpace_of_number hc) ⟨hne _ (by simp), hne _ (by simp)⟩ depth
    fun rest hrest => ?_
  have hread := hnumber rest hrest
  rw [takeScalar?.eq_def]
  split
  · next h => exact absurd (List.cons.inj h).1 (hne _ (by simp))
  · next h => exact absurd (List.cons.inj h).1 (hne _ (by simp))
  · next h => exact absurd (List.cons.inj h).1 (hne _ (by simp))
  · next h => exact absurd (List.cons.inj h).1 (hne _ (by simp))
  · rw [hread, Option.map_some]

section Values

variable (zone : Calendar.Zone) (indent : Nat)

theorem starts_bracket (level : Nat) {opening closing : Char} (hspace : isSpace opening = false)
    (hne : opening ≠ ']') (items : List (List Char)) :
    Starts ']' (bracket indent level opening closing items) := by
  obtain ⟨lead, post, _, _, hlayout⟩ := bracket_layout indent level opening closing items
  rw [hlayout]
  exact ⟨_, _, rfl, hspace, hne⟩

theorem starts_chars {v : Value} (h : v.Legible) (level : Nat) :
    Starts ']' (chars zone indent level v) := by
  have hnull : Starts ']' nullChars := ⟨_, _, rfl, rfl, by decide⟩
  cases h with
  | undefined => simpa only [chars] using hnull
  | null => simpa only [chars] using hnull
  | function f => simpa only [chars] using hnull
  | boolean b => cases b <;> exact ⟨_, _, by rw [chars]; rfl, rfl, by decide⟩
  | @number x h =>
    rw [chars]
    by_cases hx : x.isFinite = true
    · rw [if_pos hx]
      obtain ⟨c, cs, hchars, hc⟩ := Number.chars_head (h hx)
      refine ⟨c, cs, hchars, isSpace_of_number hc, ?_⟩
      rintro rfl
      revert hc
      decide
    · rw [if_neg hx]
      exact hnull
  | text s => exact ⟨_, _, by rw [chars]; rfl, rfl, by decide⟩
  | date s => exact ⟨_, _, by rw [chars]; rfl, rfl, by decide⟩
  | array _ =>
    rw [chars]
    exact starts_bracket indent level rfl (by decide) _
  | object _ _ =>
    rw [chars]
    exact starts_bracket indent level rfl (by decide) _

theorem takes_chars {v : Value} (h : v.Legible) (depth level : Nat) (hdepth : v.nesting ≤ depth) :
    Takes (takeValue? depth) (chars zone indent level v) (v.jsonForm zone) := by
  induction h generalizing depth level with
  | undefined => simpa only [chars, Value.jsonForm] using takes_null depth
  | null => simpa only [chars, Value.jsonForm] using takes_null depth
  | function f => simpa only [chars, Value.jsonForm] using takes_null depth
  | boolean b =>
    simp only [chars, Value.jsonForm]
    cases b <;>
      exact takes_scalar rfl (by decide) depth fun rest _ => by simp [takeScalar?, takeWord?]
  | @number x h =>
    simp only [chars, Value.jsonForm]
    by_cases hx : x.isFinite = true
    · rw [if_pos hx, if_pos hx]
      exact takes_number depth hx (h hx)
    · rw [if_neg hx, if_neg hx]
      exact takes_null depth
  | text s => simpa only [chars, Value.jsonForm] using takes_text depth s
  | date s => simpa only [chars, Value.jsonForm] using takes_text depth _
  | @array items h ih =>
    obtain ⟨depth, rfl⟩ : ∃ d, depth = d + 1 := ⟨depth - 1, by rw [Value.nesting] at hdepth; omega⟩
    have hitems : List.Forall₂ (Takes (takeValue? depth))
        (items.map (chars zone indent (level + 1))) (items.map (Value.jsonForm zone)) := by
      rw [List.forall₂_map_left_iff, List.forall₂_map_right_iff, List.forall₂_same]
      intro v hv
      have hless := Value.nesting_lt_array hv
      exact ih v hv depth (level + 1) (by omega)
    have hstarts : ∀ cs ∈ items.map (chars zone indent (level + 1)), Starts ']' cs := by
      intro cs hcs
      obtain ⟨v, hv, rfl⟩ := List.mem_map.1 hcs
      exact starts_chars zone indent (h v hv) (level + 1)
    rw [chars, itemChars_eq, Value.jsonForm, Value.jsonItems_eq]
    exact takes_array indent level hitems hstarts
  | @object ms order h ih =>
    obtain ⟨depth, rfl⟩ : ∃ d, depth = d + 1 := ⟨depth - 1, by rw [Value.nesting] at hdepth; omega⟩
    have hmembers : List.Forall₂ (Takes (takeMember? (takeValue? depth)))
        (memberChars zone indent (level + 1) ms) (Value.jsonMembers zone ms) := by
      rw [memberChars_eq, Value.jsonMembers_eq, List.forall₂_map_left_iff,
        List.forall₂_map_right_iff, List.forall₂_same]
      intro m hm
      have hmem : m ∈ ms := (List.mem_filter.1 hm).1
      have hless := Value.nesting_lt_object hmem
      have hvalue := ih m hmem depth (level + 1) (by omega)
      exact takes_member hvalue indent m.1
    have hstarts : ∀ cs ∈ memberChars zone indent (level + 1) ms, Starts '\x7d' cs := by
      intro cs hcs
      rw [memberChars_eq] at hcs
      obtain ⟨m, _, rfl⟩ := List.mem_map.1 hcs
      exact ⟨'"', _, by rw [quote]; rfl, rfl, by decide⟩
    rw [chars, Value.jsonForm]
    exact takes_object indent level hmembers hstarts (Value.jsonMembers_ascending zone order)

theorem print?_isSome (v : Value) :
    (print? zone indent v).isSome ↔ v ≠ .undefined ∧ ∀ f, v ≠ .function f := by
  cases v <;> simp [print?, isSkipped]

theorem parse?_print? {v : Value} (h : v.Legible) (hnesting : v.nesting ≤ maxNesting) {s : String}
    (hs : print? zone indent v = some s) : parse? s.toList = some (v.jsonForm zone) := by
  have hread := takes_chars zone indent h maxNesting 0 hnesting [] [] isBlank_nil
    (by rintro c ⟨⟩)
  obtain rfl : s = String.ofList (chars zone indent 0 v) := by
    rw [print?] at hs
    split at hs
    · cases hs
    · exact (Option.some.inj hs).symm
  rw [List.nil_append, List.append_nil] at hread
  rw [parse?, parseNested?, String.toList_ofList, hread]
  rfl

/-- A value is written as JSON unless it is undefined or a function, and what is written is valid
JSON and is read as the JSON form of the value. -/
theorem written_json_reads_back (v : Value) :
    ((print? zone indent v).isSome ↔ v ≠ .undefined ∧ ∀ f, v ≠ .function f) ∧
    (v.Legible → v.nesting ≤ maxNesting → ∀ s, print? zone indent v = some s →
      parse? s.toList = some (v.jsonForm zone)) :=
  ⟨print?_isSome zone indent v, fun h hnesting _ hs => parse?_print? zone indent h hnesting hs⟩

/-- A list with a negative zero, a member that cannot be written and a text with escapes. -/
def sample : Value :=
  .object [("a", .array [.number (-0), .undefined]), ("b", .undefined), ("c", .text "x\n\"")]

theorem sample_legible : sample.Legible := by
  have hzero : Number.ReadsBack (-0) := ⟨⟨true, 0, -1074⟩, by rfl, .inl rfl⟩
  refine .object (by decide) ?_
  simp only [List.forall_mem_cons, List.not_mem_nil, false_imp_iff, implies_true, and_true]
  refine ⟨.array ?_, .undefined, .text _⟩
  simp only [List.forall_mem_cons, List.not_mem_nil, false_imp_iff, implies_true, and_true]
  exact ⟨.number fun _ => hzero, .undefined⟩

theorem sample_reads_back :
    sample.Legible ∧ sample.nesting ≤ maxNesting ∧
    print? ⟨0⟩ 1 sample = some
      "\x7b\n \"a\": [\n  0,\n  null\n ],\n \"c\": \"x\\n\\\"\"\n\x7d" ∧
    parse? "\x7b\n \"a\": [\n  0,\n  null\n ],\n \"c\": \"x\\n\\\"\"\n\x7d".toList =
      some (.object [("a", .array [.number 0, .null]), ("c", .text "x\n\"")]) := by
  have hnesting : sample.nesting ≤ maxNesting := by decide
  have hprint : print? ⟨0⟩ 1 sample = some
      "\x7b\n \"a\": [\n  0,\n  null\n ],\n \"c\": \"x\\n\\\"\"\n\x7d" := by rfl
  exact ⟨sample_legible, hnesting, hprint,
    (written_json_reads_back ⟨0⟩ 1 sample).2 sample_legible hnesting _ hprint⟩

end Values

end TemplateFormula.Json
