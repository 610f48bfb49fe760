import Mathlib
import TemplateFormula.Builtin.Text
import TemplateFormula.Filter.Collection

/-!
# Splitting, joining and replacing

A text is read from the left, and what is read next is an occurrence of the separator or a character
at which none begins. The parts between the occurrences give the text back when they are joined by
the separator, and its replaced form when they are joined by anything else. No part holds the
separator, as none begins at any of its characters.
-/

namespace TemplateFormula.Text

variable {d : List Char}

/-- Induction along the occurrences of a separator, found from the left. -/
theorem occurrences_induction {motive : List Char → Prop} (some : d ≠ []) (nil : motive [])
    (found : ∀ cs, motive cs → motive (d ++ cs))
    (other : ∀ c cs, ¬ d <+: c :: cs → motive cs → motive (c :: cs)) (cs : List Char) :
    motive cs := by
  induction length : cs.length using Nat.strong_induction_on generalizing cs with
  | _ n ih =>
    cases cs with
    | nil => exact nil
    | cons c cs =>
      by_cases here : d <+: c :: cs
      · obtain ⟨rest, split⟩ := here
        have shorter : rest.length < n := by
          rw [← length, ← split, List.length_append]
          exact Nat.lt_add_of_pos_left (List.length_pos_of_ne_nil some)
        exact split ▸ found rest (ih _ shorter rest rfl)
      · exact other c cs here (ih _ (length ▸ Nat.lt_succ_self _) cs rfl)

/-- A reading that passes over characters goes on where they end. -/
theorem skip_eq_drop {α : Type} (read : Nat → List Char → α) (ends : ∀ n, read n [] = read 0 [])
    (pass : ∀ n c cs, read (n + 1) (c :: cs) = read n cs) (skip : Nat) (cs : List Char) :
    read skip cs = read 0 (cs.drop skip) := by
  induction cs generalizing skip with
  | nil => rw [List.drop_nil, ends]
  | cons c cs ih =>
    cases skip with
    | zero => rfl
    | succ skip => rw [pass, ih, List.drop_succ_cons]

theorem splitFrom_skip (skip : Nat) (cs : List Char) :
    splitFrom d skip cs = splitFrom d 0 (cs.drop skip) :=
  skip_eq_drop (splitFrom d) (fun n => by cases n <;> rfl) (fun _ _ _ => rfl) skip cs

theorem splitFrom_found (some : d ≠ []) (cs : List Char) :
    splitFrom d 0 (d ++ cs) = [] :: splitFrom d 0 cs := by
  obtain ⟨c, r, rfl⟩ := List.exists_cons_of_ne_nil some
  have here : (c :: r).isPrefixOf (c :: (r ++ cs)) = true :=
    List.isPrefixOf_iff_prefix.2 (List.prefix_append (c :: r) cs)
  rw [List.cons_append, splitFrom, if_pos here, splitFrom_skip, List.length_cons,
    Nat.add_sub_cancel, List.drop_left]

theorem splitFrom_other {c : Char} {cs : List Char} (none : ¬ d <+: c :: cs) :
    splitFrom d 0 (c :: cs) = consFirst c (splitFrom d 0 cs) := by
  rw [splitFrom, if_neg fun here => none (List.isPrefixOf_iff_prefix.1 here)]

theorem replaceFrom_skip {r : List Char} (skip : Nat) (cs : List Char) :
    replaceFrom d r skip cs = replaceFrom d r 0 (cs.drop skip) :=
  skip_eq_drop (replaceFrom d r) (fun n => by cases n <;> rfl) (fun _ _ _ => rfl) skip cs

theorem replaceFrom_found (some : d ≠ []) (r cs : List Char) :
    replaceFrom d r 0 (d ++ cs) = r ++ replaceFrom d r 0 cs := by
  obtain ⟨c, s, rfl⟩ := List.exists_cons_of_ne_nil some
  have here : (c :: s).isPrefixOf (c :: (s ++ cs)) = true :=
    List.isPrefixOf_iff_prefix.2 (List.prefix_append (c :: s) cs)
  rw [List.cons_append, replaceFrom, if_pos here, replaceFrom_skip, List.length_cons,
    Nat.add_sub_cancel, List.drop_left]

theorem replaceFrom_other {c : Char} {cs : List Char} (none : ¬ d <+: c :: cs) (r : List Char) :
    replaceFrom d r 0 (c :: cs) = c :: replaceFrom d r 0 cs := by
  rw [replaceFrom, if_neg fun here => none (List.isPrefixOf_iff_prefix.1 here)]

/-- There is a first part, and the text begins with it. -/
theorem splitFrom_first (some : d ≠ []) (cs : List Char) :
    ∃ p ps, splitFrom d 0 cs = p :: ps ∧ p <+: cs := by
  induction cs using occurrences_induction some with
  | nil => exact ⟨[], [], rfl, List.nil_prefix⟩
  | found cs _ => exact ⟨[], _, splitFrom_found some cs, List.nil_prefix⟩
  | other c cs none ih =>
    obtain ⟨p, ps, first, begins⟩ := ih
    refine ⟨c :: p, ps, ?_, (List.cons_prefix_cons).2 ⟨rfl, begins⟩⟩
    rw [splitFrom_other none, first, consFirst]

theorem join_cons (glue p q : List Char) (ps : List (List Char)) :
    join glue (p :: q :: ps) = p ++ (glue ++ join glue (q :: ps)) := by
  rw [join_cons_cons, List.append_assoc]

theorem join_consFirst (glue p : List Char) (c : Char) (ps : List (List Char)) :
    join glue (consFirst c (p :: ps)) = c :: join glue (p :: ps) := by
  cases ps with
  | nil => rfl
  | cons q ps => rfl

/-- Replacing is joining the parts by the replacement. -/
theorem join_splitFrom (some : d ≠ []) (r cs : List Char) :
    join r (splitFrom d 0 cs) = replaceFrom d r 0 cs := by
  induction cs using occurrences_induction some with
  | nil => rfl
  | found cs ih =>
    obtain ⟨p, ps, first, -⟩ := splitFrom_first some cs
    rw [splitFrom_found some, replaceFrom_found some, ← ih, first]
    rfl
  | other c cs none ih =>
    obtain ⟨p, ps, first, -⟩ := splitFrom_first some cs
    rw [splitFrom_other none, replaceFrom_other none, ← ih, first, join_consFirst]

/-- Nothing changes where occurrences are replaced by themselves. -/
theorem replaceFrom_self (some : d ≠ []) (cs : List Char) : replaceFrom d d 0 cs = cs := by
  induction cs using occurrences_induction some with
  | nil => rfl
  | found cs ih => rw [replaceFrom_found some, ih]
  | other c cs none ih => rw [replaceFrom_other none, ih]

/-- No part holds the separator. -/
theorem splitFrom_avoids (some : d ≠ []) (cs : List Char) :
    ∀ p ∈ splitFrom d 0 cs, ¬ d <:+: p := by
  have empty : ¬ d <:+: [] := fun within => some (List.infix_nil.1 within)
  induction cs using occurrences_induction some with
  | nil => exact List.forall_mem_singleton.2 empty
  | found cs ih =>
    rw [splitFrom_found some]
    exact List.forall_mem_cons.2 ⟨empty, ih⟩
  | other c cs none ih =>
    obtain ⟨p, ps, first, begins⟩ := splitFrom_first some cs
    rw [first, List.forall_mem_cons] at ih
    rw [splitFrom_other none, first, consFirst]
    refine List.forall_mem_cons.2 ⟨fun within => ?_, ih.2⟩
    rcases List.infix_cons_iff.1 within with here | later
    · exact none (here.trans (List.cons_prefix_cons.2 ⟨rfl, begins⟩))
    · exact ih.1 later

theorem join_characters (cs : List Char) : join [] (cs.map fun c => [c]) = cs := by
  induction cs with
  | nil => rfl
  | cons c cs ih =>
    cases cs with
    | nil => rfl
    | cons d cs => exact congrArg (c :: ·) ih

theorem parts_of_ne_nil (some : d ≠ []) (cs : List Char) : parts d cs = splitFrom d 0 cs := by
  have full : d.isEmpty = false := List.isEmpty_eq_false_iff.2 some
  rw [parts, splitOn, full]
  rfl

/-- The parts give the text back, whatever the separator. -/
theorem join_parts (d cs : List Char) : join d (parts d cs) = cs := by
  by_cases empty : d = []
  · subst empty
    exact join_characters cs
  · rw [parts_of_ne_nil empty, join_splitFrom empty, replaceFrom_self empty]

theorem parts_avoid (some : d ≠ []) (cs : List Char) : ∀ p ∈ parts d cs, ¬ d <:+: p :=
  parts_of_ne_nil some cs ▸ splitFrom_avoids some cs

theorem replace_eq_join (some : d ≠ []) (r cs : List Char) :
    replace d r cs = join r (parts d cs) := by
  have full : d.isEmpty = false := List.isEmpty_eq_false_iff.2 some
  rw [parts_of_ne_nil some, join_splitFrom some, replace, full]
  rfl

end TemplateFormula.Text

namespace TemplateFormula.Filter

open Argument

theorem partChars_texts (zone : Calendar.Zone) (ps : List (List Char)) :
    Value.partChars zone (ps.map Value.ofChars) = ps := by
  induction ps with
  | nil => rfl
  | cons p ps ih =>
    have shown : (Value.ofChars p).shownChars zone = p := Value.chars_ofChars zone p
    rw [List.map_cons, Value.partChars_cons, ih, shown]

theorem join_texts (ctx : FilterContext) (ps : List (List Char)) (args : List Value) :
    join ctx (.array (ps.map Value.ofChars)) args =
      .done (.ofChars (Text.join (givenChars ctx.zone args 0 ",") ps)) := by
  rw [join, Filter.ofTotal]
  dsimp only
  rw [partChars_texts]

theorem replace_texts (clock : Calendar.Clock) (t r : String) (search : List Char) :
    Builtin.replace clock [.text t, .ofChars search, .text r] =
      .ok (.ofChars (Text.replace search r.toList t.toList)) := by
  have searched : chars clock.zone [.text t, .ofChars search, .text r] 1 = search :=
    Value.chars_ofChars clock.zone search
  rw [Builtin.replace, Builtin.ofTotal, searched]
  rfl

/-- The delimiter that the arguments name, a comma without one, splits a text into parts that it
joins to the text again. The function splits as the filter does, no part holds a delimiter that is
not empty, and replacing that is joining the parts by something else. -/
theorem split_joins (ctx : FilterContext) (t : String) (args : List Value) :
    let delimiter := givenChars ctx.zone args 0 ","
    ∃ parts : List (List Char),
      split ctx (.text t) args = .done (.array (parts.map Value.ofChars)) ∧
      Builtin.split ctx.clock (.text t :: args) = .ok (.array (parts.map Value.ofChars)) ∧
      join ctx (.array (parts.map Value.ofChars)) args = .done (.text t) ∧
      (delimiter ≠ [] → ∀ p ∈ parts, ¬ delimiter <:+: p) ∧
      (delimiter ≠ [] → ∀ r : String, ∃ replaced : String,
        Builtin.replace ctx.clock [.text t, .ofChars delimiter, .text r] = .ok (.text replaced) ∧
        join ctx (.array (parts.map Value.ofChars)) [.text r] = .done (.text replaced)) := by
  intro delimiter
  refine ⟨Text.parts delimiter t.toList, rfl, rfl, ?_, fun some => Text.parts_avoid some t.toList,
    fun some r => ⟨_, replace_texts _ _ _ _, ?_⟩⟩
  · rw [join_texts, Text.join_parts, Value.ofChars, String.ofList_toList]
  · rw [join_texts, Text.replace_eq_join some]
    rfl

/-- Of two occurrences that overlap the first one counts. -/
theorem split_joins_overlapping :
    (∀ zone, givenChars zone [.text "aéa"] 0 "," ≠ []) ∧ ∀ ctx : FilterContext,
      split ctx (.text "aéaéa") [.text "aéa"] = .done (.array [.text "", .text "éa"]) ∧
      join ctx (.array [.text "", .text "éa"]) [.text "aéa"] = .done (.text "aéaéa") ∧
      ∃ replaced, Builtin.replace ctx.clock [.text "aéaéa", .text "aéa", .text "-"] =
          .ok (.text replaced) ∧
        join ctx (.array [.text "", .text "éa"]) [.text "-"] = .done (.text replaced) := by
  have some (zone : Calendar.Zone) : givenChars zone [.text "aéa"] 0 "," ≠ [] := by
    change "aéa".toList ≠ []
    decide
  refine ⟨some, fun ctx => ?_⟩
  obtain ⟨parts, found, -, joined, -, replaced⟩ := split_joins ctx "aéaéa" [.text "aéa"]
  have two : split ctx (.text "aéaéa") [.text "aéa"] = .done (.array [.text "", .text "éa"]) := by
    rfl
  have same : parts.map Value.ofChars = [.text "", .text "éa"] :=
    Value.array.inj (FilterProgram.done.inj (found.symm.trans two))
  rw [same] at joined replaced
  exact ⟨two, joined, replaced (some ctx.zone) "-"⟩

end TemplateFormula.Filter
