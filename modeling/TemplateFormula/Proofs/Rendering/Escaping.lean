import Mathlib
import TemplateFormula.Proofs.Rendering.Document

/-!
# Automatic escaping

The default filter escapes the markup in what an island adds to a text. The text of a number, a date
or an object holds no markup, and escaping leaves it as it is. The filter passes arrays through, so
their text is added as it stands, with the markup of their items.
-/

namespace TemplateFormula

namespace Text.Html

/-- The characters that escaping removes. -/
def markup : List Char := ['<', '>', '"', '\'', '/']

/-- Text that escaping leaves as it is. -/
def IsPlain (cs : List Char) : Prop := ∀ c ∈ cs, entity c = [c]

instance (cs : List Char) : Decidable (IsPlain cs) :=
  List.decidableBAll (fun c => entity c = [c]) cs

theorem escape_of_plain {cs : List Char} (h : IsPlain cs) : escape cs = cs := by
  induction cs with
  | nil => rfl
  | cons c cs ih =>
    rw [escape_cons, h c (by simp), ih fun d hd => h d (by simp [hd])]
    rfl

theorem IsPlain.append {cs ds : List Char} (hc : IsPlain cs) (hd : IsPlain ds) :
    IsPlain (cs ++ ds) := by
  intro c h
  exact (List.mem_append.1 h).elim (hc c) (hd c)

theorem IsPlain.cons {c : Char} {cs : List Char} (hc : entity c = [c]) (h : IsPlain cs) :
    IsPlain (c :: cs) := List.forall_mem_cons.2 ⟨hc, h⟩

theorem IsPlain.subset {cs ds : List Char} (h : IsPlain ds) (sub : cs ⊆ ds) : IsPlain cs :=
  fun c hc => h c (sub hc)

theorem entity_of_isDigit {c : Char} (h : c.isDigit = true) : entity c = [c] := by
  rw [entity.eq_def]
  split <;> first | rfl | cases h

theorem IsPlain.of_digits {cs : List Char} (h : ∀ c ∈ cs, c.isDigit = true) : IsPlain cs :=
  fun c hc => entity_of_isDigit (h c hc)

theorem markup_not_mem_entity (d : Char) : ∀ c ∈ markup, c ∉ entity d := by
  rw [entity.eq_def]
  split
  case h_7 hamp hlt hgt hquote hapostrophe hslash =>
    intro c hc h
    obtain rfl := List.mem_singleton.1 h
    simp only [markup, List.mem_cons, List.not_mem_nil, or_false] at hc
    rcases hc with rfl | rfl | rfl | rfl | rfl <;> contradiction
  all_goals simp [markup]

theorem markup_not_mem_escape {c : Char} (hc : c ∈ markup) (cs : List Char) : c ∉ escape cs := by
  intro h
  obtain ⟨d, _, hd⟩ := List.mem_flatMap.1 h
  exact markup_not_mem_entity d c hc hd

end Text.Html

open Text.Html (IsPlain escape markup)

namespace Number

theorem natChars_plain (n : Nat) : IsPlain (natChars n) :=
  .of_digits fun _ h => Nat.isDigit_of_mem_toDigits (by decide) (by decide) h

theorem replicate_zero_plain (n : Nat) : IsPlain (List.replicate n '0') := by
  intro c h
  rw [List.eq_of_mem_replicate h]
  rfl

theorem padded_plain (width n : Nat) : IsPlain (padded width n) :=
  (replicate_zero_plain _).append (natChars_plain n)

theorem intChars_plain (n : Int) : IsPlain (intChars n) := by
  rw [intChars]
  split
  · exact .cons rfl (natChars_plain _)
  · exact natChars_plain _

theorem signChars_plain (negative : Bool) : IsPlain (signChars negative) := by
  cases negative <;> decide

theorem positional_plain (d : Decimal) : IsPlain d.positional := by
  rw [Decimal.positional]
  split
  · exact (natChars_plain _).append (replicate_zero_plain _)
  · have digits : ∀ n, IsPlain (List.replicate n '0' ++ natChars d.coefficient) :=
      fun n => (replicate_zero_plain n).append (natChars_plain _)
    exact ((digits _).subset (List.take_subset _ _)).append
      (.cons rfl ((digits _).subset (List.drop_subset _ _)))

theorem withExponent_plain (d : Decimal) : IsPlain d.withExponent := by
  have digits := natChars_plain d.coefficient
  rw [Decimal.withExponent]
  split
  · decide
  · next c r h =>
    rw [h] at digits
    refine .cons (digits c (by simp)) (.append ?_ (.cons rfl ?_))
    · split
      · decide
      · exact .cons rfl fun d hd => digits d (by simp [hd])
    · split
      · exact intChars_plain _
      · exact .cons rfl (intChars_plain _)

theorem chars_plain (x : Float) : IsPlain (chars x) := by
  rw [chars]
  split
  · split
    · decide
    · exact (signChars_plain _).append (by decide)
  · split
    · decide
    · refine (signChars_plain _).append ?_
      split
      · exact withExponent_plain _
      · exact positional_plain _

end Number

namespace Calendar

theorem yearChars_plain (year : Int) : IsPlain (yearChars year) := by
  rw [yearChars]
  split
  · exact .cons rfl (Number.padded_plain _ _)
  · exact Number.padded_plain _ _

theorem offsetChars_plain {separator : List Char} (h : IsPlain separator) (seconds : Int) :
    IsPlain (offsetChars separator seconds) := by
  refine .cons ?_ (((Number.padded_plain _ _).append h).append (Number.padded_plain _ _))
  split <;> rfl

/-- The pieces of the form in which dates are shown. -/
def isoPieces : List Piece :=
  [.field .year, .literal '-', .field .monthTwoDigits, .literal '-', .field .dayTwoDigits,
   .literal 'T', .field .hourTwoDigits, .literal ':', .field .minuteTwoDigits, .literal ':',
   .field .secondTwoDigits, .field .offset]

theorem pieces_iso : pieces "YYYY-MM-DDTHH:mm:ssZ".toList = isoPieces := by decide

theorem isoText_plain (zone : Zone) (s : Stamp) : IsPlain (isoText zone s).toList := by
  have offset : IsPlain (offsetChars [':'] (zone.offsetAt s)) :=
    offsetChars_plain (by decide) _
  simp only [isoText, write, pieces_iso, isoPieces, String.toList_ofList, List.flatMap_cons,
    List.flatMap_nil, Piece.write, Field.expansion?, Field.write, List.cons_append, List.nil_append,
    List.append_nil]
  have two (n : Nat) := Number.padded_plain 2 n
  exact (yearChars_plain _).append <| .cons rfl <| (two _).append <| .cons rfl <|
    (two _).append <| .cons rfl <| (two _).append <| .cons rfl <| (two _).append <| .cons rfl <|
    (two _).append offset

end Calendar

namespace Value

/-- The text that the value of an island adds under the filter that escapes markup. -/
def escapedChars (zone : Calendar.Zone) : Value → List Char
  | array items => chars zone (array items)
  | v => escape (v.shownChars zone)

theorem escapedChars_nullish (zone : Calendar.Zone) {v : Value} (h : v.isNullish) :
    v.escapedChars zone = [] := by
  cases v with
  | undefined => rfl
  | null => rfl
  | _ => cases h

theorem escapedChars_of_ne_array (zone : Calendar.Zone) {v : Value} (h : ∀ items, v ≠ array items) :
    v.escapedChars zone = escape (v.shownChars zone) := by
  cases v with
  | array items => exact absurd rfl (h items)
  | _ => rfl

theorem markup_not_mem_escapedChars (zone : Calendar.Zone) {v : Value}
    (h : ∀ items, v ≠ array items) {c : Char} (hc : c ∈ markup) : c ∉ v.escapedChars zone := by
  rw [escapedChars_of_ne_array zone h]
  exact Text.Html.markup_not_mem_escape hc _

/-- Escaping the text of a value before it is shown is escaping what is shown, except that an array
is shown as it is. -/
theorem shownChars_mapText_escape (zone : Calendar.Zone) (v : Value) :
    (Filter.mapText escape v).shownChars zone = v.escapedChars zone := by
  have plain {cs : List Char} (h : IsPlain cs) : cs = escape cs :=
    (Text.Html.escape_of_plain h).symm
  cases v with
  | undefined => rfl
  | null => rfl
  | boolean b =>
    cases b
    · exact plain (show IsPlain "false".toList by decide)
    · exact plain (show IsPlain "true".toList by decide)
  | number x => exact plain (Number.chars_plain x)
  | text s => exact String.toList_ofList
  | array items => rfl
  | object members => exact plain (show IsPlain "[object Object]".toList by decide)
  | date s => exact plain (Calendar.isoText_plain zone s)
  | function f => exact plain (show IsPlain "[function]".toList by decide)

end Value

namespace Expr

/-- The body of an island that has no filters of its own. -/
def unfiltered? : Expr → Option Expr
  | .island (.filter _ _) => none
  | .island body => some body
  | _ => none

theorem unfiltered?_eq {e body : Expr} (h : e.unfiltered? = some body) :
    e = .island body ∧ ∀ input calls, body ≠ .filter input calls := by
  rw [unfiltered?.eq_def] at h
  split at h
  · cases h
  · next unfiltered =>
    cases h
    exact ⟨rfl, unfiltered⟩
  · cases h

end Expr

namespace Eval

variable {σ : Type}

/-- What a part of a document adds to its text: an island without filters of its own adds the
escaped text of the value of its body, every other part the text of its own value. -/
def contribution (limit : Nat) (e : Expr) : Eval σ (List Char) :=
  match e.unfiltered? with
  | some body => do
    let v ← evaluate limit body
    ask fun env => v.escapedChars env.zone
  | none => do
    let v ← evaluate (limit + 1) e
    shown v

def contributions (limit : Nat) : List Expr → Eval σ (List (List Char))
  | [] => pure []
  | e :: es => do
    let cs ← contribution limit e
    return cs :: (← contributions limit es)

/-- The default filter is the built-in one that escapes markup, and documents and islands follow the
built-in rules. -/
structure Escapes (o : Options σ) : Prop where
  filter : o.islandFilter? = some "html"
  found : o.findFilter? "html" = some Filter.html
  document : o.nodeHandler? .document = none
  island : o.nodeHandler? .island = none

theorem escapes_usual : Escapes { Options.usual (σ := σ) with defaultFilter := some "html" } :=
  ⟨rfl, rfl, rfl, rfl⟩

variable {env : Environment σ}

/-- The default filter escapes the value of an island on the way. -/
theorem island_apply (escapes : Escapes env.options) {body : Expr}
    (unfiltered : ∀ input calls, body ≠ .filter input calls) (n : Nat)
    (eval : Entry → Expr → Eval σ Value) (m : Machine σ) :
    island (n + 1) eval body env m =
      (eval .handled body >>= fun v => pure (Filter.mapText escape v)) env m := by
  have filtered (v : Value) (m : Machine σ) :
      pipe (eval .handled) (n + 1) (n + 1) v [.mk "html" []] env m =
        (.ok (Filter.mapText escape v), m) := by
    have ran : runFilter (n + 1) Filter.html v [] [] env m =
        (.ok (Filter.mapText escape v, []), m) := rfl
    simp only [pipe, bind_def, ask, FilterCall.name, FilterCall.args, escapes.found, filterArgs,
      pure_apply, ran]
  have unfold : island (n + 1) eval body env m =
      applyFilters (eval .handled) (n + 1) body [.mk "html" []] env m := by
    simp only [island, bind_def, ask, escapes.filter]
  rw [unfold, applyFilters, bind_def, bind_def]
  rcases eval .handled body env m with ⟨e | v, m₁⟩
  · rfl
  · exact filtered v m₁

theorem contribution_apply (escapes : Escapes env.options) (n : Nat) (e : Expr) (m : Machine σ) :
    contribution (n + 1) e env m = (evaluate (n + 2) e >>= shown) env m := by
  cases h : e.unfiltered? with
  | none =>
    rw [contribution, h]
  | some body =>
    have spread : contribution (σ := σ) (n + 1) e =
        evaluate (n + 1) body >>= fun v => ask fun env => v.escapedChars env.zone := by
      rw [contribution, h]
    obtain ⟨rfl, unfiltered⟩ := Expr.unfiltered?_eq h
    have own : evaluate (n + 2) (.island body) env m =
        (evaluate (n + 1) body >>= fun v => pure (Filter.mapText escape v)) env m := by
      rw [evaluate, within_builtin escapes.island, rule, island_apply escapes unfiltered]
      rfl
    rw [spread, bind_def, bind_def, own, bind_def]
    rcases evaluate (n + 1) body env m with ⟨e | v, m₁⟩
    · rfl
    · simp only [pure_apply, shown_apply, Value.shownChars_mapText_escape]
      rfl

theorem contributions_apply (escapes : Escapes env.options) (n : Nat) (parts : List Expr)
    (m : Machine σ) :
    (contributions (n + 1) parts >>= fun texts => pure texts.flatten) env m =
      glued (evaluate (n + 2)) parts env m := by
  induction parts generalizing m with
  | nil => rfl
  | cons e es ih =>
    have first := contribution_apply escapes n e m
    simp only [bind_def] at first ih ⊢
    simp only [contributions, glued, bind_def, first]
    rcases evaluate (n + 2) e env m with ⟨h | v, m₁⟩
    · rfl
    · simp only [shown_apply, ← ih m₁]
      rcases contributions (n + 1) es env m₁ with ⟨h | texts, m₂⟩
      · rfl
      · rfl

theorem document_contributions (escapes : Escapes env.options) (n : Nat) (parts : List Expr)
    (m : Machine σ) :
    (evaluate (n + 3) (.document parts) >>= shown) env m =
      (contributions (n + 1) parts >>= fun texts => pure texts.flatten) env m := by
  rw [contributions_apply escapes]
  exact evaluate_document_shown escapes.document (n + 2) parts m

end Eval

theorem render_contributions {source : String} {parts : List Expr}
    (parsed : parse source .template = .ok (.document parts)) (clock : Calendar.Clock)
    (data : Value) :
    render source (.plain clock data (some "html")) =
      match Eval.contributions (Eval.usualLimit - 2) parts (.plain clock data (some "html"))
        (.start clock ()) with
      | (.ok texts, _) => String.ofList texts.flatten
      | (.error _, _) => source := by
  have adds : (Eval.evaluate Eval.usualLimit (.document parts) >>= Eval.shown)
      (.plain clock data (some "html")) (.start clock ()) = _ :=
    Eval.document_contributions Eval.escapes_usual (Eval.usualLimit - 3) parts (.start clock ())
  have below : Eval.usualLimit - 3 + 1 = Eval.usualLimit - 2 := rfl
  rw [below] at adds
  rw [render_shown parsed, show (Environment.plain clock data (some "html")).clock = clock from rfl,
    adds, Eval.bind_def]
  generalize Eval.contributions (Eval.usualLimit - 2) parts _ _ = outcome
  obtain ⟨h | texts, m⟩ := outcome
  · rfl
  · rfl

/-- Under the default filter every island without filters of its own adds the escaped text of its
value, which is empty for a missing value and free of markup, unless the value is an array, whose
text is added unescaped. -/
theorem render_escapes {source : String} {parts : List Expr}
    (parsed : parse source .template = .ok (.document parts)) (clock : Calendar.Clock)
    (data : Value) :
    (render source (.plain clock data (some "html")) =
      match Eval.contributions (Eval.usualLimit - 2) parts (.plain clock data (some "html"))
        (.start clock ()) with
      | (.ok texts, _) => String.ofList texts.flatten
      | (.error _, _) => source) ∧
    ∀ v : Value,
      (v.isNullish → v.escapedChars clock.zone = []) ∧
      (¬ v.isNullish → (∀ items, v ≠ .array items) →
        v.escapedChars clock.zone = escape (v.chars clock.zone) ∧
        ∀ c ∈ markup, c ∉ v.escapedChars clock.zone) ∧
      ∀ items, v = .array items → v.escapedChars clock.zone = v.chars clock.zone := by
  refine ⟨render_contributions parsed clock data, fun v => ⟨?missing, ?escaped, ?array⟩⟩
  case missing => exact fun h => Value.escapedChars_nullish clock.zone h
  case escaped =>
    intro filled noArray
    refine ⟨?_, fun c hc => Value.markup_not_mem_escapedChars clock.zone noArray hc⟩
    rw [Value.escapedChars_of_ne_array clock.zone noArray, Value.shownChars, if_neg filled]
  case array =>
    rintro items rfl
    rfl

theorem parse_island_x :
    parse "a$\x7bx\x7d" .template = .ok (.document [.raw "a", .island (.variable "x")]) := by
  cbv

theorem render_escapes_markup :
    parse "a$\x7bx\x7d" .template = .ok (.document [.raw "a", .island (.variable "x")]) ∧
    ∀ clock, render "a$\x7bx\x7d" (.plain clock (.object [("x", .text "<b>")]) (some "html")) =
      "a&lt;b&gt;" := by
  refine ⟨parse_island_x, fun clock => ?_⟩
  have adds := (render_escapes parse_island_x clock (.object [("x", .text "<b>")])).1
  exact adds.trans rfl

/-- An island whose value is a list of one text adds that text with its markup. -/
theorem render_array_unescaped :
    parse "a$\x7bx\x7d" .template = .ok (.document [.raw "a", .island (.variable "x")]) ∧
    ∀ clock,
      let env := Environment.plain clock (.object [("x", .array [.text "<b>"])]) (some "html")
      Eval.evaluate Eval.usualLimit (.variable "x") env (.start clock ()) =
        (.ok (.array [.text "<b>"]), .start clock ()) ∧
      String.ofList (escape ((Value.array [.text "<b>"]).chars clock.zone)) = "&lt;b&gt;" ∧
      render "a$\x7bx\x7d" env = "a<b>" := by
  refine ⟨parse_island_x, fun clock => ⟨rfl, rfl, ?_⟩⟩
  have adds : Eval.contributions (Eval.usualLimit - 2) [.raw "a", .island (.variable "x")]
      (.plain clock (.object [("x", .array [.text "<b>"])]) (some "html")) (.start clock ()) =
        (.ok [['a'], ['<', 'b', '>']], .start clock ()) := rfl
  rw [render_contributions parse_island_x, adds]
  rfl

end TemplateFormula
