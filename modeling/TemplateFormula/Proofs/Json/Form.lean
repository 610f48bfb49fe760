import TemplateFormula.Json.Printer
import TemplateFormula.Json.Reader
import TemplateFormula.Proofs.Printing.Written
import TemplateFormula.Proofs.Renaming.Value
import TemplateFormula.Proofs.Value.Members

/-!
# The JSON form of a value

JSON has fewer values than the language. The form of a value is what is left of it: members that
cannot be written are gone from objects and are `null` in arrays, numbers that are not finite are
`null`, dates are texts, and a zero has no sign.
-/

namespace TemplateFormula

namespace Value

mutual

/-- How deeply arrays and objects are nested. -/
def nesting : Value → Nat
  | array items => nestingItems items + 1
  | object ms => nestingMembers ms + 1
  | _ => 0

def nestingItems : List Value → Nat
  | [] => 0
  | v :: vs => max (nesting v) (nestingItems vs)

def nestingMembers : List (String × Value) → Nat
  | [] => 0
  | (_, v) :: ms => max (nesting v) (nestingMembers ms)

end

theorem nesting_le_items {items : List Value} {v : Value} (h : v ∈ items) :
    v.nesting ≤ nestingItems items := by
  induction items with
  | nil => cases h
  | cons w vs ih =>
    rw [nestingItems]
    cases h with
    | head => exact Nat.le_max_left _ _
    | tail _ h => exact Nat.le_trans (ih h) (Nat.le_max_right _ _)

theorem nesting_le_members {ms : Members} {m : String × Value} (h : m ∈ ms) :
    m.2.nesting ≤ nestingMembers ms := by
  induction ms with
  | nil => cases h
  | cons n ms ih =>
    rw [nestingMembers]
    cases h with
    | head => exact Nat.le_max_left _ _
    | tail _ h => exact Nat.le_trans (ih h) (Nat.le_max_right _ _)

theorem nesting_lt_array {items : List Value} {v : Value} (h : v ∈ items) :
    v.nesting < (array items).nesting := by
  rw [nesting.eq_def (array items)]
  exact Nat.lt_succ_of_le (nesting_le_items h)

theorem nesting_lt_object {ms : Members} {m : String × Value} (h : m ∈ ms) :
    m.2.nesting < (object ms).nesting := by
  rw [nesting.eq_def (object ms)]
  exact Nat.lt_succ_of_le (nesting_le_members h)

/-- The values that are kept as they should be: members are in order, and the text of a finite
number is read back as that number. -/
inductive Legible : Value → Prop where
  | undefined : Legible undefined
  | null : Legible null
  | boolean (b : Bool) : Legible (boolean b)
  | number {x : Float} (h : x.isFinite → Number.ReadsBack x) : Legible (number x)
  | text (s : String) : Legible (text s)
  | array {items : List Value} (h : ∀ v ∈ items, Legible v) : Legible (array items)
  | object {ms : Members} (order : ms.Ascending) (h : ∀ m ∈ ms, Legible m.2) : Legible (object ms)
  | date (s : Calendar.Stamp) : Legible (date s)
  | function (f : Closure) : Legible (function f)

variable (zone : Calendar.Zone)

mutual

def jsonForm : Value → Value
  | undefined | null | function _ => null
  | boolean b => boolean b
  | number x => if x.isFinite then number (if Number.isZero x then 0 else x) else null
  | text s => text s
  | date s => text (Calendar.isoText zone s)
  | array items => array (jsonItems items)
  | object ms => object (jsonMembers ms)

def jsonItems : List Value → List Value
  | [] => []
  | v :: vs => jsonForm v :: jsonItems vs

def jsonMembers : List (String × Value) → List (String × Value)
  | [] => []
  | (k, v) :: ms => if Json.isSkipped v then jsonMembers ms else (k, jsonForm v) :: jsonMembers ms

end

theorem jsonItems_eq (items : List Value) : jsonItems zone items = items.map (jsonForm zone) := by
  induction items with
  | nil => rfl
  | cons v vs ih => rw [jsonItems, ih, List.map_cons]

theorem jsonMembers_eq (ms : Members) :
    jsonMembers zone ms =
      (ms.filter fun m => !Json.isSkipped m.2).map fun m => (m.1, jsonForm zone m.2) := by
  induction ms with
  | nil => rfl
  | cons m ms ih =>
    rw [jsonMembers, ih]
    cases h : Json.isSkipped m.2 <;> simp [h]

theorem jsonMembers_ascending {ms : Members} (h : ms.Ascending) :
    Members.Ascending (jsonMembers zone ms) := by
  rw [jsonMembers_eq, Members.Ascending, List.pairwise_map]
  exact List.Pairwise.filter _ h

end Value

namespace Json

theorem itemChars_eq (zone : Calendar.Zone) (indent level : Nat) (items : List Value) :
    itemChars zone indent level items = items.map (chars zone indent level) := by
  induction items with
  | nil => rfl
  | cons v vs ih => rw [itemChars, ih, List.map_cons]

theorem memberChars_eq (zone : Calendar.Zone) (indent level : Nat) (ms : Members) :
    memberChars zone indent level ms =
      (ms.filter fun m => !isSkipped m.2).map fun m =>
        quote m.1.toList ++ colon indent ++ chars zone indent level m.2 := by
  induction ms with
  | nil => rfl
  | cons m ms ih =>
    rw [memberChars, ih]
    cases h : isSkipped m.2 <;> simp [h]

/-- Only white space. -/
def IsBlank (cs : List Char) : Prop := ∀ c ∈ cs, isSpace c = true

theorem isBlank_nil : IsBlank [] := by simp [IsBlank]

theorem isBlank_spaces (n : Nat) : IsBlank (spaces n) := by
  intro c hc
  rw [(List.mem_replicate.1 hc).2]
  rfl

theorem isBlank_newline (n : Nat) : IsBlank ('\n' :: spaces n) := by
  intro c hc
  cases hc with
  | head => rfl
  | tail _ hc => exact isBlank_spaces n c hc

theorem skipSpace_blank {cs : List Char} (h : IsBlank cs) (rest : List Char) :
    skipSpace (cs ++ rest) = skipSpace rest := by
  rw [skipSpace, skipSpace, List.dropWhile_append_of_pos h]

theorem skipSpace_visible {c : Char} (h : isSpace c = false) (cs : List Char) :
    skipSpace (c :: cs) = c :: cs := by
  simp [skipSpace, h]

theorem join_lines (inner p : List Char) (ps : List (List Char)) :
    Text.join [',', '\n'] ((p :: ps).map (inner ++ ·)) =
      inner ++ Text.join (',' :: '\n' :: inner) (p :: ps) := by
  induction ps generalizing p with
  | nil => rfl
  | cons q ps ih =>
    have hrest := ih q
    simp only [List.map_cons, Text.join_cons_cons, List.append_assoc, List.cons_append,
      List.nil_append] at hrest ⊢
    rw [hrest]

/-- Items stand behind blanks, with commas between them and blanks behind the last. -/
theorem bracket_layout (indent level : Nat) (opening closing : Char) (items : List (List Char)) :
    ∃ lead post, IsBlank lead ∧ IsBlank post ∧
      bracket indent level opening closing items =
        Written.spaced opening closing lead lead post items := by
  cases items with
  | nil => exact ⟨[], [], isBlank_nil, isBlank_nil, rfl⟩
  | cons p ps =>
    by_cases hindent : indent = 0
    · refine ⟨[], [], isBlank_nil, isBlank_nil, ?_⟩
      rw [bracket, if_neg (by simp), if_pos hindent]
      simp [Written.spaced]
    · refine ⟨'\n' :: spaces (indent * (level + 1)), '\n' :: spaces (indent * level),
        isBlank_newline _, isBlank_newline _, ?_⟩
      rw [bracket, if_neg (by simp), if_neg hindent]
      dsimp only
      rw [join_lines]
      simp [Written.spaced]

theorem colon_layout (indent : Nat) : ∃ gap, IsBlank gap ∧ colon indent = ':' :: gap := by
  by_cases hindent : indent = 0
  · exact ⟨[], isBlank_nil, by rw [colon, if_pos hindent]⟩
  · exact ⟨[' '], isBlank_spaces 1, by rw [colon, if_neg hindent]⟩

end Json

end TemplateFormula
