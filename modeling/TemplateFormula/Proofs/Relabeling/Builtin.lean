import TemplateFormula.Builtin.Table
import TemplateFormula.Proofs.Relabeling.Observation

/-!
# Built-in functions on other functions

A built-in function reads texts, numbers, dates and truth of its arguments only, and what it
returns holds no function value that was not among them.
-/

namespace TemplateFormula

variable (κ : Closure → Closure) (zone : Calendar.Zone) (args : List Value) (i : Nat)

namespace Argument

@[simp] theorem orUndefined_relabel :
    orUndefined (args.map (Value.relabel κ)) i = (orUndefined args i).relabel κ := by
  simp only [orUndefined, List.getD_eq_getElem?_getD, List.getElem?_map]
  cases args[i]? <;> simp

@[simp] theorem given?_relabel :
    given? (args.map (Value.relabel κ)) i = (given? args i).map (Value.relabel κ) := by
  simp only [given?, List.getElem?_map]
  cases args[i]? with
  | none => rfl
  | some v => by_cases h : v.isUndefined = true <;> simp [Option.filter, h]

@[simp] theorem givenChars_relabel (default : String) :
    givenChars zone (args.map (Value.relabel κ)) i default = givenChars zone args i default := by
  simp [givenChars]

@[simp] theorem filledChars_relabel (default : String) :
    filledChars zone (args.map (Value.relabel κ)) i default = filledChars zone args i default := by
  simp only [filledChars, givenChars_relabel]

@[simp] theorem chars_relabel :
    chars zone (args.map (Value.relabel κ)) i = chars zone args i := by
  simp [chars]

@[simp] theorem number_relabel :
    number zone (args.map (Value.relabel κ)) i = number zone args i := by
  simp [number]

@[simp] theorem strictNumber_relabel :
    strictNumber zone (args.map (Value.relabel κ)) i = strictNumber zone args i := by
  simp [strictNumber]

@[simp] theorem date?_relabel :
    date? zone (args.map (Value.relabel κ)) i = date? zone args i := by
  simp only [date?, List.getElem?_map]
  cases args[i]? <;> simp

end Argument

namespace Builtin

/-- A function that does the same whatever the functions among its arguments are. -/
def Natural (f : Builtin) : Prop :=
  ∀ clock args, f clock (args.map (Value.relabel κ)) = (f clock args).map (Value.relabel κ)

variable {κ}

theorem ofTotal_natural {f : Calendar.Zone → List Value → Value}
    (h : ∀ zone args, f zone (args.map (Value.relabel κ)) = (f zone args).relabel κ) :
    Natural κ (ofTotal f) := by
  intro clock args
  simp [ofTotal, h, Except.map]

theorem ofNumber_natural (f : Float → Float) : Natural κ (ofNumber f) :=
  ofTotal_natural fun zone args => by simp

theorem ofText_natural (f : List Char → List Char) : Natural κ (ofText f) :=
  ofTotal_natural fun zone args => by simp

theorem numbers_relabel : numbers zone (args.map (Value.relabel κ)) = numbers zone args := by
  simp [numbers]

theorem terms_relabel :
    terms (args.map (Value.relabel κ)) = (terms args).map (Value.relabel κ) := by
  induction args with
  | nil => rfl
  | cons v vs ih =>
    rw [terms, terms] at ih
    rw [terms, terms, List.map_cons, List.flatMap_cons, List.flatMap_cons, List.map_append, ih]
    cases v <;> simp

theorem total_relabel : total zone (args.map (Value.relabel κ)) = total zone args := by
  rw [total, total, terms_relabel, numbers_relabel]

theorem max_natural : Natural κ max :=
  ofTotal_natural fun zone args => by rw [numbers_relabel, Value.relabel_number]

theorem min_natural : Natural κ min :=
  ofTotal_natural fun zone args => by rw [numbers_relabel, Value.relabel_number]

theorem sum_natural : Natural κ sum :=
  ofTotal_natural fun zone args => by rw [total_relabel, Value.relabel_number]

theorem average_natural : Natural κ average :=
  ofTotal_natural fun zone args => by rw [total_relabel, List.length_map, Value.relabel_number]

theorem mod_natural : Natural κ mod := ofTotal_natural fun zone args => by simp

theorem pi_natural : Natural κ pi := ofTotal_natural fun zone args => by simp

theorem rounding_natural (d : Number.Direction) : Natural κ (rounding d) :=
  ofTotal_natural fun zone args => by simp

theorem upperMoney_natural : Natural κ upperMoney := by
  intro clock args
  rw [upperMoney, upperMoney, Argument.number_relabel, Argument.orUndefined_relabel,
    Value.display_relabel]
  by_cases h : (Argument.number clock.zone args 0).isFinite = true <;> simp [h, Except.map]

theorem left_natural : Natural κ left := ofTotal_natural fun zone args => by simp

theorem right_natural : Natural κ right := ofTotal_natural fun zone args => by simp

theorem mid_natural : Natural κ mid := ofTotal_natural fun zone args => by simp

theorem len_natural : Natural κ len := ofTotal_natural fun zone args => by simp

theorem length_natural : Natural κ length := by
  apply ofTotal_natural
  intro zone args
  have whole := Value.chars_relabel κ zone (.array args)
  rw [Value.relabel_array] at whole
  cases args with
  | nil => simp
  | cons v vs =>
    cases vs with
    | nil =>
      have single := Value.chars_relabel κ zone v
      cases v <;> simp_all
    | cons w ws =>
      simp only [List.map_cons] at whole
      simp [whole]

theorem isEmpty_natural : Natural κ isEmpty := ofTotal_natural fun zone args => by simp

theorem concatenate_natural : Natural κ concatenate :=
  ofTotal_natural fun zone args => by simp [List.flatMap_map]

theorem char_natural : Natural κ char := ofTotal_natural fun zone args => by simp

theorem relabel_texts (css : List (List Char)) :
    (css.map Value.ofChars).map (Value.relabel κ) = css.map Value.ofChars := by
  simp [Function.comp_def]

theorem split_natural : Natural κ split :=
  ofTotal_natural fun zone args => by
    rw [Argument.givenChars_relabel, Argument.chars_relabel, Value.relabel_array, relabel_texts]

theorem testing_natural (test : List Char → List Char → Bool) : Natural κ (testing test) :=
  ofTotal_natural fun zone args => by simp

theorem replace_natural : Natural κ replace := ofTotal_natural fun zone args => by simp

theorem search_natural : Natural κ search := by
  apply ofTotal_natural
  intro zone args
  simp only [Argument.chars_relabel, Argument.number_relabel]
  split <;> simp

theorem relabel_dateOrNull (s : Option Calendar.Stamp) :
    (dateOrNull s).relabel κ = dateOrNull s := by
  cases s <;> simp [dateOrNull]

theorem unitAt?_relabel : unitAt? zone (args.map (Value.relabel κ)) i = unitAt? zone args i := by
  simp only [unitAt?, List.getElem?_map]
  cases args[i]? with
  | none => rfl
  | some v =>
    have h := Value.display_relabel κ zone v
    cases v <;> simp_all

theorem pattern?_relabel : pattern? (args.map (Value.relabel κ)) i = pattern? args i := by
  simp only [pattern?, List.getElem?_map]
  cases args[i]? <;> simp

theorem date_natural : Natural κ date := by
  apply ofTotal_natural
  intro zone args
  have part_eq (i : Nat) : ((args.map (Value.relabel κ))[i]?).map (Value.toNumber zone) =
      (args[i]?).map (Value.toNumber zone) := by
    simp
  simp only [List.length_map, Argument.date?_relabel, part_eq]
  split <;> rw [relabel_dateOrNull]

theorem timestamp_natural : Natural κ timestamp := by
  apply ofTotal_natural
  intro zone args
  simp only [Argument.date?_relabel, Argument.chars_relabel]
  cases Argument.date? zone args 0 with
  | none => simp
  | some s => by_cases h : Argument.chars zone args 1 = ['x'] <;> simp [h]

theorem today_natural : Natural κ today := by
  intro clock args
  simp [today, Except.map]

theorem now_natural : Natural κ now := by
  intro clock args
  simp [now, Except.map]

theorem dateToText_natural : Natural κ dateToText := by
  apply ofTotal_natural
  intro zone args
  simp only [Argument.date?_relabel, pattern?_relabel]
  cases Argument.date? zone args 0 <;> simp

theorem boundary_natural (f : Calendar.Stamp → Calendar.Unit → Calendar.Stamp) :
    Natural κ (boundary f) :=
  ofTotal_natural fun zone args => by
    rw [Argument.date?_relabel, unitAt?_relabel, relabel_dateOrNull]

theorem part_natural (f : Calendar.Stamp → Int) : Natural κ (part f) := by
  apply ofTotal_natural
  intro zone args
  simp only [Argument.date?_relabel]
  cases Argument.date? zone args 0 <;> simp

theorem difference_natural (unit : Calendar.Unit) : Natural κ (difference unit) := by
  apply ofTotal_natural
  intro zone args
  simp only [Argument.date?_relabel]
  cases Argument.date? zone args 0 <;> cases Argument.date? zone args 1 <;> simp

theorem dateModify_natural : Natural κ dateModify := by
  apply ofTotal_natural
  intro zone args
  have unit_eq : ((args.map (Value.relabel κ))[2]?).bind (fun v =>
        Calendar.Unit.parse? (v.display zone)) =
      (args[2]?).bind fun v => Calendar.Unit.parse? (v.display zone) := by
    rw [List.getElem?_map]
    cases args[2]? <;> simp
  simp only [Argument.date?_relabel, Argument.number_relabel, unit_eq, relabel_dateOrNull]

theorem textToDate_natural : Natural κ textToDate := by
  apply ofTotal_natural
  intro zone args
  simp only [pattern?_relabel, List.head?_map]
  cases args.head? with
  | none => simp
  | some v =>
    have h := Value.toDate?_relabel κ zone v
    cases v <;> simp_all [relabel_dateOrNull]

theorem comparing_natural (test : Calendar.Stamp → Calendar.Stamp → Calendar.Unit → Bool) :
    Natural κ (comparing test) := by
  apply ofTotal_natural
  intro zone args
  simp only [Argument.date?_relabel, unitAt?_relabel]
  cases Argument.date? zone args 0 <;> cases Argument.date? zone args 1 <;>
    cases unitAt? zone args 2 <;> simp

theorem count_natural : Natural κ count := by
  apply ofTotal_natural
  intro zone args
  simp only [List.head?_map]
  cases args.head? with
  | none => simp
  | some v =>
    have h := Value.isTruthy_relabel κ v
    cases v <;> simp_all

theorem table_natural : ∀ entry ∈ table, Natural κ entry.2 := by
  simp only [table, List.forall_mem_cons, ofNumber_natural, ofText_natural, max_natural,
    min_natural, sum_natural, mod_natural, pi_natural, rounding_natural, average_natural,
    upperMoney_natural, left_natural, right_natural, len_natural, length_natural,
    isEmpty_natural, concatenate_natural, char_natural, split_natural, testing_natural,
    replace_natural, search_natural, mid_natural, date_natural, timestamp_natural,
    today_natural, now_natural, dateToText_natural, boundary_natural, part_natural,
    difference_natural, dateModify_natural, textToDate_natural, comparing_natural,
    count_natural, true_and]
  intro entry none
  cases none

theorem find?_natural {name : String} {f : Builtin} (found : find? name = some f) :
    Natural κ f := by
  obtain ⟨k, hk⟩ : ∃ k, (k, f) ∈ table := by
    have h := List.lookup_eq_some_iff.mp found
    obtain ⟨before, after, h, _⟩ := h
    exact ⟨name, by rw [h]; simp⟩
  exact table_natural (k, f) hk

end Builtin

end TemplateFormula
