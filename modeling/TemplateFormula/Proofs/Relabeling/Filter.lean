import TemplateFormula.Filter.Table
import TemplateFormula.Proofs.Relabeling.Builtin
import TemplateFormula.Proofs.Relabeling.Json

/-!
# Filters on other functions

A built-in filter can tell two functions apart but not what they are.
-/

namespace TemplateFormula

variable (κ : Closure → Closure)

def FilterContext.relabel (ctx : FilterContext) : FilterContext := ⟨ctx.clock, ctx.data.relabel κ⟩

/-- Programs that take the same steps on values with other functions. -/
inductive FilterProgram.Relabeled : FilterProgram → FilterProgram → Prop
  | done (v : Value) : Relabeled (.done v) (.done (v.relabel κ))
  | fail (e : EvalError) : Relabeled (.fail e) (.fail e)
  | apply {name : String} {input : Value} {args : List Value}
      {next next' : Except EvalError Value → FilterProgram}
      (failed : ∀ e, Relabeled (next (.error e)) (next' (.error e)))
      (gone : ∀ v, Relabeled (next (.ok v)) (next' (.ok (v.relabel κ)))) :
      Relabeled (.apply name input args next)
        (.apply name (input.relabel κ) (args.map (Value.relabel κ)) next')
  | known {name : String} {next next' : Bool → FilterProgram}
      (after : ∀ b, Relabeled (next b) (next' b)) : Relabeled (.known name next) (.known name next')
  | waiting {next next' : List FilterCall → FilterProgram}
      (after : ∀ calls, Relabeled (next calls) (next' calls)) :
      Relabeled (.waiting next) (.waiting next')
  | replaceWaiting {calls : List FilterCall} {next next' : FilterProgram}
      (after : Relabeled next next') :
      Relabeled (.replaceWaiting calls next) (.replaceWaiting calls next')

namespace FilterContext

@[simp] theorem zone_relabel (ctx : FilterContext) : (ctx.relabel κ).zone = ctx.zone := rfl

@[simp] theorem resolve_relabel (ctx : FilterContext) (v : Value) :
    (ctx.relabel κ).resolve (v.relabel κ) = (ctx.resolve v).relabel κ := by
  cases v with
  | text s =>
    rw [Value.relabel_text, resolve, resolve]
    by_cases list : s.toList.contains ',' = true
    · rw [if_pos list, if_pos list, Value.relabel_array, Builtin.relabel_texts]
    · rw [if_neg list, if_neg list, relabel, Path.resolve_relabel]
      cases Path.resolve s.toList ctx.data <;> simp
  | _ => simp [resolve]

@[simp] theorem resolve_text_relabel (ctx : FilterContext) (s : String) :
    (ctx.relabel κ).resolve (.text s) = (ctx.resolve (.text s)).relabel κ := by
  rw [← resolve_relabel, Value.relabel_text]

end FilterContext

namespace Filter

/-- A filter that takes the same steps whatever the functions are. -/
def Natural (f : Filter) : Prop :=
  ∀ ctx input args, FilterProgram.Relabeled κ (f ctx input args)
    (f (ctx.relabel κ) (input.relabel κ) (args.map (Value.relabel κ)))

variable {κ}

theorem ofFunction_natural {f : FilterContext → Value → List Value → Except EvalError Value}
    (h : ∀ ctx input args, f (ctx.relabel κ) (input.relabel κ) (args.map (Value.relabel κ)) =
      (f ctx input args).map (Value.relabel κ)) :
    Natural κ (ofFunction f) := by
  intro ctx input args
  rw [ofFunction, ofFunction, h]
  cases f ctx input args with
  | ok v => exact .done v
  | error e => exact .fail e

theorem ofTotal_natural {f : FilterContext → Value → List Value → Value}
    (h : ∀ ctx input args, f (ctx.relabel κ) (input.relabel κ) (args.map (Value.relabel κ)) =
      (f ctx input args).relabel κ) :
    Natural κ (ofTotal f) := by
  intro ctx input args
  rw [ofTotal, ofTotal, h]
  exact .done _

section Text

variable (ctx : FilterContext) (zone : Calendar.Zone)

theorem mapText_relabel (f : List Char → List Char) (v : Value) :
    mapText f (v.relabel κ) = (mapText f v).relabel κ := by
  cases v <;> simp [mapText]

theorem html_natural : Natural κ html := ofTotal_natural fun _ _ _ => mapText_relabel _ _

theorem raw_natural : Natural κ raw := ofTotal_natural fun _ _ _ => rfl

theorem trim_natural : Natural κ trim := ofTotal_natural fun _ _ _ => mapText_relabel _ _

theorem lowerCase_natural : Natural κ lowerCase :=
  ofTotal_natural fun _ _ _ => mapText_relabel _ _

theorem upperCase_natural : Natural κ upperCase :=
  ofTotal_natural fun _ _ _ => mapText_relabel _ _

theorem truncate_natural : Natural κ truncate := by
  apply ofTotal_natural
  intro ctx input args
  cases input with
  | text s =>
    simp only [Value.relabel_text, List.head?_map]
    cases args.head? with
    | none => simp
    | some v => by_cases h : v.isNullish = true <;> simp [Option.filter, h]
  | _ => simp

theorem urlEncode_natural : Natural κ urlEncode := ofTotal_natural fun _ _ _ => by simp

theorem urlDecode_natural : Natural κ urlDecode := ofTotal_natural fun _ _ _ => by simp

theorem base64Encode_natural : Natural κ base64Encode := ofTotal_natural fun _ _ _ => by simp

theorem base64Decode_natural : Natural κ base64Decode := by
  apply ofFunction_natural
  intro ctx input args
  simp only [Value.chars_relabel, FilterContext.zone_relabel]
  cases Text.Base64.decode? (input.chars ctx.zone) <;> simp [Except.map]

theorem indentation_relabel (v : Option Value) :
    indentation zone (v.map (Value.relabel κ)) = indentation zone v := by
  cases v <;> simp [indentation]

theorem json_natural : Natural κ json := by
  apply ofTotal_natural
  intro ctx input args
  simp only [Argument.given?_relabel, indentation_relabel, Json.print?_relabel,
    FilterContext.zone_relabel]
  split <;> simp

theorem toJson_natural : Natural κ toJson := ofTotal_natural fun _ _ _ => by simp

theorem toInt_natural : Natural κ toInt :=
  ofTotal_natural fun _ input _ => by cases input <;> simp

theorem toFloat_natural : Natural κ toFloat :=
  ofTotal_natural fun _ input _ => by cases input <;> simp

theorem fallback_relabel (v : Option Value) :
    fallback (v.map (Value.relabel κ)) = (fallback v).relabel κ := by
  cases v with
  | none => simp [fallback]
  | some v =>
    cases v with
    | text s => by_cases h : s = "undefined" <;> simp [fallback, h]
    | _ => simp [fallback]

theorem default_natural : Natural κ default := by
  apply ofTotal_natural
  intro ctx input args
  simp only [Argument.orUndefined_relabel, Value.isTruthy_relabel, Value.isNullish_relabel,
    List.head?_map, fallback_relabel]
  split <;> rfl

theorem asArray_natural : Natural κ asArray := by
  apply ofTotal_natural
  intro ctx input args
  have truthy := Value.isTruthy_relabel κ input
  by_cases h : input.isTruthy = true <;> cases input <;> simp_all

end Text

section Number

theorem number_natural : Natural κ number := ofTotal_natural fun _ _ _ => by simp

theorem decimals_relabel (zone : Calendar.Zone) (args : List Value) (default : Nat) :
    decimals zone (args.map (Value.relabel κ)) default = decimals zone args default := by
  simp [decimals, Function.comp_def]

theorem percent_natural : Natural κ percent :=
  ofTotal_natural fun _ _ _ => by simp [decimals_relabel]

theorem round_natural : Natural κ round := by
  apply ofTotal_natural
  intro ctx input args
  simp only [Value.toNumber_relabel, FilterContext.zone_relabel, decimals_relabel]
  split <;> simp

theorem bytes_natural : Natural κ bytes := by
  apply ofTotal_natural
  intro ctx input args
  simp only [Value.isTruthy_relabel, Value.chars_relabel, FilterContext.zone_relabel]
  split <;> simp

theorem step_natural (op : Float → Float → Float) : Natural κ (step op) :=
  ofTotal_natural fun _ _ _ => by simp [Function.comp_def]

theorem abs_natural : Natural κ abs :=
  ofTotal_natural fun _ input _ => by cases input <;> simp

theorem term_relabel (zone : Calendar.Zone) (field : Option (List Char)) (v : Value) :
    term zone field (v.relabel κ) = term zone field v := by
  cases field <;> simp [term]

theorem sum_natural : Natural κ sum := by
  apply ofTotal_natural
  intro ctx input args
  cases input with
  | array items => simp [List.foldl_map, term_relabel]
  | _ => simp

theorem count_natural : Natural κ count :=
  ofTotal_natural fun _ input _ => by cases input <;> simp

end Number

section Date

open Calendar (Stamp)

theorem readDate?_relabel (zone : Calendar.Zone) (v : Value) (pattern : List Char) :
    readDate? zone (v.relabel κ) pattern = readDate? zone v pattern := by
  cases v <;> simp [readDate?]

theorem relabel_dateOrUndefined (s : Option Stamp) :
    (dateOrUndefined s).relabel κ = dateOrUndefined s := by
  cases s <;> simp [dateOrUndefined]

theorem relabel_writeOrInvalid (zone : Calendar.Zone) (s : Option Stamp) (pattern : List Char) :
    (writeOrInvalid zone s pattern).relabel κ = writeOrInvalid zone s pattern := by
  cases s <;> simp [writeOrInvalid]

theorem now_natural : Natural κ now :=
  ofTotal_natural fun ctx _ _ => by simp [FilterContext.relabel]

theorem toDate_natural : Natural κ toDate :=
  ofTotal_natural fun _ _ _ => by simp [readDate?_relabel, relabel_dateOrUndefined]

theorem fromNow_natural : Natural κ fromNow := by
  apply ofTotal_natural
  intro ctx input args
  simp only [readDate?_relabel, Argument.givenChars_relabel, FilterContext.zone_relabel]
  split <;> simp [FilterContext.relabel]

theorem boundaryUnit_relabel (zone : Calendar.Zone) (args : List Value) :
    boundaryUnit zone (args.map (Value.relabel κ)) = boundaryUnit zone args := by
  rw [boundaryUnit, boundaryUnit, Argument.given?_relabel]
  cases Argument.given? args 1 with
  | none => rfl
  | some v => by_cases h : v.isTruthy = true <;> simp [Option.filter, h]

theorem shiftAmount_relabel (zone : Calendar.Zone) (args : List Value) :
    shiftAmount zone (args.map (Value.relabel κ)) = shiftAmount zone args := by
  simp [shiftAmount, Function.comp_def]

theorem dateModify_natural : Natural κ dateModify := by
  apply ofFunction_natural
  intro ctx input args
  simp only [Argument.filledChars_relabel, FilterContext.zone_relabel, boundaryUnit_relabel,
    shiftAmount_relabel]
  split
  · cases boundaryUnit ctx.zone args with
    | error e => rfl
    | ok unit => cases input <;> simp [Except.map, bind, Except.bind, pure, Except.pure,
        FilterContext.relabel]
  · split
    · cases boundaryUnit ctx.zone args with
      | error e => rfl
      | ok unit => cases input <;> simp [Except.map, bind, Except.bind, pure, Except.pure,
          FilterContext.relabel]
    · split
      · cases unitNamed (Argument.filledChars ctx.zone args 2 "days") with
        | error e => rfl
        | ok unit => cases input <;> simp [Except.map, bind, Except.bind, pure, Except.pure,
            FilterContext.relabel, relabel_dateOrUndefined]
      · rfl

theorem date_natural : Natural κ date :=
  ofTotal_natural fun _ _ _ => by simp [readDate?_relabel, relabel_writeOrInvalid]

theorem textToDate_natural : Natural κ textToDate := by
  apply ofTotal_natural
  intro ctx input args
  simp only [readDate?_relabel, Argument.filledChars_relabel, FilterContext.zone_relabel,
    Value.isTruthy_relabel]
  split <;> simp [relabel_writeOrInvalid]

end Date

end Filter

end TemplateFormula
