import TemplateFormula.Proofs.Relabeling.Filter

/-!
# Filters on collections of other functions

Filters that compare values depend on functions being told apart, so different ones have to stay
different.
-/

namespace TemplateFormula.Filter

variable {κ : Closure → Closure} (zone : Calendar.Zone) (ctx : FilterContext)

theorem join_natural : Natural κ join :=
  ofTotal_natural fun _ input _ => by cases input <;> simp

theorem split_natural : Natural κ split := by
  apply ofTotal_natural
  intro ctx input args
  cases input with
  | text s =>
    simp only [Value.relabel_text, Argument.givenChars_relabel, FilterContext.zone_relabel,
      Value.relabel_array, Builtin.relabel_texts]
  | _ => simp

theorem sortOrder_relabel (path : List Char) (numerical : Bool) (v w : Value) :
    sortOrder zone path numerical (v.relabel κ) (w.relabel κ) =
      sortOrder zone path numerical v w := by
  simp only [sortOrder, Path.resolve_relabel, Value.chars_relabel]

theorem filter_relabel {p q : Value → Bool} (h : ∀ v, p (v.relabel κ) = q v)
    (items : List Value) :
    (items.map (Value.relabel κ)).filter p = (items.filter q).map (Value.relabel κ) := by
  rw [List.filter_map, show p ∘ Value.relabel κ = q from funext h]

theorem sortBy_natural : Natural κ sortBy := by
  apply ofTotal_natural
  intro ctx input args
  cases input with
  | array items =>
    simp only [Value.relabel_array, Argument.filledChars_relabel, Argument.givenChars_relabel,
      FilterContext.zone_relabel]
    have falsy_eq (v : Value) : (!(v.relabel κ).isTruthy) = !v.isTruthy := by
      rw [Value.isTruthy_relabel]
    rw [filter_relabel (Value.isTruthy_relabel κ), filter_relabel falsy_eq, List.map_append,
      List.map_mergeSort]
    intro v _ w _
    rw [sortOrder_relabel]
  | _ => simp

theorem mapIdx_relabel {f : Nat → Value → Value}
    (h : ∀ i v, f i (v.relabel κ) = (f i v).relabel κ) (items : List Value) :
    (items.map (Value.relabel κ)).mapIdx f = (items.mapIdx f).map (Value.relabel κ) := by
  apply List.ext_getElem?
  intro i
  simp [Function.comp_def, h]

theorem entry_relabel (label value : String) (k v : Value) :
    Value.object (Members.ofList [(label, v.relabel κ), (value, k.relabel κ)]) =
      (Value.object (Members.ofList [(label, v), (value, k)])).relabel κ := by
  rw [Value.relabel_object, ← Members.ofList_relabel]
  rfl

theorem objectToArray_natural : Natural κ objectToArray := by
  apply ofTotal_natural
  intro ctx input args
  simp only [Argument.filledChars_relabel, FilterContext.zone_relabel]
  cases input with
  | object ms =>
    simp only [Value.relabel_object, Value.relabel_array, Members.relabel, List.map_map]
    congr 1
    apply List.map_congr_left
    intro m _
    have h := entry_relabel (κ := κ)
      (String.ofList (Argument.filledChars ctx.zone args 0 "label"))
      (String.ofList (Argument.filledChars ctx.zone args 1 "value")) (.text m.1) m.2
    rw [Value.relabel_text] at h
    exact h
  | array items =>
    simp only [Value.relabel_array]
    rw [mapIdx_relabel]
    intro i v
    have h := entry_relabel (κ := κ)
      (String.ofList (Argument.filledChars ctx.zone args 0 "label"))
      (String.ofList (Argument.filledChars ctx.zone args 1 "value")) (.ofNat i) v
    rw [Value.relabel_ofNat] at h
    exact h
  | _ => simp

theorem elementAt_relabel (v : Value) (x : Float) :
    elementAt zone (v.relabel κ) x = (elementAt zone v x).relabel κ := by
  rw [elementAt, elementAt, Value.isTruthy_relabel, Value.member_number_relabel]
  split <;> rfl

theorem first_natural : Natural κ first := ofTotal_natural fun _ _ _ => elementAt_relabel _ _ _

theorem nth_natural : Natural κ nth := by
  apply ofTotal_natural
  intro ctx input args
  simp only [Argument.given?_relabel, Option.map_map, Value.toNumber_comp_relabel,
    FilterContext.zone_relabel, elementAt_relabel]

theorem last_natural : Natural κ last := by
  apply ofTotal_natural
  intro ctx input args
  simp only [Value.isTruthy_relabel, Value.memberAt_relabel, Value.toNumber_relabel,
    FilterContext.zone_relabel, Value.member_number_relabel]
  split
  · split <;> simp
  · rfl

theorem withIndex_relabel (i : Nat) (v : Value) :
    withIndex i (v.relabel κ) = (withIndex i v).relabel κ := by
  cases v with
  | object ms =>
    rw [Value.relabel_object, withIndex, withIndex, Members.get?_relabel, Option.isSome_map]
    split
    · rw [Value.relabel_object]
    · rw [Value.relabel_object, ← Members.insert_relabel, Value.relabel_ofNat]
  | _ => simp [withIndex]

theorem pick_natural : Natural κ pick := by
  apply ofTotal_natural
  intro ctx input args
  simp only [Argument.filledChars_relabel, FilterContext.zone_relabel]
  cases input with
  | array items =>
    simp only [Value.relabel_array]
    split
    · rw [← Value.relabel_array, Path.pick_relabel]
    · rw [Value.relabel_array, mapIdx_relabel]
      intro i v
      rw [withIndex_relabel, Path.pick_relabel]
  | _ => simp [← Path.pick_relabel]

theorem pickIfExist_natural : Natural κ pickIfExist := by
  apply ofTotal_natural
  intro ctx input args
  simp only [Argument.filledChars_relabel, FilterContext.zone_relabel]
  generalize Argument.filledChars ctx.zone args 0 "&" = path
  have one (v : Value) :
      (if (Path.resolve path (v.relabel κ)).isTruthy then Path.resolve path (v.relabel κ)
        else v.relabel κ) =
      (if (Path.resolve path v).isTruthy then Path.resolve path v else v).relabel κ := by
    rw [Path.resolve_relabel, Value.isTruthy_relabel]
    split <;> rfl
  cases input with
  | array items =>
    simp only [Value.relabel_array, List.map_map]
    congr 1
    exact List.map_congr_left fun v _ => one v
  | undefined => exact one .undefined
  | null => exact one .null
  | boolean b => exact one (.boolean b)
  | number x => exact one (.number x)
  | text s => exact one (.text s)
  | object ms => exact one (.object ms)
  | date s => exact one (.date s)
  | function f => exact one (.function f)

theorem concat_natural : Natural κ concat := by
  apply ofTotal_natural
  intro ctx input args
  cases input with
  | array items =>
    simp only [Value.relabel_array, List.map_append, List.flatMap_map, List.map_flatMap]
    congr 3
    funext v
    rw [FilterContext.resolve_relabel]
    cases ctx.resolve v <;> simp
  | _ => simp

theorem mapItems_relabeled (name : String) (args done items : List Value) :
    FilterProgram.Relabeled κ (mapItems name args done items)
      (mapItems name (args.map (Value.relabel κ)) (done.map (Value.relabel κ))
        (items.map (Value.relabel κ))) := by
  induction items generalizing done with
  | nil =>
    have h := FilterProgram.Relabeled.done (κ := κ) (.array done.reverse)
    rw [Value.relabel_array, List.map_reverse] at h
    exact h
  | cons v vs ih => exact .apply (fun e => .fail e) fun w => ih (w :: done)

theorem map_natural : Natural κ map := by
  intro ctx input args
  have name_eq : ((args.map (Value.relabel κ)).head?.map (Value.chars ctx.zone)) =
      args.head?.map (Value.chars ctx.zone) := by
    rw [List.head?_map, Option.map_map, Value.chars_comp_relabel]
  unfold map
  rw [FilterContext.zone_relabel, name_eq]
  apply FilterProgram.Relabeled.known
  intro known
  cases known with
  | false => exact .done input
  | true =>
    cases input with
    | array items =>
      rw [Value.relabel_array, ← List.map_tail]
      exact mapItems_relabeled _ _ [] items
    | undefined => exact .done .undefined
    | null => exact .done .null
    | boolean b => exact .done (.boolean b)
    | number x => exact .done (.number x)
    | text s => exact .done (.text s)
    | object ms => exact .done (.object ms)
    | date s => exact .done (.date s)
    | function f => exact .done (.function f)

section Condition

theorem chooseBranch_relabel (input : Value) (test : Bool) (args : List Value) (offset : Nat) :
    chooseBranch (ctx.relabel κ) (input.relabel κ) test (args.map (Value.relabel κ)) offset =
      (chooseBranch ctx input test args offset).relabel κ := by
  simp only [chooseBranch, Argument.orUndefined_relabel, Value.isTruthy_relabel,
    FilterContext.resolve_relabel]
  split
  · rfl
  · split <;> rfl

theorem isTrue_natural : Natural κ isTrue :=
  ofTotal_natural fun ctx input args => by rw [Value.isTruthy_relabel, chooseBranch_relabel]

theorem isFalse_natural : Natural κ isFalse :=
  ofTotal_natural fun ctx input args => by rw [Value.isTruthy_relabel, chooseBranch_relabel]

theorem matching_natural (negate : Bool) : Natural κ (matching negate) := by
  apply ofTotal_natural
  intro ctx input args
  simp only [Argument.orUndefined_relabel, FilterContext.resolve_relabel, Value.chars_relabel,
    Value.isTruthy_relabel, FilterContext.zone_relabel, chooseBranch_relabel]

theorem expected_relabel (v : Option Value) :
    expected (ctx.relabel κ) (v.map (Value.relabel κ)) = (expected ctx v).relabel κ := by
  cases v with
  | none => simp [expected]
  | some v =>
    have h := FilterContext.resolve_relabel κ ctx v
    cases v with
    | text s =>
      simp only [Option.map_some, Value.relabel_text, expected,
        FilterContext.resolve_text_relabel]
      split <;> simp
    | _ => simp_all [expected]

theorem asList_relabel (v : Value) : asList (v.relabel κ) = (asList v).map (Value.relabel κ) := by
  cases v with
  | array items => rw [Value.relabel_array, asList, asList]
  | text s =>
    rw [Value.relabel_text, asList, Builtin.relabel_texts]
  | boolean b => cases b <;> simp [asList, Value.isTruthy]
  | number x => simp [asList, apply_ite (List.map (Value.relabel κ))]
  | _ => simp [asList, Value.isTruthy]

theorem itemKeys_relabel (keys : List Char) (v : Value) :
    itemKeys keys (v.relabel κ) = itemKeys keys v := by
  unfold itemKeys
  cases v <;> simp [Members.relabel, Function.comp_def]

variable (distinct : Closure.Faithful κ)
include distinct

theorem keepNew_relabel {identity : Value → Value}
    (h : ∀ v, identity (v.relabel κ) = (identity v).relabel κ) (seen items : List Value) :
    keepNew identity (seen.map (Value.relabel κ)) (items.map (Value.relabel κ)) =
      (keepNew identity seen items).map (Value.relabel κ) := by
  induction items generalizing seen with
  | nil => rfl
  | cons v vs ih =>
    have seen_eq : (seen.map (Value.relabel κ)).any (·.strictEq ((identity v).relabel κ)) =
        seen.any (·.strictEq (identity v)) := by
      rw [List.any_map]
      exact congrArg seen.any (funext fun w => Value.strictEq_relabel distinct w (identity v))
    rw [List.map_cons, keepNew, keepNew, h, seen_eq]
    split
    · exact ih seen
    · rw [List.map_cons, ← ih, List.map_cons]

theorem unique_natural : Natural κ unique := by
  apply ofTotal_natural
  intro ctx input args
  cases input with
  | array items =>
    simp only [Value.relabel_array, Argument.given?_relabel, Option.map_map,
      Value.chars_comp_relabel, FilterContext.zone_relabel]
    split
    · rw [Value.relabel_array, ← keepNew_relabel distinct (Path.resolve_relabel κ _)]
      rfl
    · have itself : ∀ v : Value, id (v.relabel κ) = (id v).relabel κ := fun _ => rfl
      rw [Value.relabel_array, ← keepNew_relabel distinct itself]
      rfl
  | _ => simp

theorem equals_natural (negate : Bool) : Natural κ (equals negate) := by
  apply ofTotal_natural
  intro ctx input args
  rw [List.head?_map, expected_relabel, Value.strictEq_relabel distinct, chooseBranch_relabel]

theorem any_strictEq_relabel (members : List Value) (v : Value) :
    (members.map (Value.relabel κ)).any (·.strictEq (v.relabel κ)) =
      members.any (·.strictEq v) := by
  rw [List.any_map]
  exact congrArg members.any (funext fun w => Value.strictEq_relabel distinct w v)

theorem directiveTest?_relabel (directive : List Char) (operand : Option Value) (v : Value) :
    (directiveTest? (ctx.relabel κ) directive (operand.map (Value.relabel κ))).map
        (· (v.relabel κ)) =
      (directiveTest? ctx directive operand).map (· v) := by
  have resolved_eq : (operand.map (Value.relabel κ)).map (ctx.relabel κ).resolve =
      (operand.map ctx.resolve).map (Value.relabel κ) := by
    cases operand <;> simp
  have directive_eq : (ctx.relabel κ).resolve (.ofChars directive) =
      (ctx.resolve (.ofChars directive)).relabel κ := FilterContext.resolve_text_relabel κ ctx _
  have search_eq (pattern : Option Value) :
      ((((pattern.map (Value.relabel κ)).filter Value.isTruthy).map fun p v =>
          Text.containsFolded (p.chars ctx.zone) (v.chars ctx.zone)).map (· (v.relabel κ))) =
        ((pattern.filter Value.isTruthy).map fun p v =>
          Text.containsFolded (p.chars ctx.zone) (v.chars ctx.zone)).map (· v) := by
    cases pattern with
    | none => rfl
    | some p => by_cases h : p.isTruthy = true <;> simp [Option.filter, h]
  unfold directiveTest?
  simp only [resolved_eq, directive_eq, FilterContext.zone_relabel]
  generalize operand.map ctx.resolve = resolved
  have members_eq : asList ((resolved.map (Value.relabel κ)).getD .undefined) =
      (asList (resolved.getD .undefined)).map (Value.relabel κ) := by
    rw [← asList_relabel]
    cases resolved <;> simp
  have text_eq : (resolved.map (Value.relabel κ)).getD (.text "") =
      (resolved.getD (.text "")).relabel κ := by
    cases resolved <;> simp
  split
  · simp
  · simp
  · simp
  · simp only [Option.map_some, text_eq, Value.looseEq_relabel _ distinct]
  · simp only [Option.map_some, text_eq, Value.looseEq_relabel _ distinct]
  · simp only [Option.map_some, members_eq, List.isEmpty_map, any_strictEq_relabel distinct]
  · simp only [Option.map_some, members_eq, any_strictEq_relabel distinct]
  · exact search_eq resolved
  · exact search_eq (some (ctx.resolve (.ofChars directive)))

theorem filter_natural : Natural κ filter := by
  apply ofTotal_natural
  intro ctx input args
  have filled_eq (i : Nat) :
      (Argument.given? (args.map (Value.relabel κ)) i).filter Value.isTruthy =
        ((Argument.given? args i).filter Value.isTruthy).map (Value.relabel κ) := by
    rw [Argument.given?_relabel, Option.filter_map, Value.isTruthy_comp_relabel]
  simp only [filled_eq]
  cases input with
  | array items =>
    rw [Value.relabel_array]
    cases (Argument.given? args 0).filter Value.isTruthy with
    | none => simp
    | some keys =>
      cases (Argument.given? args 1).filter Value.isTruthy with
      | none => simp
      | some directive =>
        have test_eq := directiveTest?_relabel ctx distinct (directive.chars ctx.zone)
          ((Argument.given? args 2).filter Value.isTruthy)
        simp only [Option.map_some, Value.chars_relabel, FilterContext.zone_relabel] at test_eq ⊢
        cases found : directiveTest? ctx (directive.chars ctx.zone)
            ((Argument.given? args 2).filter Value.isTruthy) with
        | none =>
          have none_eq :=
            Option.map_eq_none_iff.mp ((test_eq .undefined).trans (by rw [found]; rfl))
          simp [none_eq]
        | some test =>
          rw [found] at test_eq
          obtain ⟨test', found', _⟩ := Option.map_eq_some_iff.mp (test_eq .undefined)
          rw [found'] at test_eq
          have same (v : Value) : test' (v.relabel κ) = test v := Option.some.inj (test_eq v)
          simp only [found', Value.relabel_array]
          congr 1
          apply filter_relabel
          intro v
          simp only [itemKeys_relabel, Path.resolve_relabel, same]
  | _ => simp

theorem builtin_natural : ∀ entry ∈ builtin, Natural κ entry.2 := by
  simp only [builtin, List.forall_mem_cons, html_natural, raw_natural, json_natural,
    toJson_natural, toInt_natural, toFloat_natural, now_natural, toDate_natural,
    fromNow_natural, dateModify_natural, date_natural, number_natural, trim_natural,
    percent_natural, bytes_natural, round_natural, truncate_natural, urlEncode_natural,
    urlDecode_natural, default_natural, join_natural, split_natural, sortBy_natural,
    objectToArray_natural, unique_natural distinct, first_natural, nth_natural, last_natural,
    step_natural, count_natural, sum_natural, abs_natural, pick_natural,
    pickIfExist_natural, textToDate_natural, asArray_natural, concat_natural,
    filter_natural distinct, base64Encode_natural, base64Decode_natural, lowerCase_natural,
    upperCase_natural, isTrue_natural, isFalse_natural, matching_natural,
    equals_natural distinct, map_natural, true_and]
  intro entry none
  cases none

end Condition

end TemplateFormula.Filter
