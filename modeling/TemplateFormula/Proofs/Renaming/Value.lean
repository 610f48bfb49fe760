import TemplateFormula.Proofs.Relabeling.Builtin
import TemplateFormula.Proofs.Relabeling.Collection
import TemplateFormula.Proofs.Relabeling.Json

/-!
# Renaming function values

The number of a function value is a name: a value whose functions are numbered anew looks the same
to every operation, as long as different numbers stay different. Renaming is a way of putting other
functions in the places of those of a value. A built-in filter can tell two functions apart but not
what their numbers are.
-/

namespace TemplateFormula

variable (ρ : Nat → Nat)

def Closure.rename (f : Closure) : Closure := { f with id := ρ f.id }

namespace Value

mutual

def rename : Value → Value
  | undefined => undefined
  | null => null
  | boolean b => boolean b
  | number x => number x
  | text s => text s
  | array items => array (renameItems items)
  | object ms => object (renameMembers ms)
  | date s => date s
  | function f => function (f.rename ρ)

def renameItems : List Value → List Value
  | [] => []
  | v :: vs => rename v :: renameItems vs

def renameMembers : List (String × Value) → List (String × Value)
  | [] => []
  | (k, v) :: ms => (k, rename v) :: renameMembers ms

end

end Value

def Members.rename (ms : Members) : Members := ms.map fun m => (m.1, m.2.rename ρ)

theorem Members.rename_cons (m : String × Value) (ms : Members) :
    Members.rename ρ (m :: ms) = (m.1, m.2.rename ρ) :: Members.rename ρ ms := rfl

namespace Value

theorem renameItems_eq (items : List Value) : renameItems ρ items = items.map (rename ρ) := by
  induction items with
  | nil => rfl
  | cons v vs ih => rw [renameItems, ih, List.map_cons]

theorem renameMembers_eq (ms : List (String × Value)) :
    renameMembers ρ ms = Members.rename ρ ms := by
  induction ms with
  | nil => rfl
  | cons m ms ih => rw [renameMembers, ih, Members.rename, Members.rename, List.map_cons]

@[simp] theorem rename_undefined : undefined.rename ρ = undefined := rfl

@[simp] theorem rename_null : null.rename ρ = null := rfl

@[simp] theorem rename_boolean (b : Bool) : (boolean b).rename ρ = boolean b := rfl

@[simp] theorem rename_number (x : Float) : (number x).rename ρ = number x := rfl

@[simp] theorem rename_text (s : String) : (text s).rename ρ = text s := rfl

@[simp] theorem rename_array (items : List Value) :
    (array items).rename ρ = array (items.map (rename ρ)) :=
  congrArg array (renameItems_eq ρ items)

@[simp] theorem rename_object (ms : Members) : (object ms).rename ρ = object (ms.rename ρ) :=
  congrArg object (renameMembers_eq ρ ms)

@[simp] theorem rename_date (s : Calendar.Stamp) : (date s).rename ρ = date s := rfl

@[simp] theorem rename_function (f : Closure) :
    (function f).rename ρ = function (f.rename ρ) := rfl

theorem rename_eq : rename ρ = relabel (Closure.rename ρ) := by
  funext v
  induction v using nested with
  | array items ih => rw [rename_array, relabel_array, List.map_congr_left ih]
  | object ms ih =>
    have same : ms.rename ρ = ms.relabel (Closure.rename ρ) :=
      List.map_congr_left fun m hm => by rw [ih m hm]
    rw [rename_object, relabel_object, same]
  | _ => simp

@[simp] theorem memberAt_rename (v : Value) (key : String) :
    (v.rename ρ).memberAt key = (v.memberAt key).rename ρ := by
  rw [rename_eq, memberAt_relabel]

theorem rename_id (v : Value) : v.rename id = v := by
  rw [rename_eq]
  exact relabel_id v

theorem rename_id_eq : rename id = id := funext rename_id

theorem rename_id_items (items : List Value) : items.map (rename id) = items := by
  rw [rename_id_eq, List.map_id]

end Value

namespace Members

theorem rename_eq (ms : Members) : ms.rename ρ = ms.relabel (Closure.rename ρ) := by
  rw [rename, relabel, Value.rename_eq]

theorem lookup_rename (ms : Members) (key : String) :
    List.lookup key (ms.rename ρ) = (List.lookup key ms).map (Value.rename ρ) := by
  rw [rename_eq, Value.rename_eq, lookup_relabel]

end Members

@[simp] theorem Argument.orUndefined_rename (args : List Value) (i : Nat) :
    orUndefined (args.map (Value.rename ρ)) i = (orUndefined args i).rename ρ := by
  rw [Value.rename_eq, orUndefined_relabel]

theorem Json.rename_of_parse? {cs : List Char} {v : Value} (h : parse? cs = some v) :
    v.rename ρ = v := by
  rw [Value.rename_eq, relabel_of_parse? _ h]

theorem Closure.rename_faithful {ρ : Nat → Nat} (distinct : Function.Injective ρ) :
    Faithful (rename ρ) := fun _ _ => distinct.eq_iff

def FilterContext.rename (ctx : FilterContext) : FilterContext := ⟨ctx.clock, ctx.data.rename ρ⟩

theorem FilterContext.rename_eq (ctx : FilterContext) :
    ctx.rename ρ = ctx.relabel (Closure.rename ρ) := by
  rw [rename, relabel, Value.rename_eq]

/-- Programs that take the same steps with renamed values. -/
inductive FilterProgram.Renamed : FilterProgram → FilterProgram → Prop
  | done (v : Value) : Renamed (.done v) (.done (v.rename ρ))
  | fail (e : EvalError) : Renamed (.fail e) (.fail e)
  | apply {name : String} {input : Value} {args : List Value}
      {next next' : Except EvalError Value → FilterProgram}
      (failed : ∀ e, Renamed (next (.error e)) (next' (.error e)))
      (gone : ∀ v, Renamed (next (.ok v)) (next' (.ok (v.rename ρ)))) :
      Renamed (.apply name input args next)
        (.apply name (input.rename ρ) (args.map (Value.rename ρ)) next')
  | known {name : String} {next next' : Bool → FilterProgram}
      (after : ∀ b, Renamed (next b) (next' b)) : Renamed (.known name next) (.known name next')
  | waiting {next next' : List FilterCall → FilterProgram}
      (after : ∀ calls, Renamed (next calls) (next' calls)) :
      Renamed (.waiting next) (.waiting next')
  | replaceWaiting {calls : List FilterCall} {next next' : FilterProgram}
      (after : Renamed next next') :
      Renamed (.replaceWaiting calls next) (.replaceWaiting calls next')

namespace FilterProgram

variable {ρ} {p p' : FilterProgram}

theorem Renamed.relabeled (h : Renamed ρ p p') : Relabeled (Closure.rename ρ) p p' := by
  induction h with
  | done v =>
    rw [Value.rename_eq]
    exact .done v
  | fail e => exact .fail e
  | apply _ _ failed gone =>
    rw [Value.rename_eq] at gone ⊢
    exact .apply failed gone
  | known _ ih => exact .known ih
  | waiting _ ih => exact .waiting ih
  | replaceWaiting _ ih => exact .replaceWaiting ih

theorem Relabeled.renamed (h : Relabeled (Closure.rename ρ) p p') : Renamed ρ p p' := by
  induction h with
  | done v =>
    rw [← Value.rename_eq]
    exact .done v
  | fail e => exact .fail e
  | apply _ _ failed gone =>
    rw [← Value.rename_eq] at gone ⊢
    exact .apply failed gone
  | known _ ih => exact .known ih
  | waiting _ ih => exact .waiting ih
  | replaceWaiting _ ih => exact .replaceWaiting ih

end FilterProgram

namespace Filter

/-- A filter that takes the same steps whatever the numbers of functions are. -/
def Respects (f : Filter) : Prop :=
  ∀ ctx input args, FilterProgram.Renamed ρ (f ctx input args)
    (f (ctx.rename ρ) (input.rename ρ) (args.map (Value.rename ρ)))

variable {ρ}

theorem Natural.respects {f : Filter} (h : Natural (Closure.rename ρ) f) : Respects ρ f := by
  intro ctx input args
  rw [FilterContext.rename_eq, Value.rename_eq]
  exact (h ctx input args).renamed

theorem Respects.natural {f : Filter} (h : Respects ρ f) : Natural (Closure.rename ρ) f := by
  intro ctx input args
  have related := (h ctx input args).relabeled
  rwa [FilterContext.rename_eq, Value.rename_eq] at related

theorem builtin_respects (distinct : Function.Injective ρ) :
    ∀ entry ∈ builtin, Respects ρ entry.2 :=
  fun entry member => (builtin_natural (Closure.rename_faithful distinct) entry member).respects

end Filter

end TemplateFormula
