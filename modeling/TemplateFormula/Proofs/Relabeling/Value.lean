import TemplateFormula.Value.Argument
import TemplateFormula.Value.Arithmetic
import TemplateFormula.Value.Member
import Mathlib.Logic.Function.Basic

/-!
# Other functions in the same places

A value with other functions in the places of its own. Operations on values see of a function only
which others it equals, so they do the same on both, as long as equal functions stay equal and
different ones different.
-/

namespace TemplateFormula

/-- Functions are replaced so that they are told apart as before. -/
def Closure.Faithful (κ : Closure → Closure) : Prop :=
  ∀ f g, (κ f).id = (κ g).id ↔ f.id = g.id

variable (κ : Closure → Closure)

namespace Value

mutual

def relabel : Value → Value
  | undefined => undefined
  | null => null
  | boolean b => boolean b
  | number x => number x
  | text s => text s
  | array items => array (relabelItems items)
  | object ms => object (relabelMembers ms)
  | date s => date s
  | function f => function (κ f)

def relabelItems : List Value → List Value
  | [] => []
  | v :: vs => relabel v :: relabelItems vs

def relabelMembers : List (String × Value) → List (String × Value)
  | [] => []
  | (k, v) :: ms => (k, relabel v) :: relabelMembers ms

end

end Value

def Members.relabel (ms : Members) : Members := ms.map fun m => (m.1, m.2.relabel κ)

theorem Members.relabel_cons (m : String × Value) (ms : Members) :
    Members.relabel κ (m :: ms) = (m.1, m.2.relabel κ) :: Members.relabel κ ms := rfl

namespace Value

theorem relabelItems_eq (items : List Value) : relabelItems κ items = items.map (relabel κ) := by
  induction items with
  | nil => rfl
  | cons v vs ih => rw [relabelItems, ih, List.map_cons]

theorem relabelMembers_eq (ms : List (String × Value)) :
    relabelMembers κ ms = Members.relabel κ ms := by
  induction ms with
  | nil => rfl
  | cons m ms ih => rw [relabelMembers, ih, Members.relabel, Members.relabel, List.map_cons]

@[simp] theorem relabel_undefined : undefined.relabel κ = undefined := rfl

@[simp] theorem relabel_null : null.relabel κ = null := rfl

@[simp] theorem relabel_boolean (b : Bool) : (boolean b).relabel κ = boolean b := rfl

@[simp] theorem relabel_number (x : Float) : (number x).relabel κ = number x := rfl

@[simp] theorem relabel_text (s : String) : (text s).relabel κ = text s := rfl

@[simp] theorem relabel_array (items : List Value) :
    (array items).relabel κ = array (items.map (relabel κ)) :=
  congrArg array (relabelItems_eq κ items)

@[simp] theorem relabel_object (ms : Members) : (object ms).relabel κ = object (ms.relabel κ) :=
  congrArg object (relabelMembers_eq κ ms)

@[simp] theorem relabel_date (s : Calendar.Stamp) : (date s).relabel κ = date s := rfl

@[simp] theorem relabel_function (f : Closure) :
    (function f).relabel κ = function (κ f) := rfl

@[simp] theorem relabel_ofNat (n : Nat) : (ofNat n).relabel κ = ofNat n := relabel_number κ _

@[simp] theorem relabel_ofInt (n : Int) : (ofInt n).relabel κ = ofInt n := relabel_number κ _

@[simp] theorem relabel_ofChars (cs : List Char) : (ofChars cs).relabel κ = ofChars cs :=
  relabel_text κ _

@[simp] theorem relabel_ofWord (w : UInt32) : (ofWord w).relabel κ = ofWord w :=
  relabel_number κ _

@[simp] theorem relabel_ofLiteral (l : Literal) : (ofLiteral l).relabel κ = ofLiteral l := by
  cases l <;> simp [ofLiteral]

/-- A value without functions: there is nothing in it that could be replaced. -/
def FunctionFree (v : Value) : Prop := ∀ κ, v.relabel κ = v

/-- An induction over the values inside a value. -/
theorem nested {P : Value → Prop} (undefined : P undefined) (null : P null)
    (boolean : ∀ b, P (boolean b)) (number : ∀ x, P (number x)) (text : ∀ s, P (text s))
    (array : ∀ items, (∀ v ∈ items, P v) → P (array items))
    (object : ∀ ms : Members, (∀ m ∈ ms, P m.2) → P (object ms))
    (date : ∀ s, P (date s)) (function : ∀ f, P (function f)) (v : Value) : P v := by
  refine Value.rec (motive_1 := P) (motive_2 := fun items => ∀ v ∈ items, P v)
    (motive_3 := fun ms => ∀ m ∈ ms, P m.2) (motive_4 := fun m => P m.2) undefined null boolean
    number text (fun items h => array items h) (fun ms h => object ms h) date function ?_ ?_ ?_ ?_
    (fun _ _ h => h) v
  · intro v hv
    cases hv
  · intro v vs hv hvs w hw
    cases hw with
    | head => exact hv
    | tail _ hw => exact hvs w hw
  · intro m hm
    cases hm
  · intro m ms hm hms n hn
    cases hn with
    | head => exact hm
    | tail _ hn => exact hms n hn

theorem relabel_id (v : Value) : v.relabel id = v := by
  induction v using nested with
  | array items ih =>
    rw [relabel_array, List.map_congr_left ih, List.map_id']
  | object ms ih =>
    have same : ms.relabel id = ms := by
      rw [Members.relabel, List.map_congr_left fun m hm => by rw [ih m hm], List.map_id']
    rw [relabel_object, same]
  | _ => rfl

end Value

end TemplateFormula
