import TemplateFormula.Json.Printer
import TemplateFormula.Json.Reader
import TemplateFormula.Proofs.Relabeling.Observation

/-!
# JSON without functions

JSON has no functions: there are none in a value read from it, and a value is written without its
own.
-/

namespace TemplateFormula.Json

variable (κ : Closure → Closure)

section Writing

variable (zone : Calendar.Zone) (indent : Nat)

@[simp] theorem isSkipped_relabel (v : Value) : isSkipped (v.relabel κ) = isSkipped v := by
  cases v <;> simp [isSkipped]

theorem itemChars_relabel {items : List Value}
    (ih : ∀ v ∈ items, ∀ level, chars zone indent level (v.relabel κ) = chars zone indent level v)
    (level : Nat) :
    itemChars zone indent level (items.map (Value.relabel κ)) =
      itemChars zone indent level items := by
  induction items with
  | nil => rfl
  | cons v vs ihs =>
    have hv := ih v (by simp) level
    have hvs := ihs fun w hw => ih w (by simp [hw])
    rw [List.map_cons, itemChars, itemChars, hv, hvs]

theorem memberChars_relabel {ms : Members}
    (ih : ∀ m ∈ ms, ∀ level,
      chars zone indent level (m.2.relabel κ) = chars zone indent level m.2)
    (level : Nat) :
    memberChars zone indent level (ms.relabel κ) = memberChars zone indent level ms := by
  induction ms with
  | nil => rfl
  | cons m ms ihs =>
    have hm := ih m (by simp) level
    have hms := ihs fun n hn => ih n (by simp [hn])
    rw [Members.relabel_cons, memberChars, memberChars, isSkipped_relabel, hm, hms]

theorem chars_relabel (level : Nat) (v : Value) :
    chars zone indent level (v.relabel κ) = chars zone indent level v := by
  induction v using Value.nested generalizing level with
  | array items ih =>
    have h := itemChars_relabel κ zone indent (fun v hv level => ih v hv level) (level + 1)
    rw [Value.relabel_array, chars, chars, h]
  | object ms ih =>
    have h := memberChars_relabel κ zone indent (fun m hm level => ih m hm level) (level + 1)
    rw [Value.relabel_object, chars, chars, h]
  | _ => simp [chars]

@[simp] theorem print?_relabel (v : Value) :
    print? zone indent (v.relabel κ) = print? zone indent v := by
  simp only [print?, isSkipped_relabel, chars_relabel]

end Writing

/-- A reader whose values hold no function. -/
def ReadsData (item : List Char → Option (Value × List Char)) : Prop :=
  ∀ cs p, item cs = some p → p.1.relabel κ = p.1

theorem takeScalar?_readsData : ReadsData κ takeScalar? := by
  intro cs p h
  unfold takeScalar? at h
  split at h <;> obtain ⟨q, _, rfl⟩ := Option.map_eq_some_iff.mp h <;> simp

variable {κ} {item : List Char → Option (Value × List Char)} (reads : ReadsData κ item)
include reads

theorem takeItems?_data (n : Nat) (cs : List Char) (p : List Value × List Char)
    (h : takeItems? item n cs = some p) : p.1.map (Value.relabel κ) = p.1 := by
  induction n generalizing cs p with
  | zero => cases h
  | succ n ih =>
    obtain ⟨q, hq, h⟩ := Option.bind_eq_some_iff.mp h
    have first := reads cs q hq
    split at h
    · obtain ⟨more, hmore, rfl⟩ := Option.map_eq_some_iff.mp h
      rw [List.map_cons, first, ih _ more hmore]
    · cases h
      rw [List.map_cons, first, List.map_nil]
    · cases h

theorem takeArray?_readsData : ReadsData κ (takeArray? item) := by
  intro cs p h
  rw [takeArray?] at h
  split at h
  · cases h
    simp
  · obtain ⟨q, hq, rfl⟩ := Option.map_eq_some_iff.mp h
    rw [Value.relabel_array, takeItems?_data reads _ _ q hq]

theorem takeMember?_data (cs : List Char) (p : (String × Value) × List Char)
    (h : takeMember? item cs = some p) : p.1.2.relabel κ = p.1.2 := by
  rw [takeMember?] at h
  split at h
  · obtain ⟨k, _, h⟩ := Option.bind_eq_some_iff.mp h
    split at h
    · obtain ⟨q, hq, rfl⟩ := Option.map_eq_some_iff.mp h
      exact reads _ q hq
    · cases h
  · cases h

theorem takeMembers?_data (n : Nat) (cs : List Char) (p : Members × List Char)
    (h : takeMembers? item n cs = some p) : Members.relabel κ p.1 = p.1 := by
  induction n generalizing cs p with
  | zero => cases h
  | succ n ih =>
    obtain ⟨q, hq, h⟩ := Option.bind_eq_some_iff.mp h
    have first := takeMember?_data reads cs q hq
    split at h
    · obtain ⟨more, hmore, rfl⟩ := Option.map_eq_some_iff.mp h
      rw [Members.relabel_cons, first, ih _ more hmore]
    · cases h
      rw [Members.relabel_cons, first]
      rfl
    · cases h

theorem takeObject?_readsData : ReadsData κ (takeObject? item) := by
  intro cs p h
  rw [takeObject?] at h
  split at h
  · cases h
    rw [Value.relabel_object]
    rfl
  · obtain ⟨q, hq, rfl⟩ := Option.map_eq_some_iff.mp h
    rw [Value.relabel_object, ← Members.ofList_relabel, takeMembers?_data reads _ _ q hq]

omit reads

variable (κ)

theorem takeValue?_readsData (depth : Nat) : ReadsData κ (takeValue? depth) := by
  induction depth with
  | zero => exact fun cs => takeScalar?_readsData κ (skipSpace cs)
  | succ depth ih =>
    intro cs p h
    rw [takeValue?] at h
    split at h
    · exact takeArray?_readsData ih _ p h
    · exact takeObject?_readsData ih _ p h
    · exact takeScalar?_readsData κ _ p h

theorem relabel_of_parse? {cs : List Char} {v : Value} (h : parse? cs = some v) :
    v.relabel κ = v := by
  rw [parse?, parseNested?] at h
  cases read : takeValue? maxNesting cs with
  | none =>
    rw [read] at h
    cases h
  | some p =>
    rw [read] at h
    by_cases blank : (skipSpace p.2).isEmpty = true
    · simp only [blank, if_true] at h
      cases h
      exact takeValue?_readsData κ _ cs p read
    · simp [blank] at h

@[simp] theorem relabel_parse?_getD (cs : List Char) (v : Value) :
    ((parse? cs).getD v).relabel κ = (parse? cs).getD (v.relabel κ) := by
  cases h : parse? cs with
  | none => rfl
  | some w => exact relabel_of_parse? κ h

end TemplateFormula.Json
