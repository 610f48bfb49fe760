import TemplateFormula.Proofs.Relabeling.Value

/-!
# What values show

Texts, numbers, truth and members of a value do not depend on what its functions are, and equality
only on which of them are equal.
-/

namespace TemplateFormula

variable (κ : Closure → Closure) (zone : Calendar.Zone)

namespace Value

@[simp] theorem typeName_relabel (v : Value) : (v.relabel κ).typeName = v.typeName := by
  cases v <;> simp [typeName]

@[simp] theorem isNullish_relabel (v : Value) : (v.relabel κ).isNullish = v.isNullish := by
  cases v <;> simp [isNullish]

@[simp] theorem isUndefined_relabel (v : Value) : (v.relabel κ).isUndefined = v.isUndefined := by
  cases v <;> simp [isUndefined]

@[simp] theorem isTruthy_relabel (v : Value) : (v.relabel κ).isTruthy = v.isTruthy := by
  cases v <;> simp [isTruthy]

@[simp] theorem isTruthy_comp_relabel : isTruthy ∘ relabel κ = isTruthy :=
  funext (isTruthy_relabel κ)

@[simp] theorem asText?_relabel (v : Value) : (v.relabel κ).asText? = v.asText? := by
  cases v <;> simp [asText?]

@[simp] theorem asArray?_relabel (v : Value) :
    (v.relabel κ).asArray? = v.asArray?.map (List.map (relabel κ)) := by
  cases v <;> simp [asArray?]

@[simp] theorem isContainer_relabel (v : Value) : (v.relabel κ).isContainer = v.isContainer := by
  cases v <;> simp [isContainer]

@[simp] theorem joinsTexts_relabel (v : Value) : (v.relabel κ).joinsTexts = v.joinsTexts := by
  cases v <;> simp [joinsTexts]

theorem chars_array (items : List Value) :
    (array items).chars zone = Text.join [','] (partChars zone items) := rfl

theorem chars_object (ms ns : Members) : (object ms).chars zone = (object ns).chars zone := rfl

theorem chars_function (f g : Closure) : (function f).chars zone = (function g).chars zone := rfl

theorem partChars_congr {f : Value → Value} {items : List Value}
    (chars_eq : ∀ v ∈ items, (f v).chars zone = v.chars zone)
    (nullish_eq : ∀ v ∈ items, (f v).isNullish = v.isNullish) :
    partChars zone (items.map f) = partChars zone items := by
  induction items with
  | nil => rfl
  | cons v vs ih =>
    have hv : (f v).chars zone = v.chars zone := chars_eq v (by simp)
    have hn : (f v).isNullish = v.isNullish := nullish_eq v (by simp)
    have hvs := ih (fun w hw => chars_eq w (by simp [hw])) (fun w hw => nullish_eq w (by simp [hw]))
    rw [List.map_cons, partChars, partChars, hv, hn, hvs]

@[simp] theorem chars_relabel (v : Value) : (v.relabel κ).chars zone = v.chars zone := by
  induction v using nested with
  | array items ih =>
    rw [relabel_array, chars_array, chars_array,
      partChars_congr zone ih fun v _ => isNullish_relabel κ v]
  | object ms _ => rw [relabel_object, chars_object]
  | function f => rw [relabel_function, chars_function]
  | _ => simp only [relabel_undefined, relabel_null, relabel_boolean, relabel_number, relabel_text,
      relabel_date]

@[simp] theorem chars_comp_relabel : chars zone ∘ relabel κ = chars zone :=
  funext (chars_relabel κ zone)

@[simp] theorem partChars_relabel (items : List Value) :
    partChars zone (items.map (relabel κ)) = partChars zone items :=
  partChars_congr zone (fun v _ => chars_relabel κ zone v) fun v _ => isNullish_relabel κ v

@[simp] theorem display_relabel (v : Value) : (v.relabel κ).display zone = v.display zone := by
  rw [display, display, chars_relabel]

@[simp] theorem shownChars_relabel (v : Value) :
    (v.relabel κ).shownChars zone = v.shownChars zone := by
  rw [shownChars, shownChars, isNullish_relabel, chars_relabel]

@[simp] theorem toNumber_relabel (v : Value) : (v.relabel κ).toNumber zone = v.toNumber zone := by
  induction v using nested with
  | array items ih =>
    match items with
    | [] => simp
    | [v] => simpa [toNumber] using ih v (by simp)
    | _ :: _ :: _ => simp [toNumber]
  | _ => simp [toNumber]

@[simp] theorem toNumber_comp_relabel : toNumber zone ∘ relabel κ = toNumber zone :=
  funext (toNumber_relabel κ zone)

@[simp] theorem operand_relabel (v : Value) : (v.relabel κ).operand = v.operand.relabel κ := by
  cases v <;> simp [operand]

@[simp] theorem wholeOperand_relabel (v : Value) :
    (v.relabel κ).wholeOperand = v.wholeOperand.relabel κ := by
  cases v <;> simp [wholeOperand]

@[simp] theorem arithmetic_relabel (v : Value) :
    (v.relabel κ).arithmetic zone = v.arithmetic zone := by
  rw [arithmetic, arithmetic, operand_relabel, toNumber_relabel]

@[simp] theorem arithmetic_comp_relabel : arithmetic zone ∘ relabel κ = arithmetic zone :=
  funext (arithmetic_relabel κ zone)

@[simp] theorem word_relabel (v : Value) : (v.relabel κ).word zone = v.word zone := by
  rw [word, word, toNumber_relabel]

@[simp] theorem shiftCount_relabel (v : Value) :
    (v.relabel κ).shiftCount zone = v.shiftCount zone := by
  rw [shiftCount, shiftCount, wholeOperand_relabel, word_relabel]

@[simp] theorem toDate?_relabel (v : Value) : (v.relabel κ).toDate? zone = v.toDate? zone := by
  cases v <;> simp [toDate?]

@[simp] theorem scalar_relabel (v : Value) : (v.relabel κ).scalar zone = v.scalar zone := by
  cases v with
  | array items => rw [relabel_array, scalar, scalar, ← relabel_array, chars_relabel]
  | object ms => rw [relabel_object, scalar, scalar, ← relabel_object, chars_relabel]
  | _ => simp [scalar]

@[simp] theorem primitive_relabel (v : Value) :
    (v.relabel κ).primitive zone = (v.primitive zone).relabel κ := by
  cases v with
  | array items =>
    rw [relabel_array, primitive, primitive, ← relabel_array, chars_relabel, relabel_ofChars]
  | object ms =>
    rw [relabel_object, primitive, primitive, ← relabel_object, chars_relabel, relabel_ofChars]
  | function f =>
    rw [relabel_function, primitive, primitive, ← relabel_function, chars_relabel, relabel_ofChars]
  | _ => simp [primitive]

@[simp] theorem order?_relabel (a b : Value) :
    (a.relabel κ).order? zone (b.relabel κ) = a.order? zone b := by
  have items_eq (items : List Value) := toNumber_relabel κ zone (array items)
  simp only [relabel_array] at items_eq
  rw [order?, order?, primitive_relabel, primitive_relabel]
  cases a.primitive zone <;> cases b.primitive zone <;> simp [items_eq, toNumber]

@[simp] theorem sameType_relabel (a b : Value) :
    (a.relabel κ).sameType (b.relabel κ) = a.sameType b := by
  rw [sameType, sameType, typeName_relabel, typeName_relabel]

@[simp] theorem propertyKey_relabel (v : Value) :
    (v.relabel κ).propertyKey zone = v.propertyKey zone := display_relabel κ zone v

section Equality

variable {κ}

theorem strictEqItems_relabel {vs : List Value}
    (ih : ∀ v ∈ vs, ∀ w, (v.relabel κ).strictEq (w.relabel κ) = v.strictEq w) (ws : List Value) :
    strictEqItems (vs.map (relabel κ)) (ws.map (relabel κ)) = strictEqItems vs ws := by
  induction vs generalizing ws with
  | nil => cases ws <;> rfl
  | cons v vs ihs =>
    cases ws with
    | nil => rfl
    | cons w ws =>
      have hv := ih v (by simp) w
      have hvs := ihs (fun u hu => ih u (by simp [hu])) ws
      rw [List.map_cons, List.map_cons, strictEqItems, strictEqItems, hv, hvs]

theorem strictEqMembers_relabel {a : Members}
    (ih : ∀ m ∈ a, ∀ w, (m.2.relabel κ).strictEq (w.relabel κ) = m.2.strictEq w) (b : Members) :
    strictEqMembers (a.relabel κ) (b.relabel κ) = strictEqMembers a b := by
  induction a generalizing b with
  | nil => cases b <;> rfl
  | cons m a ihs =>
    cases b with
    | nil => rfl
    | cons n b =>
      have hm := ih m (by simp) n.2
      have ha := ihs (fun u hu => ih u (by simp [hu])) b
      rw [Members.relabel_cons, Members.relabel_cons, strictEqMembers, strictEqMembers, hm, ha]

variable (distinct : Closure.Faithful κ)
include distinct

theorem strictEq_relabel (v w : Value) : (v.relabel κ).strictEq (w.relabel κ) = v.strictEq w := by
  induction v using nested generalizing w with
  | array items ih =>
    cases w with
    | array ws =>
      rw [relabel_array, relabel_array, strictEq, strictEq, strictEqItems_relabel ih ws]
    | _ => simp [strictEq]
  | object ms ih =>
    cases w with
    | object ws =>
      rw [relabel_object, relabel_object, strictEq, strictEq, strictEqMembers_relabel ih ws]
    | _ => simp [strictEq]
  | function f =>
    cases w with
    | function g =>
      have h : ((κ f).id == (κ g).id) = (f.id == g.id) := by
        rw [Bool.eq_iff_iff, beq_iff_eq, beq_iff_eq, distinct f g]
      rw [relabel_function, relabel_function, strictEq, strictEq]
      exact h
    | _ => simp [strictEq]
  | _ => cases w <;> simp [strictEq]

theorem looseEq_relabel (v w : Value) :
    (v.relabel κ).looseEq zone (w.relabel κ) = v.looseEq zone w := by
  simp only [looseEq, sameType_relabel, isNullish_relabel, isContainer_relabel, scalar_relabel,
    strictEq_relabel distinct]

end Equality

end Value

theorem UnaryOp.apply_relabel (op : UnaryOp) (v : Value) :
    op.apply zone (v.relabel κ) = (op.apply zone v).relabel κ := by
  cases op <;> simp [UnaryOp.apply]

theorem BinaryOp.apply_relabel {κ : Closure → Closure} (distinct : Closure.Faithful κ)
    (op : BinaryOp) (a b : Value) :
    op.apply zone (a.relabel κ) (b.relabel κ) = (op.apply zone a b).relabel κ := by
  cases op with
  | add =>
    simp only [apply, Value.add, Value.operand_relabel, Value.joinsTexts_relabel,
      Value.chars_relabel, Value.toNumber_relabel]
    split <;> simp
  | and =>
    simp only [apply, Value.isTruthy_relabel]
    split <;> rfl
  | or =>
    simp only [apply, Value.isTruthy_relabel]
    split <;> rfl
  | _ =>
    simp [apply, Value.numeric, Value.ordered, Value.bitwise, Value.looseEq_relabel _ distinct,
      Value.strictEq_relabel distinct]

namespace Members

theorem lookup_relabel (ms : Members) (key : String) :
    List.lookup key (ms.relabel κ) = (List.lookup key ms).map (Value.relabel κ) := by
  induction ms with
  | nil => rfl
  | cons m ms ih =>
    rw [relabel_cons, List.lookup_cons, List.lookup_cons]
    by_cases h : (key == m.1) = true
    · simp [h]
    · simp only [h]
      exact ih

@[simp] theorem get?_relabel (ms : Members) (key : String) :
    get? (ms.relabel κ) key = (get? ms key).map (Value.relabel κ) :=
  lookup_relabel κ ms key

@[simp] theorem insert_relabel (key : String) (v : Value) (ms : Members) :
    insert key (v.relabel κ) (ms.relabel κ) = Members.relabel κ (insert key v ms) := by
  induction ms with
  | nil => rfl
  | cons m ms ih =>
    rw [relabel_cons, insert, insert]
    cases Text.order key.toList m.1.toList <;> simp [relabel_cons, ih]

theorem foldl_insert_relabel (entries : List (String × Value)) (ms : Members) :
    (Members.relabel κ entries).foldl (fun ms e => insert e.1 e.2 ms) (ms.relabel κ) =
      Members.relabel κ (entries.foldl (fun ms e => insert e.1 e.2 ms) ms) := by
  induction entries generalizing ms with
  | nil => rfl
  | cons e entries ih =>
    rw [relabel_cons, List.foldl_cons, List.foldl_cons, insert_relabel]
    exact ih _

theorem ofList_relabel (entries : List (String × Value)) :
    ofList (Members.relabel κ entries) = Members.relabel κ (ofList entries) :=
  foldl_insert_relabel κ entries []

end Members

namespace Value

@[simp] theorem memberAt_relabel (v : Value) (key : String) :
    (v.relabel κ).memberAt key = (v.memberAt key).relabel κ := by
  cases v with
  | object ms =>
    rw [relabel_object, memberAt, memberAt, Members.lookup_relabel]
    cases List.lookup key ms <;> simp
  | array items =>
    rw [relabel_array, memberAt, memberAt]
    by_cases h : key = lengthKey
    · simp [h]
    · rw [if_neg h, if_neg h]
      cases index? key.toList with
      | none => simp
      | some i =>
        simp only [Option.bind_some, List.getElem?_map]
        cases items[i]? <;> simp
  | text s =>
    rw [relabel_text, memberAt]
    by_cases h : key = lengthKey
    · simp [h]
    · rw [if_neg h]
      cases (index? key.toList).bind (s.toList[·]?) <;> simp
  | _ => simp [memberAt]

@[simp] theorem member_relabel (v key : Value) :
    (v.relabel κ).member zone (key.relabel κ) = (v.member zone key).relabel κ := by
  rw [member, member, propertyKey_relabel, memberAt_relabel]

theorem member_number_relabel (v : Value) (x : Float) :
    (v.relabel κ).member zone (number x) = (v.member zone (number x)).relabel κ := by
  rw [← member_relabel, relabel_number]

end Value

namespace Path

@[simp] theorem follow_relabel (v : Value) (keys : List (List Char)) :
    follow (v.relabel κ) keys = (follow v keys).relabel κ := by
  induction keys generalizing v with
  | nil => rfl
  | cons key keys ih =>
    rw [follow, follow, Value.memberAt_relabel]
    cases h : v.memberAt (String.ofList key) with
    | undefined => simp
    | _ =>
      rw [← ih]
      simp

theorem resolve_object (path : List Char) (ms : Members) :
    resolve path (.object ms) =
      if Text.trim path = ['&'] then .object ms
      else if (Text.trim path).isEmpty then .undefined
      else
        match List.lookup (String.ofList (Text.trim path)) ms with
        | some w => w
        | none => follow (.object ms) (keys (Text.trim path)) := rfl

@[simp] theorem resolve_relabel (path : List Char) (v : Value) :
    resolve path (v.relabel κ) = (resolve path v).relabel κ := by
  by_cases whole : Text.trim path = ['&']
  · simp only [resolve, if_pos whole]
  · by_cases blank : (Text.trim path).isEmpty = true
    · simp only [resolve, if_neg whole, if_pos blank, Value.relabel_undefined]
    · cases v with
      | object ms =>
        have h := follow_relabel κ (.object ms) (keys (Text.trim path))
        rw [Value.relabel_object] at h
        rw [Value.relabel_object, resolve_object, resolve_object, if_neg whole, if_neg whole,
          if_neg blank, if_neg blank, Members.lookup_relabel, h]
        cases List.lookup (String.ofList (Text.trim path)) ms <;> rfl
      | _ => simp [resolve, whole, blank, ← follow_relabel]

@[simp] theorem pick_relabel (names : List Char) (v : Value) :
    pick names (v.relabel κ) = (pick names v).relabel κ := by
  rw [pick, pick]
  cases Text.splitOn [','] names with
  | nil => simp [Members.ofList, Members.relabel]
  | cons single rest =>
    cases rest with
    | nil =>
      simp only
      cases Text.splitOnce? '~' single with
      | none => simp
      | some p => simp [Members.relabel]
    | cons next rest =>
      simp only [Value.relabel_object, ← Members.ofList_relabel]
      simp only [Members.relabel, List.map_map, Function.comp_def, resolve_relabel]

end Path

end TemplateFormula
