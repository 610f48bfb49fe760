import TemplateFormula.Proofs.Evaluation.Randomless

/-!
# Functions over the items of a list

A map and a filter over the items of a list call the function with the same items in the same
machines. So they fail together, and a filter keeps the items at whose places the members of the map
are truthy. Without handlers and random numbers all calls are made in the scopes of the caller, in a
machine that differs from theirs in nothing but how many functions have been made.
-/

namespace TemplateFormula.Eval

variable {σ : Type}

/-- The items at whose places there are truthy values. -/
def kept (items values : List Value) : List Value :=
  ((items.zip values).filter fun p => p.2.isTruthy).map Prod.fst

/-- A call of the built-in function of this name with a list and a function as its arguments. -/
def onItems (n : Nat) (name : String) (items : List Value) (f : Closure) : Eval σ Value :=
  match eager? (within n) name with
  | some run => run [.array items, .function f]
  | none => fault (.unknownFunction name)

section Outcomes

variable {α β : Type} {env : Environment σ} {m m' : Machine σ}

theorem map_apply (g : α → β) (x : Eval σ α) (env : Environment σ) (m : Machine σ) :
    (g <$> x) env m = ((x env m).1.map g, (x env m).2) := by
  rw [map_eq_pure_bind, bind_def]
  rcases x env m with ⟨_ | _, _⟩ <;> rfl

theorem ok_of_bind {x : Eval σ α} {f : α → Eval σ β} {b : β}
    (ended : (x >>= f) env m = (.ok b, m')) :
    ∃ a m₁, x env m = (.ok a, m₁) ∧ f a env m₁ = (.ok b, m') := by
  rcases first : x env m with ⟨h | a, m₁⟩
  · rw [bind_of_error first] at ended
    cases ended
  · exact ⟨a, m₁, rfl, (bind_of_ok first).symm.trans ended⟩

end Outcomes

section Items

variable (eval : Entry → Expr → Eval σ Value) (f : Closure)

theorem kept_cons (v w : Value) (items values : List Value) :
    kept (v :: items) (w :: values) =
      if w.isTruthy then v :: kept items values else kept items values := by
  unfold kept
  rw [List.zip_cons_cons, List.filter_cons]
  split <;> rfl

/-- A filter makes the calls of a map, in the same order, and keeps what it asks for. -/
theorem filterItems_eq (i : Nat) (items : List Value) :
    filterItems eval f i items = kept items <$> mapItems eval f i items := by
  induction items generalizing i with
  | nil => rfl
  | cons v vs ih =>
    simp only [filterItems, mapItems, ih, map_eq_pure_bind, bind_assoc, pure_bind, kept_cons]

variable {eval f} {env : Environment σ}

theorem mapItems_cons {i : Nat} {v w : Value} {m m₁ : Machine σ}
    (called : callClosure eval f [v, .ofNat i] env m = (.ok w, m₁)) (vs : List Value) :
    mapItems eval f i (v :: vs) env m =
      ((w :: ·) <$> mapItems eval f (i + 1) vs : Eval σ (List Value)) env m₁ := by
  rw [mapItems, bind_of_ok called, map_eq_pure_bind]

/-- A member of a map is the value of the function at the item and its position, in the machine that
the items before it leave behind. -/
theorem mapItems_members {i : Nat} {items values : List Value} {m m' : Machine σ}
    (mapped : mapItems eval f i items env m = (.ok values, m')) :
    values.length = items.length ∧ ∀ j v, items[j]? = some v → ∃ w, values[j]? = some w ∧
      (callClosure eval f [v, .ofNat (i + j)] env (mapItems eval f i (items.take j) env m).2).1 =
        .ok w := by
  induction items generalizing i values m with
  | nil =>
    cases mapped
    exact ⟨rfl, nofun⟩
  | cons first rest ih =>
    obtain ⟨w, m₁, called, mapped⟩ := ok_of_bind mapped
    obtain ⟨ws, m₂, tail, mapped⟩ := ok_of_bind mapped
    cases mapped
    obtain ⟨length, members⟩ := ih tail
    refine ⟨congrArg (· + 1) length, fun j v place => ?_⟩
    cases j with
    | zero =>
      cases place
      exact ⟨w, rfl, congrArg Prod.fst called⟩
    | succ j =>
      obtain ⟨w', found, value⟩ := members j v place
      have position : i + 1 + j = i + (j + 1) := by omega
      rw [position] at value
      refine ⟨w', found, ?_⟩
      rw [List.take_succ_cons, mapItems_cons called, map_apply]
      exact value

end Items

section Calls

variable (n : Nat) (items : List Value) (f : Closure) (env : Environment σ) (m : Machine σ)

theorem onItems_map : onItems n mapName items f env m =
    ((mapItems (within n) f 0 items env m).1.map .array,
      (mapItems (within n) f 0 items env m).2) := by
  rw [← map_apply, map_eq_pure_bind]
  rfl

theorem onItems_filter : onItems n filterName items f env m =
    ((mapItems (within n) f 0 items env m).1.map fun values => .array (kept items values),
      (mapItems (within n) f 0 items env m).2) := by
  have filtered : onItems n filterName items f env m =
      (Value.array <$> filterItems (within n) f 0 items : Eval σ Value) env m := by
    rw [map_eq_pure_bind]
    rfl
  rw [filtered, filterItems_eq, ← comp_map, map_apply]
  rfl

variable {n items f env}

/-- Calls with the items of a list leave the machine as it was but for the functions that they
make. -/
theorem onItems_calm (handlers : env.options.handlers = []) (quiet : env.Randomless)
    (items_own : ∀ v ∈ items, v.Randomless) (own : f.Randomless) :
    Calm env Value.Randomless (onItems n mapName items f) := by
  have args_own : ∀ v ∈ [Value.array items, .function f], v.Randomless :=
    List.forall_mem_cons.2 ⟨Value.randomless_array.2 items_own,
      List.forall_mem_singleton.2 (Value.randomless_function.2 own)⟩
  have other : mapName ≠ randomName := by decide
  exact calm_eager (fun e own => calm_within quiet handlers n own) other rfl args_own

end Calls

/-- For every list and function, in every state without handlers and random numbers: a map over the
list fails exactly when a filter does, with the same error. Otherwise its members are the values of
the function at the items and their positions, evaluated in the scopes of the caller, and the filter
gives the items at whose places these are truthy. -/
theorem map_filter_agree {env : Environment σ} (handlers : env.options.handlers = [])
    (quiet : env.Randomless) {m : Machine σ} (scopes : m.Randomless env) {items : List Value}
    (items_own : ∀ v ∈ items, v.Randomless) {f : Closure} (own : f.Randomless) (n : Nat) :
    let run (name : String) (items : List Value) := onItems n name items f env m
    (∀ h, (run mapName items).1 = .error h ↔ (run filterName items).1 = .error h) ∧
    ∀ r, (run mapName items).1 = .ok r → ∃ values, r = .array values ∧
      values.length = items.length ∧
      (∀ i v, items[i]? = some v → ∃ w k, values[i]? = some w ∧
        (run mapName (items.take i)).2 = m.made k ∧
        (callClosure (within n) f [v, .ofNat i] env (m.made k)).1 = .ok w) ∧
      (run filterName items).1 = .ok (.array (kept items values)) := by
  intro run
  simp only [run, onItems_map, onItems_filter]
  rcases mapped : mapItems (within n) f 0 items env m with ⟨h | values, m'⟩
  · exact ⟨fun h => Iff.rfl, nofun⟩
  · refine ⟨fun h => ⟨nofun, nofun⟩, fun r value => ?_⟩
    obtain ⟨length, members⟩ := mapItems_members mapped
    refine ⟨values, (Except.ok.inj value).symm, length, fun i v place => ?_, rfl⟩
    obtain ⟨w, found, called⟩ := members i v place
    have before_own (v : Value) (member : v ∈ items.take i) : v.Randomless :=
      items_own v (List.mem_of_mem_take member)
    obtain ⟨⟨k, left⟩, _⟩ := onItems_calm handlers quiet before_own own m scopes (n := n)
    rw [onItems_map] at left
    rw [left, Nat.zero_add] at called
    exact ⟨w, k, found, left, called⟩

/-- A function that makes another one, and whose value depends on a name of its caller. -/
def picking : Closure :=
  ⟨0, ["x", "i"],
    .sequence [.function [] (.variable "x"), .binary .and (.variable "x") (.variable "on")]⟩

theorem picking_randomless : picking.Randomless := by
  have leaf (name : String) : (Expr.variable name).Randomless := .of_parts nofun nofun
  refine .of_parts nofun (List.forall_mem_cons.2 ⟨?_, List.forall_mem_singleton.2 ?_⟩)
  · exact .of_parts nofun (List.forall_mem_singleton.2 (leaf "x"))
  · exact .of_parts nofun
      (List.forall_mem_cons.2 ⟨leaf "x", List.forall_mem_singleton.2 (leaf "on")⟩)

theorem map_filter_agree_picking :
    picking.Randomless ∧ ∀ clock,
      let env : Environment Unit := ⟨.usual, clock, .object []⟩
      let m : Machine Unit :=
        { Machine.start clock () with scopes := [.locals [("on", .text "b")], .root] }
      (onItems 5 filterName [.text "a", .text "", .text "c"] picking env m).1 =
        .ok (.array [.text "a", .text "c"]) := by
  refine ⟨picking_randomless, fun clock => ?_⟩
  intro env m
  have quiet : env.Randomless :=
    ⟨Value.FunctionFree.randomless fun κ => by simp [env, Members.relabel], nofun, nofun⟩
  have text_own (s : String) : (Value.text s).Randomless := fun _ _ => rfl
  have scopes : m.Randomless env :=
    locals_randomless ["on"] (List.forall_mem_singleton.2 (text_own "b")) (.start clock ())
      (start_randomless quiet ())
  have items_own : ∀ v ∈ [Value.text "a", .text "", .text "c"], v.Randomless := by
    simp [text_own]
  have mapped : (onItems 5 mapName [.text "a", .text "", .text "c"] picking env m).1 =
      .ok (.array [.text "b", .text "", .text "b"]) := rfl
  obtain ⟨values, members, _, _, filtered⟩ :=
    (map_filter_agree rfl quiet scopes items_own picking_randomless 5).2 _ mapped
  cases members
  exact filtered

end TemplateFormula.Eval
