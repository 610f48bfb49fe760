import TemplateFormula.Evaluation.Evaluator
import TemplateFormula.Proofs.Printing.Written
import TemplateFormula.Proofs.Text.CamelCase

/-!
# Functions of the user

A function is registered under its name in camel case and looked up under its name as it is. A
function whose name camel case leaves alone answers every call of its name, whatever functions of
other names there are. One whose name camel case changes answers to the changed name only.
-/

namespace TemplateFormula

open Text

namespace Options

variable {σ : Type} (o : Options σ)

def withFunction (name : String) (h : Handler σ) : Options σ :=
  o.withHandler (functionKey name) h

/-- Functions that are registered one after another. -/
def withFunctions (fs : List (String × Handler σ)) : Options σ :=
  fs.foldl (fun o f => o.withFunction f.1 f.2) o

theorem lookup_put {α : Type} (key k : String) (a : α) (entries : List (String × α)) :
    (put key a entries).lookup k = if k = key then some a else entries.lookup k := by
  rw [put, List.lookup_cons]
  by_cases h : k = key
  · simp [h]
  · rw [beq_eq_false_iff_ne.2 h, if_neg h]
    induction entries with
    | nil => rfl
    | cons e entries ih =>
      by_cases he : e.1 = key
      · have other : (k == e.1) = false := beq_eq_false_iff_ne.2 (he ▸ h)
        rw [List.filter_cons_of_neg (by simp [he]), List.lookup_cons, other]
        exact ih
      · rw [List.filter_cons_of_pos (by simp [he]), List.lookup_cons, List.lookup_cons]
        cases k == e.1 with
        | true => rfl
        | false => exact ih

theorem functionKey_inj {a b : String} : functionKey a = functionKey b ↔ a = b := by
  refine ⟨fun h => ?_, congrArg _⟩
  have chars := congrArg String.toList h
  simp only [functionKey, String.toList_append, List.append_cancel_left_eq] at chars
  exact String.ext chars

theorem handlerKey_functionKey (name : String) :
    handlerKey (functionKey name) = functionKey (handlerKey name) := by
  have behind (cs : List Char) : camelCase ('f' :: 'n' :: cs) = 'f' :: 'n' :: camelCase cs := by
    cases cs <;> rfl
  apply String.ext
  simp [handlerKey, functionKey, behind]

theorem handlerKey_eq_self_iff (name : String) : handlerKey name = name ↔ Apart name.toList := by
  rw [← camelCase_eq_self_iff, handlerKey]
  exact ⟨fun h => by simpa using congrArg String.toList h, fun h => by rw [h, String.ofList_toList]⟩

/-- No kind of node has the key of a function. -/
theorem name_ne_functionKey (k : Kind) (name : String) : k.name ≠ functionKey name := by
  intro h
  have heads : k.name.toList.take 2 = ['f', 'n'] := by
    rw [h]
    simp [functionKey]
  revert heads
  cases k <;> decide

/-- A function answers to its name in camel case. -/
theorem functionHandler?_withFunction (name called : String) (h : Handler σ) :
    (o.withFunction name h).functionHandler? called =
      if called = handlerKey name then some h else o.functionHandler? called := by
  simp only [functionHandler?, withFunction, withHandler, lookup_put, handlerKey_functionKey,
    functionKey_inj]

theorem nodeHandler?_withFunctions (fs : List (String × Handler σ)) (k : Kind) :
    (o.withFunctions fs).nodeHandler? k = o.nodeHandler? k := by
  induction fs generalizing o with
  | nil => rfl
  | cons f fs ih =>
    refine (ih (o.withFunction f.1 f.2)).trans ?_
    simp only [nodeHandler?, withFunction, withHandler, lookup_put, handlerKey_functionKey,
      if_neg (name_ne_functionKey k _)]

/-- Functions of other names do not matter to a call. -/
theorem functionHandler?_withFunctions {fs : List (String × Handler σ)} {called : String}
    (others : ∀ f ∈ fs, handlerKey f.1 ≠ called) :
    (o.withFunctions fs).functionHandler? called = o.functionHandler? called := by
  induction fs generalizing o with
  | nil => rfl
  | cons f fs ih =>
    rw [List.forall_mem_cons] at others
    refine (ih (o.withFunction f.1 f.2) others.2).trans ?_
    rw [functionHandler?_withFunction, if_neg fun h => others.1 h.symm]

theorem withFunctions_append (fs gs : List (String × Handler σ)) :
    o.withFunctions (fs ++ gs) = (o.withFunctions fs).withFunctions gs := List.foldl_append

/-- Two options that agree on a call still do with more functions. -/
theorem functionHandler?_congr {o o' : Options σ} {called : String}
    (same : o.functionHandler? called = o'.functionHandler? called)
    (fs : List (String × Handler σ)) :
    (o.withFunctions fs).functionHandler? called =
      (o'.withFunctions fs).functionHandler? called := by
  induction fs generalizing o o' with
  | nil => exact same
  | cons f fs ih =>
    have first : (o.withFunction f.1 f.2).functionHandler? called =
        (o'.withFunction f.1 f.2).functionHandler? called := by
      rw [functionHandler?_withFunction, functionHandler?_withFunction, same]
    exact ih first

end Options

namespace Eval

open Options

variable {σ : Type}

/-- Where no handler takes the calls themselves, a call reaches the function of its name. -/
theorem within_call {env : Environment σ} {name : String} {run : List Arg → Action σ}
    (free : env.options.nodeHandler? .call = none)
    (found : env.options.functionHandler? name = some (.call run)) (n : Nat) (entry : Entry)
    (args : List Expr) (m : Machine σ) :
    within (n + 1) entry (.call name args) env m =
      (handlerArgs (within n) name args >>= fun as => perform n (within n) (run as)) env m := by
  have unhandled : handlerFor env.options entry (.call name args) = none := by
    cases entry with
    | handled => exact free
    | builtin => rfl
  simp only [within, ask, bind_def, unhandled, rule, call, found]

/-- A function whose name holds no underscore directly before a letter or numeral answers every
call of its name, with the arguments that a function of that name receives, as long as no later
one has that name in camel case; any other function is never reached by a call of its name. -/
theorem functions_answer (o : Options σ) (free : o.nodeHandler? .call = none)
    (before after : List (String × Handler σ)) (name : String) (run : List Arg → Action σ)
    (clock : Calendar.Clock) (data : Value) :
    let added := o.withFunctions (before ++ (name, .call run) :: after)
    (Apart name.toList → (∀ f ∈ after, handlerKey f.1 ≠ name) → ∀ n entry args m,
      within (n + 1) entry (.call name args) ⟨added, clock, data⟩ m =
        (handlerArgs (within n) name args >>= fun as => perform n (within n) (run as))
          ⟨added, clock, data⟩ m) ∧
    (¬ Apart name.toList →
      added.functionHandler? name = (o.withFunctions (before ++ after)).functionHandler? name) := by
  intro added
  have split : added =
      ((o.withFunctions before).withFunction name (.call run)).withFunctions after :=
    o.withFunctions_append before _
  constructor
  · intro plain others n entry args m
    have found : added.functionHandler? name = some (.call run) := by
      rw [split, functionHandler?_withFunctions _ others, functionHandler?_withFunction,
        if_pos ((handlerKey_eq_self_iff name).2 plain).symm]
    have unhandled : added.nodeHandler? .call = none :=
      (o.nodeHandler?_withFunctions _ .call).trans free
    exact within_call unhandled found n entry args m
  · intro joined
    have passed : ((o.withFunctions before).withFunction name (.call run)).functionHandler? name =
        (o.withFunctions before).functionHandler? name := by
      have other : name ≠ handlerKey name :=
        fun h => joined ((handlerKey_eq_self_iff name).1 h.symm)
      rw [functionHandler?_withFunction, if_neg other]
    rw [split, withFunctions_append]
    exact functionHandler?_congr passed after

/-- A function that tells how many arguments it received. -/
def arity : List Arg → Action Unit := fun args => .done (.ofNat args.length)

theorem functions_answer_underscores :
    (Options.usual : Options Unit).nodeHandler? .call = none ∧ ¬ Apart "_9A_".toList ∧
      Apart "A__".toList ∧ ∀ clock,
        let added : Options Unit :=
          Options.usual.withFunctions [("A__", .call arity), ("_9A_", .call fun _ => .done .null)]
        within 3 .handled (.call "A__" [.text "x", .call "A__" []]) ⟨added, clock, .null⟩
            (Machine.start clock ()) =
          (.ok (.ofNat 2), Machine.start clock ()) ∧
        added.functionHandler? "_9A_" = none := by
  have joined : ¬ Apart "_9A_".toList := by decide
  refine ⟨rfl, joined, by decide, fun clock => ?_⟩
  have first := (functions_answer Options.usual rfl [] [("_9A_", .call fun _ => .done .null)]
    "A__" arity clock .null).1 (by decide) (by decide) 2 .handled [.text "x", .call "A__" []]
  have second := (functions_answer Options.usual rfl [("A__", .call arity)] []
    "_9A_" (fun _ => .done .null) clock .null).2 joined
  exact ⟨(first _).trans rfl, second.trans rfl⟩

/-- A call of a name with an underscore directly before a letter reaches no function, although one
of this name has been registered. -/
theorem underscored_name_unanswered :
    IsName "MY_SUM" ∧ ∀ clock,
      let added : Options Unit := Options.usual.withFunction "MY_SUM" (.call arity)
      within 2 .handled (.call "MY_SUM" [.text "x"]) ⟨added, clock, .null⟩
          (Machine.start clock ()) =
        (.error (.fault (.unknownFunction "MY_SUM")), Machine.start clock ()) ∧
      (handlerArgs (within 1) "MY_SUM" [.text "x"] >>= fun as => perform 1 (within 1) (arity as))
          ⟨added, clock, .null⟩ (Machine.start clock ()) =
        (.ok (.ofNat 1), Machine.start clock ()) :=
  ⟨⟨⟨'M', ['Y', '_', 'S', 'U', 'M'], rfl, rfl, by simp; decide⟩, by decide⟩,
    fun _ => ⟨rfl, rfl⟩⟩

end Eval

end TemplateFormula
