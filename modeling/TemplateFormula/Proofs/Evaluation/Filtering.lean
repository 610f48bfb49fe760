import TemplateFormula.Proofs.Renaming.Value

/-!
# Runs of built-in filters

Among the built-in filters only `map` runs others, each time with one argument less than it was
given, and none changes the queue. So a run ends once its limit exceeds the number of arguments, and
a limit above that changes nothing.
-/

namespace TemplateFormula

abbrev FilterOutcome := Except Halt Value × List FilterCall

namespace Filter

def Computes (f : Filter) : Prop := ∃ g, f = ofFunction g

theorem ofTotal_computes (f : FilterContext → Value → List Value → Value) :
    Computes (ofTotal f) := ⟨fun ctx input args => .ok (f ctx input args), rfl⟩

theorem builtin_computes : ∀ entry ∈ builtin, Computes entry.2 ∨ entry.2 = map := by
  simp only [builtin, List.forall_mem_cons]
  repeat' apply And.intro
  all_goals first
    | exact .inl (ofTotal_computes _)
    | exact .inl ⟨_, rfl⟩
    | exact .inr rfl
    | exact .inr trivial
    | exact fun _ h => absurd h List.not_mem_nil

theorem mem_of_find? {table : FilterTable} {name : String} {f : Filter}
    (found : table.find? name = some f) : (name, f) ∈ table := by
  obtain ⟨before, after, h, _⟩ := List.lookup_eq_some_iff.mp found
  rw [h]
  simp

theorem computes_of_find? {name : String} {f : Filter} (found : builtin.find? name = some f) :
    Computes f ∨ f = map :=
  builtin_computes (name, f) (mem_of_find? found)

theorem natural_of_find? {κ : Closure → Closure} (faithful : Closure.Faithful κ) {name : String}
    {f : Filter} (found : builtin.find? name = some f) : Natural κ f :=
  builtin_natural faithful (name, f) (mem_of_find? found)

theorem find?_blank : builtin.find? (String.ofList []) = none := by decide +kernel

end Filter

namespace FilterProgram

open TemplateFormula.Filter

section Relabeling

variable (κ : Closure → Closure)

def relabelOutcome (r : FilterOutcome) : FilterOutcome := (r.1.map (Value.relabel κ), r.2)

variable {κ} {find? : String → Option Filter}
  {enter enter' : Filter → Value → List Value → FilterRun Value}

theorem run_relabeled
    (entered : ∀ name f, find? name = some f → ∀ input args queue,
      enter' f (input.relabel κ) (args.map (Value.relabel κ)) queue =
        relabelOutcome κ (enter f input args queue))
    {p p' : FilterProgram} (h : Relabeled κ p p') (queue : List FilterCall) :
    run find? enter' p' queue = relabelOutcome κ (run find? enter p queue) := by
  induction h generalizing queue with
  | done v => rfl
  | fail e => rfl
  | @apply name input args next next' failed gone failed_ih gone_ih =>
    rw [run, run]
    cases found : find? name with
    | none => exact failed_ih _ queue
    | some f =>
      simp only [entered name f found]
      rcases enter f input args queue with ⟨(_ | e) | v, queue⟩
      · exact failed_ih _ queue
      · rfl
      · exact gone_ih _ queue
  | known _ ih => exact ih _ queue
  | waiting _ ih => exact ih queue queue
  | replaceWaiting _ ih => exact ih _

theorem runFilter_relabeled
    (natural : ∀ name f, find? name = some f → Natural κ f) (ctx : FilterContext) (n : Nat)
    {f : Filter} (own : Natural κ f) (input : Value) (args : List Value)
    (queue : List FilterCall) :
    runFilter find? (ctx.relabel κ) n f (input.relabel κ) (args.map (Value.relabel κ)) queue =
      relabelOutcome κ (runFilter find? ctx n f input args queue) := by
  induction n generalizing f input args queue with
  | zero => rfl
  | succ n ih =>
    apply run_relabeled _ (own ctx input args)
    intro name g found input args queue
    exact ih (natural name g found) input args queue

theorem outcome_relabeled (faithful : Closure.Faithful κ) (ctx : FilterContext) (n : Nat)
    {name : String} {f : Filter} (found : builtin.find? name = some f) (input : Value)
    (args : List Value) :
    (runFilter builtin.find? (ctx.relabel κ) n f (input.relabel κ) (args.map (Value.relabel κ))
        []).1 = (runFilter builtin.find? ctx n f input args []).1.map (Value.relabel κ) :=
  congrArg Prod.fst (runFilter_relabeled (fun _ _ => natural_of_find? faithful) ctx n
    (natural_of_find? faithful found) input args [])

end Relabeling

section Renaming

variable (ρ : Nat → Nat)

def renameOutcome (r : FilterOutcome) : FilterOutcome := (r.1.map (Value.rename ρ), r.2)

variable {ρ}

theorem outcome_renamed (distinct : Function.Injective ρ) (clock : Calendar.Clock) (data : Value)
    (n : Nat) {name : String} {f : Filter} (found : builtin.find? name = some f) (input : Value)
    (args : List Value) :
    (runFilter builtin.find? ⟨clock, data.rename ρ⟩ n f (input.rename ρ)
        (args.map (Value.rename ρ)) []).1 =
      (runFilter builtin.find? ⟨clock, data⟩ n f input args []).1.map (Value.rename ρ) := by
  rw [Value.rename_eq]
  exact outcome_relabeled (Closure.rename_faithful distinct) ⟨clock, data⟩ n found input args

end Renaming

section Queue

/-- A run that leaves the queue as it is and does not look at it. -/
def Quiet (run : FilterRun Value) : Prop := ∃ r, ∀ queue, run queue = (r, queue)

variable {find? : String → Option Filter}
  {enter : Filter → Value → List Value → FilterRun Value}

/-- Programs that neither look at the queue nor change it. -/
inductive Oblivious : FilterProgram → Prop
  | done (v : Value) : Oblivious (.done v)
  | fail (e : EvalError) : Oblivious (.fail e)
  | apply {name : String} {input : Value} {args : List Value}
      {next : Except EvalError Value → FilterProgram} (after : ∀ r, Oblivious (next r)) :
      Oblivious (.apply name input args next)
  | known {name : String} {next : Bool → FilterProgram} (after : ∀ b, Oblivious (next b)) :
      Oblivious (.known name next)

theorem run_quiet (quiet : ∀ name f, find? name = some f → ∀ input args, Quiet (enter f input args))
    {p : FilterProgram} (h : Oblivious p) : Quiet (run find? enter p) := by
  induction h with
  | done v => exact ⟨.ok v, fun queue => rfl⟩
  | fail e => exact ⟨.error (.fault e), fun queue => rfl⟩
  | @apply name input args next after ih =>
    rw [run]
    cases found : find? name with
    | none => exact ih _
    | some f =>
      obtain ⟨r, hr⟩ := quiet name f found input args
      simp only [hr]
      rcases r with (e | _) | v
      · exact ih _
      · exact ⟨.error .exhausted, fun queue => rfl⟩
      · exact ih _
  | known _ ih => exact ih _

end Queue

end FilterProgram

namespace Filter

def Oblivious (f : Filter) : Prop :=
  ∀ ctx input args, FilterProgram.Oblivious (f ctx input args)

theorem Computes.oblivious {f : Filter} (h : Computes f) : Oblivious f := by
  obtain ⟨g, rfl⟩ := h
  intro ctx input args
  rw [ofFunction]
  cases g ctx input args with
  | ok v => exact .done v
  | error e => exact .fail e

theorem mapItems_oblivious (name : String) (args done items : List Value) :
    FilterProgram.Oblivious (mapItems name args done items) := by
  induction items generalizing done with
  | nil => exact .done _
  | cons v vs ih =>
    refine .apply fun r => ?_
    cases r with
    | ok w => exact ih (w :: done)
    | error e => exact .fail e

theorem map_oblivious : Oblivious map := by
  intro ctx input args
  refine .known fun known => ?_
  cases known with
  | false => exact .done input
  | true =>
    cases input with
    | array items => exact mapItems_oblivious _ _ [] items
    | _ => exact .done _

theorem oblivious_of_find? {name : String} {f : Filter} (found : builtin.find? name = some f) :
    Oblivious f := by
  obtain computes | rfl := computes_of_find? found
  · exact computes.oblivious
  · exact map_oblivious

end Filter

namespace FilterProgram

open TemplateFormula.Filter

/-- If no filter looks at the queue, none changes it either. -/
theorem runFilter_quiet {find? : String → Option Filter}
    (oblivious : ∀ name f, find? name = some f → Filter.Oblivious f) (ctx : FilterContext) (n : Nat)
    {f : Filter} (own : Filter.Oblivious f) (input : Value) (args : List Value) :
    Quiet (runFilter find? ctx n f input args) := by
  induction n generalizing f input args with
  | zero => exact ⟨.error .exhausted, fun queue => rfl⟩
  | succ n ih =>
    exact run_quiet (fun name g found input args => ih (oblivious name g found) input args)
      (own ctx input args)

section Limits

/-- An outcome that a higher limit would not change, unless the limit has been met. -/
def Below (r s : FilterOutcome) : Prop := r.1 ≠ .error .exhausted → s = r

theorem run_apply {find? : String → Option Filter}
    (enter : Filter → Value → List Value → FilterRun Value) {name : String} {f : Filter}
    (found : find? name = some f) (input : Value) (args : List Value)
    (next : Except EvalError Value → FilterProgram) (queue : List FilterCall) :
    run find? enter (.apply name input args next) queue =
      match enter f input args queue with
      | (.ok v, queue) => run find? enter (next (.ok v)) queue
      | (.error (.fault e), queue) => run find? enter (next (.error e)) queue
      | (.error .exhausted, queue) => (.error .exhausted, queue) := by
  rcases first : enter f input args queue with ⟨(e | _) | v, after⟩ <;>
    simp only [run, found, first]

theorem run_below {find? : String → Option Filter}
    {enter enter' : Filter → Value → List Value → FilterRun Value}
    (entered : ∀ f input args queue,
      Below (enter f input args queue) (enter' f input args queue))
    (p : FilterProgram) (queue : List FilterCall) :
    Below (run find? enter p queue) (run find? enter' p queue) := by
  induction p generalizing queue with
  | done v => exact fun _ => rfl
  | fail e => exact fun _ => rfl
  | apply name input args next ih =>
    cases found : find? name with
    | none =>
      simp only [run, found]
      exact ih _ queue
    | some f =>
      intro ended
      have same := entered f input args queue
      rw [run_apply enter found] at ended ⊢
      rw [run_apply enter' found]
      rcases first : enter f input args queue with ⟨(e | _) | v, after⟩
      · rw [first] at ended same
        have same : enter' f input args queue = (.error (.fault e), after) := same (by simp)
        rw [same]
        exact ih _ after ended
      · rw [first] at ended
        exact absurd rfl ended
      · rw [first] at ended same
        have same : enter' f input args queue = (.ok v, after) := same (by simp)
        rw [same]
        exact ih _ after ended
  | known name next ih => exact ih _ queue
  | waiting next ih => exact ih queue queue
  | replaceWaiting calls next ih => exact ih calls

theorem runFilter_below (find? : String → Option Filter) (ctx : FilterContext) (n : Nat)
    (f : Filter) (input : Value) (args : List Value) (queue : List FilterCall) :
    Below (runFilter find? ctx n f input args queue)
      (runFilter find? ctx (n + 1) f input args queue) := by
  induction n generalizing f input args queue with
  | zero => exact fun ended => absurd rfl ended
  | succ n ih => exact run_below ih (f ctx input args) queue

variable (ctx : FilterContext)

/-- An outcome that a limit has no part in. -/
def Settled (r : Except EvalError Value) (run : FilterRun Value) : Prop :=
  ∀ queue, run queue = (r.mapError .fault, queue)

theorem mapItems_settled {find? : String → Option Filter} {f : Filter} {name : String}
    (found : find? name = some f) {args : List Value} {limit : Nat}
    (each : ∀ input, ∃ r, ∀ n, limit < n → Settled r (runFilter find? ctx n f input args))
    (done items : List Value) :
    ∃ r, ∀ n, limit < n →
      Settled r (run find? (runFilter find? ctx n) (mapItems name args done items)) := by
  induction items generalizing done with
  | nil => exact ⟨.ok (.array done.reverse), fun n _ queue => rfl⟩
  | cons v vs ih =>
    obtain ⟨r, hr⟩ := each v
    cases r with
    | error e =>
      refine ⟨.error e, fun n hn queue => ?_⟩
      rw [mapItems, run]
      simp only [found, hr n hn queue]
      rfl
    | ok w =>
      obtain ⟨s, hs⟩ := ih (w :: done)
      refine ⟨s, fun n hn queue => ?_⟩
      rw [mapItems, run]
      simp only [found, hr n hn queue]
      exact hs n hn queue

theorem ofFunction_settled (g : FilterContext → Value → List Value → Except EvalError Value)
    (find? : String → Option Filter) (n : Nat) (input : Value) (args : List Value) :
    Settled (g ctx input args) (runFilter find? ctx (n + 1) (ofFunction g) input args) := by
  intro queue
  rw [runFilter, ofFunction]
  cases g ctx input args <;> rfl

theorem map_settled (args : List Value)
    (each : ∀ name f, builtin.find? name = some f → ∀ input,
      ∃ r, ∀ n, args.tail.length < n →
        Settled r (runFilter builtin.find? ctx n f input args.tail)) (input : Value) :
    ∃ r, ∀ n, args.tail.length < n →
      Settled r (runFilter builtin.find? ctx (n + 1) map input args) := by
  have enters (n : Nat) : runFilter builtin.find? ctx (n + 1) map input args =
      run builtin.find? (runFilter builtin.find? ctx n) (map ctx input args) := rfl
  simp only [enters, map, run]
  cases found : builtin.find? (String.ofList ((args.head?.map (Value.chars ctx.zone)).getD [])) with
  | none => exact ⟨.ok input, fun n _ queue => rfl⟩
  | some f =>
    cases input with
    | array items => exact mapItems_settled ctx found (each _ f found) [] items
    | _ => exact ⟨.ok _, fun n _ queue => rfl⟩

theorem runFilter_settled {name : String} {f : Filter} (found : builtin.find? name = some f)
    (input : Value) (args : List Value) :
    ∃ r, ∀ n, args.length < n → Settled r (runFilter builtin.find? ctx n f input args) := by
  -- A run with `map` loses an argument at each level, so the induction is on the arguments.
  induction args generalizing name f input with
  | nil =>
    obtain ⟨g, rfl⟩ | rfl := computes_of_find? found
    · refine ⟨g ctx input [], fun n hn => ?_⟩
      obtain ⟨n, rfl⟩ := Nat.exists_eq_succ_of_ne_zero (Nat.ne_of_gt hn)
      exact ofFunction_settled ctx g _ n input []
    · refine ⟨.ok input, fun n hn queue => ?_⟩
      obtain ⟨n, rfl⟩ := Nat.exists_eq_succ_of_ne_zero (Nat.ne_of_gt hn)
      rw [runFilter]
      simp only [map, List.head?_nil, Option.map_none, Option.getD_none, run, find?_blank]
      rfl
  | cons a args ih =>
    obtain ⟨g, rfl⟩ | rfl := computes_of_find? found
    · refine ⟨g ctx input (a :: args), fun n hn => ?_⟩
      obtain ⟨n, rfl⟩ := Nat.exists_eq_succ_of_ne_zero (Nat.ne_of_gt (Nat.zero_lt_of_lt hn))
      exact ofFunction_settled ctx g _ n input (a :: args)
    · have each : ∀ name f, builtin.find? name = some f → ∀ input,
          ∃ r, ∀ n, args.length < n → Settled r (runFilter builtin.find? ctx n f input args) :=
        fun name f found input => ih found input
      obtain ⟨r, hr⟩ := map_settled ctx (a :: args) each input
      refine ⟨r, fun n hn => ?_⟩
      obtain ⟨n, rfl⟩ := Nat.exists_eq_succ_of_ne_zero (Nat.ne_of_gt (Nat.zero_lt_of_lt hn))
      exact hr n (Nat.lt_of_succ_lt_succ hn)

end Limits

end FilterProgram

end TemplateFormula
