import TemplateFormula.Proofs.Evaluation.Counting

/-!
# Evaluation in the order of the source

A function that returns how often it has been called makes the order of evaluation visible. Calls of
it give the numbers that they have in the source, whatever stands between them: each part of a node
is evaluated once, and behind the parts in front of it.
-/

namespace TemplateFormula

namespace Eval

variable {env : Environment Nat}

/-- The value of an expression beside that of the expression with numbers. -/
def Follows (env : Environment Nat) (eval : Entry → Expr → Eval Nat Value) (e : Expr) : Prop :=
  ∀ i, Gives env i (i + e.counted) (eval .handled e) (eval .handled (e.numbered i))

variable {eval : Entry → Expr → Eval Nat Value}

theorem Follows.silent {e : Expr} (h : Follows env eval e) (none : e.counted = 0) (i : Nat) :
    Gives env i i (eval .handled e) (eval .handled e) := by
  have follows := h i
  rwa [Expr.numbered_self none, none] at follows

namespace Follows

section Lists

variable {es : List Expr} (each : ∀ e ∈ es, Follows env eval e)
include each

theorem all (i : Nat) :
    Counts env i (i + countedAll es) (List.map (Value.relabel Closure.silenced))
      (List.map (Value.relabel Closure.silenced)) (all (eval .handled) es)
      (Eval.all (eval .handled) (numberedAll es i)) := by
  induction es generalizing i with
  | nil =>
    rw [numberedAll, countedAll]
    exact .pure _ _ []
  | cons e es ih =>
    obtain ⟨first, rest⟩ := List.forall_mem_cons.1 each
    rw [numberedAll, countedAll, ← Nat.add_assoc]
    exact (first i).bind fun v => (ih rest _).map (v :: ·) (fun _ => rfl) fun _ => rfl

omit each in
theorem shown (v : Value) (i : Nat) :
    Counts env i i id id (shown v) (Eval.shown v) := .ask _ rfl rfl

theorem glued (i : Nat) :
    Counts env i (i + countedAll es) id id (glued (eval .handled) es)
      (Eval.glued (eval .handled) (numberedAll es i)) := by
  induction es generalizing i with
  | nil =>
    rw [numberedAll, countedAll]
    exact .pure id id []
  | cons e es ih =>
    obtain ⟨first, rest⟩ := List.forall_mem_cons.1 each
    rw [numberedAll, countedAll, ← Nat.add_assoc]
    exact (first i).bind fun v => (shown _ _).bind fun cs =>
      (ih rest _).map (cs ++ ·) (fun _ => rfl) fun _ => rfl

theorem gluedText (i : Nat) :
    Gives env i (i + countedAll es) (do return .ofChars (← Eval.glued (eval .handled) es))
      (do return .ofChars (← Eval.glued (eval .handled) (numberedAll es i))) :=
  (glued each i).map Value.ofChars (fun cs => (Value.relabel_ofChars _ cs).symm)
    fun cs => (Value.relabel_ofChars _ cs).symm

theorem sequence (last : Value) (i : Nat) :
    Gives env i (i + countedAll es) (sequence eval (last.relabel Closure.silenced) es)
      (Eval.sequence eval (last.relabel Closure.silenced) (numberedAll es i)) := by
  induction es generalizing last i with
  | nil =>
    rw [numberedAll, countedAll]
    exact .pure _ _ last
  | cons e es ih =>
    obtain ⟨first, rest⟩ := List.forall_mem_cons.1 each
    rw [numberedAll, countedAll, ← Nat.add_assoc]
    exact (first i).bind fun v => ih rest v _

theorem document (i : Nat) :
    Gives env i (i + countedAll es) (document eval es)
      (Eval.document eval (numberedAll es i)) := by
  match es with
  | [] =>
    rw [numberedAll, countedAll]
    exact gives_of_silent (Value.relabel_undefined _) i
  | [e] =>
    rw [numberedAll, numberedAll, countedAll, countedAll]
    exact each e List.mem_cons_self i
  | d :: e :: es =>
    have text := gluedText each i
    rw [numberedAll, numberedAll] at text ⊢
    exact text

end Lists

theorem members {entries : List (Expr × Expr)}
    (each : ∀ entry ∈ entries, Follows env eval entry.1 ∧ Follows env eval entry.2) (ms : Members)
    (i : Nat) :
    Counts env i (i + countedMembers entries) (Members.relabel Closure.silenced)
      (Members.relabel Closure.silenced)
      (members eval (ms.relabel Closure.silenced) entries)
      (Eval.members eval (ms.relabel Closure.silenced) (numberedMembers entries i)) := by
  induction entries generalizing ms i with
  | nil =>
    rw [numberedMembers, countedMembers]
    exact .pure _ _ ms
  | cons entry entries ih =>
    obtain ⟨⟨key, value⟩, rest⟩ := List.forall_mem_cons.1 each
    rw [numberedMembers, countedMembers, ← Nat.add_assoc, ← Nat.add_assoc]
    refine (key i).bind fun k => (value _).bind fun v => ?_
    let asName : Eval Nat String :=
      ask fun env => (k.relabel Closure.silenced).propertyKey env.zone
    have named (j : Nat) : Counts env j j id id asName asName := .ask _ rfl rfl
    refine (named _).bind fun name => ?_
    rw [Members.insert_relabel]
    exact ih rest (ms.insert name v) _

section Arguments

mutual

theorem filterArg : (a : FilterArg) → (∀ e ∈ a.exprs, Follows env eval e) → ∀ i,
    Gives env i (i + a.counted) (filterArg (eval .handled) a)
      (Eval.filterArg (eval .handled) (a.numbered i))
  | .text s, _, i => by
    rw [FilterArg.numbered, FilterArg.counted]
    exact gives_of_silent (Value.relabel_text _ s) i
  | .expr e, follows, i => by
    rw [FilterArg.numbered, FilterArg.counted]
    exact follows e List.mem_cons_self i
  | .mixed parts, follows, i => by
    rw [FilterArg.numbered, FilterArg.counted]
    exact (filterParts parts follows i).map Value.ofChars
      (fun cs => (Value.relabel_ofChars _ cs).symm) fun cs => (Value.relabel_ofChars _ cs).symm

theorem filterParts : (as : List FilterArg) → (∀ e ∈ FilterArg.allExprs as, Follows env eval e) →
    ∀ i, Counts env i (i + countedArgs as) id id (filterParts (eval .handled) as)
      (Eval.filterParts (eval .handled) (numberedArgs as i))
  | [], _, i => by
    rw [numberedArgs, countedArgs]
    exact .pure id id []
  | a :: as, follows, i => by
    rw [numberedArgs, countedArgs, ← Nat.add_assoc]
    have first := filterArg a (fun e member => follows e (List.mem_append_left _ member)) i
    have rest := filterParts as fun e member => follows e (List.mem_append_right _ member)
    exact first.bind fun v => (shown _ _).bind fun cs =>
      (rest _).map (cs ++ ·) (fun _ => rfl) fun _ => rfl

end

theorem filterArgs {args : List FilterArg}
    (each : ∀ e ∈ FilterArg.allExprs args, Follows env eval e) (i : Nat) :
    Counts env i (i + countedArgs args) (List.map (Value.relabel Closure.silenced))
      (List.map (Value.relabel Closure.silenced)) (filterArgs (eval .handled) args)
      (Eval.filterArgs (eval .handled) (numberedArgs args i)) := by
  induction args generalizing i with
  | nil =>
    rw [numberedArgs, countedArgs]
    exact .pure _ _ []
  | cons a args ih =>
    rw [numberedArgs, countedArgs, ← Nat.add_assoc]
    have first := filterArg a (fun e member => each e (List.mem_append_left _ member)) i
    have rest := ih fun e member => each e (List.mem_append_right _ member)
    exact first.bind fun v => (rest _).map (v :: ·) (fun _ => rfl) fun _ => rfl

end Arguments

section Chains

variable (counting : Counting env)
include counting

theorem pipe {calls : List FilterCall}
    (each : ∀ c ∈ calls, ∀ e ∈ FilterArg.allExprs c.args, Follows env eval e) (limit n : Nat)
    (v : Value) (i : Nat) :
    Gives env i (i + countedCalls calls)
      (pipe (eval .handled) limit n (v.relabel Closure.silenced) calls)
      (Eval.pipe (eval .handled) limit n (v.relabel Closure.silenced)
        (numberedCalls calls i)) := by
  induction calls generalizing n v i with
  | nil =>
    rw [numberedCalls, countedCalls]
    cases n <;> exact .pure _ _ v
  | cons c calls ih =>
    obtain ⟨first, rest⟩ := List.forall_mem_cons.1 each
    obtain ⟨name, args⟩ := c
    rw [numberedCalls, countedCalls, ← Nat.add_assoc]
    cases n with
    | zero => exact .halt _
    | succ n =>
      refine .bind_ask ?_
      dsimp only [FilterCall.name, FilterCall.args]
      cases found : env.options.findFilter? name with
      | none => exact .halt _
      | some f =>
        exact (filterArgs first i).bind fun vs =>
          (counting.runFilter found limit v vs _ _ _).bind fun w => ih rest n w _

theorem applyFilters {input : Expr} {calls : List FilterCall} (first : Follows env eval input)
    (each : ∀ c ∈ calls, ∀ e ∈ FilterArg.allExprs c.args, Follows env eval e) (n i : Nat) :
    Gives env i (i + (input.counted + countedCalls calls))
      (applyFilters (eval .handled) n input calls)
      (Eval.applyFilters (eval .handled) n (input.numbered i)
        (numberedCalls calls (i + input.counted))) := by
  rw [← Nat.add_assoc]
  exact (first i).bind fun v => pipe counting each n n v _

theorem island {body : Expr} (inner : Follows env eval body) (n i : Nat) :
    Gives env i (i + body.counted) (island n eval body)
      (Eval.island n eval (body.numbered i)) := by
  refine .bind_ask ?_
  cases env.options.islandFilter? with
  | none => exact inner i
  | some name =>
    have bare : ∀ c ∈ [FilterCall.mk name []], ∀ e ∈ FilterArg.allExprs c.args,
        Follows env eval e := by
      intro c member e inside
      rw [List.mem_singleton.1 member] at inside
      cases inside
    have piped := applyFilters counting inner bare n i
    rw [numberedCalls, numberedCalls, numberedArgs, countedCalls, countedCalls,
      countedArgs] at piped
    cases body with
    | filter input calls => exact inner i
    | call name args =>
      rw [Expr.numbered] at piped ⊢
      by_cases own : name = countedName
      · rw [if_pos own] at piped ⊢
        exact piped
      · rw [if_neg own] at piped ⊢
        exact piped
    | _ => exact piped

end Chains

/-- Functions without counted calls do not count. -/
theorem callClosure (bodies : ∀ body : Expr, body.counted = 0 → Follows env eval body)
    (f : Closure) (args : List Value) (i : Nat) :
    Gives env i i
      (callClosure eval f.silenced (args.map (Value.relabel Closure.silenced)))
      (Eval.callClosure eval f.silenced (args.map (Value.relabel Closure.silenced))) := by
  have none := Closure.counted_silenced f
  refine Counts.inScope ((bodies _ none).silent none i) fun scopes silent => ?_
  refine silentScopes_locals (bind_silent (fun _ member => by cases member) ?_) silent
  intro v member
  obtain ⟨w, -, rfl⟩ := List.mem_map.1 member
  exact Value.silenced_silent w

section Calls

variable (counting : Counting env)
include counting

theorem callBuiltin {name : String} {args : List Expr}
    (bodies : ∀ body : Expr, body.counted = 0 → Follows env eval body)
    (each : ∀ e ∈ args, Follows env eval e)
    (skips : (LazyFunction.ofName? name).isSome → countedAll args = 0) (n i : Nat) :
    Gives env i (i + countedAll args) (callBuiltin n eval name args)
      (Eval.callBuiltin n eval name (numberedAll args i)) := by
  rw [Eval.callBuiltin, Eval.callBuiltin]
  cases lazy : LazyFunction.ofName? name with
  | some f =>
    -- a lazy function may leave arguments out, so there is nothing to count in them
    have none : countedAll args = 0 := skips (by rw [lazy]; rfl)
    have silent (e : Expr) (member : e ∈ args) : e.counted = 0 :=
      Nat.le_zero.1 (none ▸ counted_le_all member)
    have same : numberedAll args i = args :=
      numberedAll_self (fun e member => Expr.numbered_self (silent e member)) i
    have covers : ∀ e ∈ args, (silence env).Covers (fun _ => eval) (fun _ => eval) e e :=
      fun e member => (each e member).silent (silent e member)
    rw [none, same]
    exact Comparison.callLazy (List.forall₂_same.2 covers) f i
  | none =>
    have calls (f : Closure) :
        (silence env).CoversCall (fun _ => eval) (fun _ => eval) f.silenced f.silenced :=
      fun args i => callClosure bodies f args i
    obtain absent | ⟨f, f', found, runs⟩ := Comparison.eager calls
      (fun (_ : name = randomName) _ => Counts.random) fun _ _ _ => rfl
    · simp only [(absent ⟨⟩).1]
      refine .bind_ask ?_
      cases found : env.options.findFilter? name with
      | none => exact .halt _
      | some f =>
        refine (all each i).bind fun vs => ?_
        rw [Argument.orUndefined_relabel, ← List.map_tail]
        exact (counting.runFilter found n _ _ [] [] _).map id (fun _ => rfl) fun _ => rfl
    · simp only [(found ⟨⟩).1]
      have own : f ⟨⟩ = f' ⟨⟩ :=
        Option.some.inj ((found ⟨⟩).1.symm.trans (found ⟨⟩).2)
      refine (all each i).bind fun vs => ?_
      have run : Gives env _ _ (f ⟨⟩ _) (f' ⟨⟩ _) := runs vs (i + countedAll args)
      rw [← own] at run
      exact run

theorem call {name : String} {args : List Expr}
    (bodies : ∀ body : Expr, body.counted = 0 → Follows env eval body)
    (turn : (Expr.call name args).InTurn) (each : ∀ e ∈ args, Follows env eval e) (n i : Nat) :
    Gives env i (i + (Expr.call name args).counted) (call n eval name args)
      (rule n eval ((Expr.call name args).numbered i)) := by
  rw [Expr.numbered, Expr.counted]
  by_cases own : name = countedName
  · obtain rfl := turn.1 own
    rw [if_pos own, if_pos own, countedAll]
    intro m _
    have counts : Eval.call n eval name [] env { m with user := i } =
        (.ok (.number (Float.ofNat (i + 1))), { m with user := i + 1 }) := by
      subst own
      rw [Eval.call, bind_def, ask, counting.functionHandler?, if_pos rfl]
      rfl
    rw [counts]
    exact .ok (Value.number (Float.ofNat (i + 1))) rfl
  · have free : env.options.functionHandler? name = none := by
      rw [counting.functionHandler?, if_neg own]
    rw [if_neg own, if_neg own]
    refine .bind_ask ?_
    rw [free]
    exact callBuiltin counting bodies each turn.2 n i

end Calls

section Nodes

variable {e : Expr}

theorem getter {host key : Expr} (first : Follows env eval host)
    (second : Follows env eval key) (i : Nat) :
    Gives env i (i + (host.counted + key.counted)) (getter eval host key)
      (Eval.getter eval (host.numbered i) (key.numbered (i + host.counted))) := by
  rw [← Nat.add_assoc]
  refine (first i).bind fun h => (second _).bind fun k => ?_
  rw [Value.isNullish_relabel]
  by_cases nullish : h.isNullish = true
  · rw [if_pos nullish, if_pos nullish]
    exact gives_of_silent (Value.relabel_undefined _) _
  · rw [if_neg nullish, if_neg nullish,
      Comparison.keyValue_congr (Expr.ownName?_numbered key (i + host.counted))]
    refine Counts.ask (h.member env.zone (keyValue key k)) ?_ ?_ <;>
      rw [Comparison.keyValue_relabel, Value.member_relabel]

theorem binary {op : BinaryOp} {l r : Expr} (turn : (Expr.binary op l r).InTurn)
    (first : Follows env eval l) (second : Follows env eval r) (i : Nat) :
    Gives env i (i + (l.counted + r.counted)) (binary eval op l r)
      (Eval.binary eval op (l.numbered i) (r.numbered (i + l.counted))) := by
  rw [← Nat.add_assoc]
  refine (first i).bind fun a => ?_
  have own : Gives env (i + l.counted) (i + l.counted) _ _ :=
    .pure (Value.relabel Closure.silenced) (Value.relabel Closure.silenced) a
  have other := second (i + l.counted)
  cases op with
  | and | or =>
    -- the right operand may be left out, so there is nothing to count in it
    rw [show r.counted = 0 from turn, Nat.add_zero] at other ⊢
    dsimp only
    split
    · assumption
    · assumption
  | _ =>
    exact other.bind fun b =>
      Counts.ask _ (BinaryOp.apply_relabel env.zone Closure.silenced_faithful _ a b)
        (BinaryOp.apply_relabel env.zone Closure.silenced_faithful _ a b)

theorem conditional {t c a : Expr} (turn : (Expr.conditional t c a).InTurn)
    (test : Follows env eval t) (yes : Follows env eval c) (no : Follows env eval a) (n i : Nat) :
    Gives env i (i + (Expr.conditional t c a).counted) (rule n eval (.conditional t c a))
      (rule n eval ((Expr.conditional t c a).numbered i)) := by
  obtain ⟨yes_none, no_none⟩ := Nat.add_eq_zero_iff.1 (show c.counted + a.counted = 0 from turn)
  rw [Expr.numbered, Expr.counted, yes_none, no_none, Nat.add_zero, Nat.add_zero,
    Expr.numbered_self yes_none, Expr.numbered_self no_none]
  refine (test i).bind fun v => ?_
  split
  · exact yes.silent yes_none _
  · exact no.silent no_none _

theorem inNamespace (counting : Counting env) {body : Expr} (inner : Follows env eval body)
    (name : String) (i : Nat) :
    Gives env i (i + body.counted) (inNamespace eval name body)
      (Eval.inNamespace eval name (body.numbered i)) := by
  refine .bind_ask ?_
  cases found : env.options.namespaces.lookup name with
  | none => exact .halt _
  | some r =>
    obtain ⟨before, after, split, _⟩ := List.lookup_eq_some_iff.mp found
    exact (inner i).inScope fun _ _ => counting.namespaces (name, r) (by rw [split]; simp)

/-- A node is followed if its parts are. -/
theorem rule (counting : Counting env)
    (bodies : ∀ body : Expr, body.counted = 0 → Follows env eval body) (turn : e.InTurn)
    (parts : ∀ part ∈ e.parts, Follows env eval part) (n i : Nat) :
    Gives env i (i + e.counted) (rule n eval e) (Eval.rule n eval (e.numbered i)) := by
  cases e with
  | document es =>
    rw [Expr.numbered, Expr.counted]
    exact document parts i
  | raw s => exact gives_of_silent (Value.relabel_text _ s) i
  | island body =>
    rw [Expr.numbered, Expr.counted]
    exact island counting (parts body List.mem_cons_self) n i
  | filter input calls =>
    rw [Expr.numbered, Expr.counted]
    refine applyFilters counting (parts input List.mem_cons_self) (fun c member e inside => ?_) n i
    exact parts e (List.mem_cons_of_mem _ (List.mem_flatMap.2 ⟨c, member, inside⟩))
  | template es =>
    rw [Expr.numbered, Expr.counted]
    exact gluedText parts i
  | templateRaw s => exact gives_of_silent (Value.relabel_text _ s) i
  | getter host key =>
    rw [Expr.numbered, Expr.counted]
    exact getter (parts host (by simp [Expr.parts])) (parts key (by simp [Expr.parts])) i
  | unary op e =>
    rw [Expr.numbered, Expr.counted]
    refine (parts e List.mem_cons_self i).bind fun v => Counts.ask (op.apply env.zone v) ?_ ?_ <;>
      exact UnaryOp.apply_relabel _ _ op v
  | binary op l r =>
    rw [Expr.numbered, Expr.counted]
    exact binary turn (parts l (by simp [Expr.parts])) (parts r (by simp [Expr.parts])) i
  | conditional t c a =>
    exact conditional turn (parts t (by simp [Expr.parts])) (parts c (by simp [Expr.parts]))
      (parts a (by simp [Expr.parts])) n i
  | «variable» name => exact gives_lookUp name i
  | inNamespace name body =>
    rw [Expr.numbered, Expr.counted]
    exact inNamespace counting (parts body List.mem_cons_self) name i
  | identifier s => exact gives_of_silent (Value.relabel_text _ s) i
  | literal l => exact gives_of_silent (Value.relabel_ofLiteral _ l) i
  | number x => exact gives_of_silent (Value.relabel_number _ x) i
  | text s => exact gives_of_silent (Value.relabel_text _ s) i
  | array es =>
    rw [Expr.numbered, Expr.counted]
    exact (all parts i).map Value.array (fun vs => (Value.relabel_array _ vs).symm)
      fun vs => (Value.relabel_array _ vs).symm
  | object entries =>
    rw [Expr.numbered, Expr.counted]
    have each (entry : Expr × Expr) (member : entry ∈ entries) :
        Follows env eval entry.1 ∧ Follows env eval entry.2 :=
      ⟨parts _ (List.mem_flatMap.2 ⟨entry, member, by simp⟩),
        parts _ (List.mem_flatMap.2 ⟨entry, member, by simp⟩)⟩
    exact (members each [] i).map Value.object (fun ms => (Value.relabel_object _ ms).symm)
      fun ms => (Value.relabel_object _ ms).symm
  | call name args => exact call counting bodies turn parts n i
  | sequence es =>
    rw [Expr.numbered, Expr.counted]
    exact sequence parts .undefined i
  | function params body =>
    have none : body.counted = 0 := turn
    rw [Expr.numbered, Expr.numbered_self none, Expr.counted, none]
    exact gives_makeFunction turn params i

end Nodes

end Follows

/-- A call and a number take one step each, so the limit is the same for both. -/
theorem follows_within (counting : Counting env) (n : Nat) {e : Expr} (orderly : e.Orderly) :
    Follows env (within n) e := by
  induction n generalizing e with
  | zero => exact fun i => .halt _
  | succ n ih =>
    intro i m silent
    rw [within_builtin (counting.nodeHandler? _), within_builtin (counting.nodeHandler? _)]
    exact Follows.rule counting (fun _ none => ih (Expr.orderly_of_counted_eq_zero none))
      orderly.own (fun _ member => ih (orderly.part member)) n i m silent

/-- Calls of a function that counts them give the numbers that they have in the source, and an
expression that has a value has called it once for each. -/
theorem evaluate_numbered {env : Environment Nat} (counting : Counting env) {e : Expr}
    (orderly : e.Orderly) (limit : Nat) :
    (evaluate limit e env (.start env.clock 0)).1 =
        (evaluate limit (e.numbered 0) env (.start env.clock 0)).1 ∧
      ∀ v m, evaluate limit e env (.start env.clock 0) = (.ok v, m) → m.user = e.counted := by
  have ends := follows_within counting limit orderly 0 (.start env.clock 0)
    (silentScopes_start counting)
  rw [Nat.zero_add] at ends
  change Abreast _ _ _ _ (evaluate limit e env (.start env.clock 0))
    (evaluate limit (e.numbered 0) env (.start env.clock 0)) at ends
  generalize evaluate limit e env (.start env.clock 0) = p at ends
  generalize evaluate limit (e.numbered 0) env (.start env.clock 0) = q at ends
  cases ends with
  | error h m m' => exact ⟨rfl, fun v m h => by cases h⟩
  | ok v kept =>
    refine ⟨rfl, fun w m h => ?_⟩
    cases h
    rfl

/-- The language with a function that counts its calls. -/
def tallied : Options Nat := Options.usual.withHandler "fnCOUNTED" counter

theorem counting_tallied (clock : Calendar.Clock) : Counting ⟨tallied, clock, .object []⟩ where
  handlers := rfl
  filters := fun _ member => by cases member
  namespaces := fun _ member => by cases member
  data := rfl

def countedCall : Expr := .call countedName []

/-- Calls as an item, as the value of a member, as an input and an argument of a filter, and one
behind the other. -/
def sixCalls : Expr :=
  .array [countedCall, .getter (.object [(.text "a", countedCall)]) (.text "a"),
    .filter countedCall [.mk "default" [.expr countedCall]], .sequence [countedCall, countedCall]]

theorem sixCalls_orderly : sixCalls.Orderly := by
  have call : countedCall.Orderly :=
    Expr.orderly_of_parts ⟨fun _ => rfl, fun _ => rfl⟩ fun _ member => by cases member
  have text : (Expr.text "a").Orderly :=
    Expr.orderly_of_parts trivial fun _ member => by cases member
  have object : (Expr.object [(.text "a", countedCall)]).Orderly :=
    Expr.orderly_of_parts trivial (by simp [Expr.parts, text, call])
  refine Expr.orderly_of_parts trivial ?_
  simp only [sixCalls, Expr.parts, List.forall_mem_cons]
  refine ⟨call, ?member, ?filter, ?sequence, by simp⟩
  case member => exact Expr.orderly_of_parts trivial (by simp [Expr.parts, text, object])
  case filter =>
    exact Expr.orderly_of_parts trivial
      (by simp [Expr.parts, FilterCall.args, FilterArg.allExprs, FilterArg.exprs, call])
  case sequence => exact Expr.orderly_of_parts trivial (by simp [Expr.parts, call])

theorem evaluate_numbered_sixCalls :
    sixCalls.Orderly ∧ sixCalls.counted = 6 ∧ ∀ clock,
      let env : Environment Nat := ⟨tallied, clock, .object []⟩
      Counting env ∧ ∃ m, evaluate 5 sixCalls env (.start clock 0) =
        (.ok (.array [.number 1, .number 2, .number 3, .number 6]), m) ∧ m.user = 6 := by
  refine ⟨sixCalls_orderly, rfl, fun clock => ?_⟩
  intro env
  have counting : Counting env := counting_tallied clock
  obtain ⟨same, calls⟩ := evaluate_numbered counting sixCalls_orderly 5
  have value : (evaluate 5 (sixCalls.numbered 0) env (.start clock 0)).1 =
      .ok (.array [.number 1, .number 2, .number 3, .number 6]) := rfl
  have ends : evaluate 5 sixCalls env (.start clock 0) =
      (.ok (.array [.number 1, .number 2, .number 3, .number 6]), _) :=
    Prod.ext (same.trans value) rfl
  exact ⟨counting, _, ends, calls _ _ ends⟩

end Eval

end TemplateFormula
