import TemplateFormula.Expr

/-!
# The height of expressions

Some nodes are parsed without spending depth: operators, members, and islands in the arguments of
filters. `Expr.run` counts them from a node on. A bound on the height of an expression is kept apart
from what its first run adds, so that each such node keeps the bound and every other raises it.
-/

namespace TemplateFormula

section Measures

variable (f : Expr → Nat → Nat)

mutual

/-- A number for every node, from the largest number of its parts. -/
def Expr.measure : Expr → Nat
  | .document parts => f (.document parts) (measureAll parts)
  | .raw text => f (.raw text) 0
  | .island body => f (.island body) body.measure
  | .filter input calls => f (.filter input calls) (max input.measure (measureCalls calls))
  | .template parts => f (.template parts) (measureAll parts)
  | .templateRaw text => f (.templateRaw text) 0
  | .getter host key => f (.getter host key) (max host.measure key.measure)
  | .unary op e => f (.unary op e) e.measure
  | .binary op l r => f (.binary op l r) (max l.measure r.measure)
  | .conditional t c a => f (.conditional t c a) (max t.measure (max c.measure a.measure))
  | .variable name => f (.variable name) 0
  | .inNamespace name body => f (.inNamespace name body) body.measure
  | .identifier name => f (.identifier name) 0
  | .literal v => f (.literal v) 0
  | .number x => f (.number x) 0
  | .text s => f (.text s) 0
  | .array es => f (.array es) (measureAll es)
  | .object ms => f (.object ms) (measureMembers ms)
  | .call name args => f (.call name args) (measureAll args)
  | .sequence es => f (.sequence es) (measureAll es)
  | .function params body => f (.function params body) body.measure

def measureAll : List Expr → Nat
  | [] => 0
  | e :: es => max e.measure (measureAll es)

def measureMembers : List (Expr × Expr) → Nat
  | [] => 0
  | (key, value) :: ms => max (max key.measure value.measure) (measureMembers ms)

def measureCalls : List FilterCall → Nat
  | [] => 0
  | .mk _ args :: calls => max (measureArgs args) (measureCalls calls)

def measureArgs : List FilterArg → Nat
  | [] => 0
  | arg :: args => max arg.measure (measureArgs args)

def FilterArg.measure : FilterArg → Nat
  | .text _ => 0
  | .expr e => e.measure
  | .mixed parts => measureArgs parts

end

end Measures

/-- The number of expressions on the longest path from the root. -/
def Expr.height (e : Expr) : Nat := e.measure fun _ below => below + 1

def FilterArg.height (a : FilterArg) : Nat := a.measure fun _ below => below + 1

mutual

/-- The length of the longest run, from this node on, of nodes that spend no depth: operators,
members behind their hosts, and islands with filters in the arguments of each other's filters. -/
def Expr.run : Expr → Nat
  | .unary _ e => e.run + 1
  | .binary _ l r => max l.run r.run + 1
  | .getter host _ => host.run + 1
  | .island (.filter _ calls) => runCalls calls + 1
  | _ => 0

def runCalls : List FilterCall → Nat
  | [] => 0
  | .mk _ args :: calls => max (runArgs args) (runCalls calls)

def runArgs : List FilterArg → Nat
  | [] => 0
  | arg :: args => max arg.run (runArgs args)

def FilterArg.run : FilterArg → Nat
  | .text _ => 0
  | .expr e => e.run
  | .mixed parts => runArgs parts

end

/-- The length of the longest run of nodes that spend no depth. -/
def Expr.longestRun (e : Expr) : Nat := e.measure fun node below => max node.run below

def FilterArg.longestRun (a : FilterArg) : Nat := a.measure fun node below => max node.run below

section Bounds

variable {f : Expr → Nat → Nat} {n : Nat}

theorem measureAll_le_iff {es : List Expr} :
    measureAll f es ≤ n ↔ ∀ e ∈ es, e.measure f ≤ n := by
  induction es with
  | nil => simp [measureAll]
  | cons e es ih => rw [measureAll, Nat.max_le, ih, List.forall_mem_cons]

theorem measureMembers_le_iff {ms : List (Expr × Expr)} :
    measureMembers f ms ≤ n ↔ ∀ m ∈ ms, m.1.measure f ≤ n ∧ m.2.measure f ≤ n := by
  induction ms with
  | nil => simp [measureMembers]
  | cons m ms ih => rw [measureMembers, Nat.max_le, Nat.max_le, ih, List.forall_mem_cons]

theorem measureArgs_le_iff {args : List FilterArg} :
    measureArgs f args ≤ n ↔ ∀ a ∈ args, a.measure f ≤ n := by
  induction args with
  | nil => simp [measureArgs]
  | cons a args ih => rw [measureArgs, Nat.max_le, ih, List.forall_mem_cons]

theorem measureCalls_le_iff {calls : List FilterCall} :
    measureCalls f calls ≤ n ↔ ∀ c ∈ calls, ∀ a ∈ c.args, a.measure f ≤ n := by
  induction calls with
  | nil => simp [measureCalls]
  | cons c calls ih =>
    obtain ⟨name, args⟩ := c
    rw [measureCalls, Nat.max_le, measureArgs_le_iff, ih, List.forall_mem_cons, FilterCall.args]

theorem run_le_runArgs {args : List FilterArg} {a : FilterArg} (ha : a ∈ args) :
    a.run ≤ runArgs args := by
  induction args with
  | nil => cases ha
  | cons b args ih =>
    rw [runArgs]
    rcases List.mem_cons.1 ha with rfl | ha
    · exact Nat.le_max_left _ _
    · exact Nat.le_trans (ih ha) (Nat.le_max_right _ _)

theorem run_le_runCalls {calls : List FilterCall} {c : FilterCall} (hc : c ∈ calls)
    {a : FilterArg} (ha : a ∈ c.args) : a.run ≤ runCalls calls := by
  induction calls with
  | nil => cases hc
  | cons b calls ih =>
    obtain ⟨name, args⟩ := b
    rw [runCalls]
    rcases List.mem_cons.1 hc with rfl | hc
    · exact Nat.le_trans (run_le_runArgs ha) (Nat.le_max_left _ _)
    · exact Nat.le_trans (ih hc) (Nat.le_max_right _ _)

theorem Expr.run_le_longestRun (e : Expr) : e.run ≤ e.longestRun := by
  cases e <;> exact Nat.le_max_left _ _

end Bounds

/-- The height of an expression, as long as its runs have at most a length. -/
def Expr.Within (length bound : Nat) (e : Expr) : Prop := e.longestRun ≤ length → e.height ≤ bound

/-- The same for a run of nodes, each of which may add two to the height. -/
def Expr.Level (length bound : Nat) (e : Expr) : Prop :=
  e.longestRun ≤ length → e.height ≤ bound + 2 * e.run

def FilterArg.Level (length bound : Nat) (a : FilterArg) : Prop :=
  a.longestRun ≤ length → a.height ≤ bound + 2 * a.run

namespace Expr

variable {length bound bound' : Nat} {e : Expr} {es : List Expr}

theorem Within.mono (h : e.Within length bound) (le : bound ≤ bound') : e.Within length bound' :=
  fun runs => Nat.le_trans (h runs) le

theorem Level.mono (h : e.Level length bound) (le : bound ≤ bound') : e.Level length bound' :=
  fun runs => Nat.le_trans (h runs) (Nat.add_le_add_right le _)

theorem Within.level (h : e.Within length bound) : e.Level length bound :=
  fun runs => Nat.le_trans (h runs) (Nat.le_add_right _ _)

theorem Level.within (h : e.Level length bound) : e.Within length (bound + 2 * length) := by
  intro runs
  have high := h runs
  have short := e.run_le_longestRun
  omega

/-- A node whose parts are a list of expressions. -/
theorem Within.of_all (parts : ∀ f, e.measure f = f e (measureAll f es))
    (h : ∀ e ∈ es, e.Within length bound) : e.Within length (bound + 1) := by
  intro runs
  rw [longestRun, parts] at runs
  rw [height, parts]
  have below := measureAll_le_iff.1 (Nat.max_le.1 runs).2
  exact Nat.succ_le_succ (measureAll_le_iff.2 fun e he => h e he (below e he))

/-- A node with one part. -/
theorem Within.of_one {part : Expr} (only : ∀ f, e.measure f = f e (part.measure f))
    (h : part.Within length bound) : e.Within length (bound + 1) := by
  intro runs
  rw [longestRun, only] at runs
  rw [height, only]
  exact Nat.succ_le_succ (h (Nat.max_le.1 runs).2)

/-- A node without parts. -/
theorem Within.of_none (leaf : ∀ f, e.measure f = f e 0) : e.Within length 1 := by
  intro _
  exact Nat.le_of_eq (leaf _)

theorem Within.object {ms : List (Expr × Expr)}
    (h : ∀ m ∈ ms, m.1.Within length bound ∧ m.2.Within length bound) :
    (Expr.object ms).Within length (bound + 1) := by
  intro runs
  have parts := measureMembers_le_iff.1 (Nat.max_le.1 runs).2
  exact Nat.succ_le_succ <| measureMembers_le_iff.2 fun m hm =>
    ⟨(h m hm).1 (parts m hm).1, (h m hm).2 (parts m hm).2⟩

theorem Within.conditional {t c a : Expr} (ht : t.Within length bound)
    (hc : c.Within length bound) (ha : a.Within length bound) :
    (Expr.conditional t c a).Within length (bound + 1) := by
  intro runs
  obtain ⟨test, branches⟩ := Nat.max_le.1 (Nat.max_le.1 runs).2
  obtain ⟨consequent, alternate⟩ := Nat.max_le.1 branches
  exact Nat.succ_le_succ <| Nat.max_le.2 ⟨ht test, Nat.max_le.2 ⟨hc consequent, ha alternate⟩⟩

theorem Level.unary {op : UnaryOp} (h : e.Level length bound) :
    (Expr.unary op e).Level length bound := by
  intro runs
  have part := h (Nat.max_le.1 runs).2
  simp only [height, measure, run] at part ⊢
  omega

theorem Level.binary {op : BinaryOp} {l r : Expr} (hl : l.Level length bound)
    (hr : r.Level length bound) : (Expr.binary op l r).Level length bound := by
  intro runs
  obtain ⟨left, right⟩ := Nat.max_le.1 (Nat.max_le.1 runs).2
  have left := hl left
  have right := hr right
  simp only [height, measure, run] at left right ⊢
  omega

theorem Level.getter {host key : Expr} (hh : host.Level length bound)
    (hk : key.Within length bound) : (Expr.getter host key).Level length bound := by
  intro runs
  obtain ⟨inHost, inKey⟩ := Nat.max_le.1 (Nat.max_le.1 runs).2
  have inHost := hh inHost
  have inKey := hk inKey
  simp only [height, measure, run] at inHost inKey ⊢
  omega

end Expr

namespace FilterArg

variable {length bound : Nat} {args : List FilterArg}

theorem level_text (s : String) : (text s).Level length bound := fun _ => Nat.zero_le _

theorem Level.mixed (h : ∀ a ∈ args, a.Level length bound) : (mixed args).Level length bound := by
  intro runs
  refine measureArgs_le_iff.2 fun a ha => Nat.le_trans (h a ha (measureArgs_le_iff.1 runs a ha)) ?_
  exact Nat.add_le_add_left (Nat.mul_le_mul_left 2 (run_le_runArgs ha)) _

end FilterArg

/-- An island that pipes its contents through filters. -/
theorem Expr.Level.piped {length bound : Nat} {e : Expr} {calls : List FilterCall}
    (he : e.Within length bound) (h : ∀ c ∈ calls, ∀ a ∈ c.args, a.Level length bound) :
    (Expr.island (.filter e calls)).Level length bound := by
  intro runs
  obtain ⟨input, args⟩ := Nat.max_le.1 (Nat.max_le.1 (Nat.max_le.1 runs).2).2
  have input := he input
  have args : measureCalls (fun _ below => below + 1) calls ≤ bound + 2 * runCalls calls := by
    refine measureCalls_le_iff.2 fun c hc a ha => ?_
    exact Nat.le_trans (h c hc a ha (measureCalls_le_iff.1 args c hc a ha))
      (Nat.add_le_add_left (Nat.mul_le_mul_left 2 (run_le_runCalls hc ha)) _)
  simp only [height, measure, run] at input ⊢
  omega

end TemplateFormula
