import TemplateFormula.Evaluation.Call
import TemplateFormula.Proofs.Expr.Layer

/-!
# Numbered calls

The calls of one function in an expression are numbered in the order of the source: the host of a
member comes before its key, a key before its value, and the input of a filter before the arguments,
which come before the next filter. A call and a number take the same place in a tree, so an
expression with numbers in the places of the calls is an expression again.
-/

namespace TemplateFormula

/-- The name of the function whose calls are numbered. -/
def countedName : String := "COUNTED"

mutual

/-- How many calls of the counted function there are. -/
def Expr.counted : Expr → Nat
  | .document es => countedAll es
  | .island e => e.counted
  | .filter input calls => input.counted + countedCalls calls
  | .template es => countedAll es
  | .getter host key => host.counted + key.counted
  | .unary _ e => e.counted
  | .binary _ l r => l.counted + r.counted
  | .conditional t c a => t.counted + (c.counted + a.counted)
  | .inNamespace _ e => e.counted
  | .array es => countedAll es
  | .object ms => countedMembers ms
  | .call name args => if name = countedName then countedAll args + 1 else countedAll args
  | .sequence es => countedAll es
  | .function _ body => body.counted
  | _ => 0

def countedAll : List Expr → Nat
  | [] => 0
  | e :: es => e.counted + countedAll es

def countedMembers : List (Expr × Expr) → Nat
  | [] => 0
  | (key, value) :: ms => key.counted + (value.counted + countedMembers ms)

def countedCalls : List FilterCall → Nat
  | [] => 0
  | .mk _ args :: calls => countedArgs args + countedCalls calls

def countedArgs : List FilterArg → Nat
  | [] => 0
  | arg :: args => arg.counted + countedArgs args

def FilterArg.counted : FilterArg → Nat
  | .text _ => 0
  | .expr e => e.counted
  | .mixed parts => countedArgs parts

end

mutual

/-- The expression with numbers in the places of the calls of the counted function. The first is
the next after `i`. -/
def Expr.numbered : Expr → Nat → Expr
  | .document es, i => .document (numberedAll es i)
  | .island e, i => .island (e.numbered i)
  | .filter input calls, i =>
    .filter (input.numbered i) (numberedCalls calls (i + input.counted))
  | .template es, i => .template (numberedAll es i)
  | .getter host key, i => .getter (host.numbered i) (key.numbered (i + host.counted))
  | .unary op e, i => .unary op (e.numbered i)
  | .binary op l r, i => .binary op (l.numbered i) (r.numbered (i + l.counted))
  | .conditional t c a, i =>
    .conditional (t.numbered i) (c.numbered (i + t.counted))
      (a.numbered (i + t.counted + c.counted))
  | .inNamespace name e, i => .inNamespace name (e.numbered i)
  | .array es, i => .array (numberedAll es i)
  | .object ms, i => .object (numberedMembers ms i)
  | .call name args, i =>
    if name = countedName then .number (Float.ofNat (i + 1)) else .call name (numberedAll args i)
  | .sequence es, i => .sequence (numberedAll es i)
  | .function params body, i => .function params (body.numbered i)
  | e, _ => e

def numberedAll : List Expr → Nat → List Expr
  | [], _ => []
  | e :: es, i => e.numbered i :: numberedAll es (i + e.counted)

def numberedMembers : List (Expr × Expr) → Nat → List (Expr × Expr)
  | [], _ => []
  | (key, value) :: ms, i =>
    (key.numbered i, value.numbered (i + key.counted)) ::
      numberedMembers ms (i + key.counted + value.counted)

def numberedCalls : List FilterCall → Nat → List FilterCall
  | [], _ => []
  | .mk name args :: calls, i =>
    .mk name (numberedArgs args i) :: numberedCalls calls (i + countedArgs args)

def numberedArgs : List FilterArg → Nat → List FilterArg
  | [], _ => []
  | arg :: args, i => arg.numbered i :: numberedArgs args (i + arg.counted)

def FilterArg.numbered : FilterArg → Nat → FilterArg
  | .text s, _ => .text s
  | .expr e, i => .expr (e.numbered i)
  | .mixed parts, i => .mixed (numberedArgs parts i)

end

section Parts

variable {e part : Expr} {es : List Expr} {ms : List (Expr × Expr)} {calls : List FilterCall}

theorem counted_le_all (member : e ∈ es) : e.counted ≤ countedAll es := by
  induction es with
  | nil => cases member
  | cons d es ih =>
    rw [countedAll]
    obtain rfl | member := List.mem_cons.1 member
    · omega
    · have below := ih member
      omega

theorem counted_le_members {m : Expr × Expr} (member : m ∈ ms) :
    m.1.counted + m.2.counted ≤ countedMembers ms := by
  induction ms with
  | nil => cases member
  | cons d ms ih =>
    obtain ⟨key, value⟩ := d
    rw [countedMembers]
    obtain rfl | member := List.mem_cons.1 member
    · dsimp only
      omega
    · have below := ih member
      omega

mutual

theorem FilterArg.counted_le : (a : FilterArg) → ∀ e ∈ a.exprs, e.counted ≤ a.counted
  | .text _, _, member => by cases member
  | .expr _, _, member => by
    obtain rfl := List.mem_singleton.1 member
    simp only [FilterArg.counted, Nat.le_refl]
  | .mixed parts, e, member => by
    rw [FilterArg.counted]
    exact counted_le_args parts e member

theorem FilterArg.counted_le_args : (as : List FilterArg) → ∀ e ∈ allExprs as,
    e.counted ≤ countedArgs as
  | [], _, member => by cases member
  | a :: as, e, member => by
    rw [countedArgs]
    obtain member | member := List.mem_append.1 member
    · have below := counted_le a e member
      omega
    · have below := counted_le_args as e member
      omega

end

theorem counted_le_calls {c : FilterCall} (member : c ∈ calls) :
    countedArgs c.args ≤ countedCalls calls := by
  induction calls with
  | nil => cases member
  | cons d calls ih =>
    obtain ⟨name, args⟩ := d
    rw [countedCalls]
    obtain rfl | member := List.mem_cons.1 member
    · exact Nat.le_add_right _ _
    · have below := ih member
      omega

namespace Expr

theorem counted_le_of_mem_parts (member : part ∈ e.parts) : part.counted ≤ e.counted := by
  cases e with
  | document es | template es | array es | sequence es =>
    rw [counted]
    exact counted_le_all member
  | call name es =>
    have below : part.counted ≤ countedAll es := counted_le_all member
    rw [counted]
    split <;> omega
  | island e | unary _ e | inNamespace _ e | function _ e =>
    obtain rfl := List.mem_singleton.1 member
    simp only [counted, Nat.le_refl]
  | filter input calls =>
    rw [counted]
    obtain rfl | member := List.mem_cons.1 member
    · omega
    · obtain ⟨c, inside, member⟩ := List.mem_flatMap.1 member
      have below := FilterArg.counted_le_args c.args part member
      have above := counted_le_calls inside
      omega
  | getter a b | binary _ a b =>
    simp only [parts, List.mem_cons, List.not_mem_nil, or_false] at member
    rw [counted]
    rcases member with rfl | rfl <;> omega
  | conditional a b c =>
    simp only [parts, List.mem_cons, List.not_mem_nil, or_false] at member
    rw [counted]
    rcases member with rfl | rfl | rfl <;> omega
  | object entries =>
    obtain ⟨m, inside, member⟩ := List.mem_flatMap.1 member
    have below := counted_le_members inside
    simp only [List.mem_cons, List.not_mem_nil, or_false] at member
    rw [counted]
    rcases member with rfl | rfl <;> omega
  | _ => cases member

end Expr

end Parts

section Same

theorem numberedAll_self {es : List Expr} (each : ∀ e ∈ es, ∀ i, e.numbered i = e) (i : Nat) :
    numberedAll es i = es := by
  induction es generalizing i with
  | nil => rw [numberedAll]
  | cons e es ih =>
    obtain ⟨first, rest⟩ := List.forall_mem_cons.1 each
    rw [numberedAll, first, ih rest]

theorem numberedMembers_self {ms : List (Expr × Expr)}
    (each : ∀ m ∈ ms, ∀ i, m.1.numbered i = m.1 ∧ m.2.numbered i = m.2) (i : Nat) :
    numberedMembers ms i = ms := by
  induction ms generalizing i with
  | nil => rw [numberedMembers]
  | cons m ms ih =>
    obtain ⟨first, rest⟩ := List.forall_mem_cons.1 each
    rw [numberedMembers, (first _).1, (first _).2, ih rest]

mutual

theorem FilterArg.numbered_self : (a : FilterArg) → (∀ e ∈ a.exprs, ∀ i, e.numbered i = e) →
    ∀ i, a.numbered i = a
  | .text _, _, _ => by rw [FilterArg.numbered]
  | .expr e, same, i => by rw [FilterArg.numbered, same e List.mem_cons_self]
  | .mixed parts, same, i => by rw [FilterArg.numbered, numberedArgs_self parts same]

theorem FilterArg.numberedArgs_self : (as : List FilterArg) →
    (∀ e ∈ allExprs as, ∀ i, e.numbered i = e) → ∀ i, numberedArgs as i = as
  | [], _, _ => by rw [numberedArgs]
  | a :: as, same, i => by
    rw [numberedArgs, numbered_self a fun e member => same e (List.mem_append_left _ member),
      numberedArgs_self as fun e member => same e (List.mem_append_right _ member)]

end

theorem numberedCalls_self {calls : List FilterCall}
    (each : ∀ c ∈ calls, ∀ i, numberedArgs c.args i = c.args) (i : Nat) :
    numberedCalls calls i = calls := by
  induction calls generalizing i with
  | nil => rw [numberedCalls]
  | cons c calls ih =>
    obtain ⟨first, rest⟩ := List.forall_mem_cons.1 each
    obtain ⟨name, args⟩ := c
    rw [numberedCalls, ih rest]
    exact congrArg (FilterCall.mk name · :: calls) (first i)

/-- A name that stands for itself where it is not defined is not numbered. -/
theorem Expr.ownName?_numbered (key : Expr) (i : Nat) :
    (key.numbered i).ownName? = key.ownName? := by
  cases key with
  | call name args =>
    rw [numbered]
    split <;> rfl
  | _ => rfl

/-- Without calls there is nothing to number. -/
theorem Expr.numbered_self {e : Expr} (none : e.counted = 0) (i : Nat) : e.numbered i = e := by
  refine of_parts (P := fun e => e.counted = 0 → ∀ i, e.numbered i = e) (fun e ih none i => ?_)
    e none i
  have each (part : Expr) (member : part ∈ e.parts) : ∀ i, part.numbered i = part :=
    ih part member (Nat.le_zero.1 (none ▸ counted_le_of_mem_parts member))
  cases e with
  | document es | template es | array es | sequence es =>
    rw [numbered]
    exact congrArg _ (numberedAll_self each i)
  | call name es =>
    rw [counted] at none
    have other : name ≠ countedName := by
      rintro rfl
      simp at none
    rw [numbered, if_neg other]
    exact congrArg _ (numberedAll_self each i)
  | island e | unary _ e | inNamespace _ e | function _ e =>
    rw [numbered, each e List.mem_cons_self]
  | filter input calls =>
    rw [numbered, each input List.mem_cons_self, numberedCalls_self fun c member =>
      FilterArg.numberedArgs_self c.args fun e inside => each e ?_]
    exact List.mem_cons_of_mem _ (List.mem_flatMap.2 ⟨c, member, inside⟩)
  | getter a b | binary _ a b =>
    rw [numbered, each a (by simp [parts]), each b (by simp [parts])]
  | conditional a b c =>
    rw [numbered, each a (by simp [parts]), each b (by simp [parts]), each c (by simp [parts])]
  | object entries =>
    rw [numbered, numberedMembers_self fun m member i => ⟨each _ ?_ i, each _ ?_ i⟩]
    all_goals exact List.mem_flatMap.2 ⟨m, member, by simp⟩
  | _ => rfl

end Same

namespace Expr

/-- A node whose counted calls take their turns: what it may leave out has none, and they have no
arguments. -/
def InTurn : Expr → Prop
  | binary .and _ r | binary .or _ r => r.counted = 0
  | conditional _ c a => c.counted + a.counted = 0
  | call name args =>
    (name = countedName → args = []) ∧
      ((LazyFunction.ofName? name).isSome → countedAll args = 0)
  | function _ body => body.counted = 0
  | _ => True

/-- All nodes evaluate the counted calls in them, in the order of the source. -/
def Orderly (e : Expr) : Prop := ∀ node, e.Contains node → node.InTurn

variable {e inner : Expr}

theorem Orderly.own (h : e.Orderly) : e.InTurn := h e (.here e)

theorem Orderly.part (h : e.Orderly) (member : inner ∈ e.parts) : inner.Orderly :=
  fun node inside => h node (.inside member inside)

theorem orderly_of_parts (own : e.InTurn) (parts : ∀ inner ∈ e.parts, inner.Orderly) : e.Orderly :=
  forall_contains own parts

/-- Without counted calls there is nothing to leave out. -/
theorem inTurn_of_counted_eq_zero (none : e.counted = 0) : e.InTurn := by
  cases e with
  | binary op l r =>
    rw [counted] at none
    cases op with
    | and | or => exact (Nat.add_eq_zero_iff.1 none).2
    | _ => trivial
  | conditional t c a =>
    rw [counted] at none
    exact (Nat.add_eq_zero_iff.1 none).2
  | call name args =>
    rw [counted] at none
    by_cases own : name = countedName
    · rw [if_pos own] at none
      cases none
    · rw [if_neg own] at none
      exact ⟨fun same => absurd same own, fun _ => none⟩
  | function params body =>
    rw [counted] at none
    exact none
  | _ => trivial

theorem orderly_of_counted_eq_zero (none : e.counted = 0) : e.Orderly :=
  of_parts (P := fun e => e.counted = 0 → e.Orderly)
    (fun _ ih none => orderly_of_parts (inTurn_of_counted_eq_zero none) fun part member =>
      ih part member (Nat.le_zero.1 (none ▸ counted_le_of_mem_parts member)))
    e none

end Expr

end TemplateFormula
