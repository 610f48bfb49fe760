import TemplateFormula.Proofs.Parsing.Precedence

/-!
# Depth bounds height

Whatever a parser for nested goals accepts, the parsers around it add a bounded number of nodes to
it, apart from runs of nodes that spend no depth.
-/

namespace TemplateFormula

namespace Parser

/-- Whatever a parser returns satisfies a predicate. -/
def Yields {α : Type} (p : Parser α) (P : α → Prop) : Prop := ∀ c a c', p c = .ok (a, c') → P a

/-- The same for parsers that may not match. -/
abbrev Finds {α : Type} (p : Parser (Option α)) (P : α → Prop) : Prop :=
  Yields p fun r => ∀ a ∈ r, P a

namespace Yields

variable {α β : Type} {P : α → Prop} {Q : β → Prop} {p p' : Parser α} {f : α → Parser β}

theorem of_pure {a : α} (h : P a) : Yields (pure a) P := by
  rintro c _ _ ⟨⟩
  exact h

theorem of_none : Finds (pure none) P := .of_pure (by simp)

theorem of_some {a : α} (h : P a) : Finds (pure (some a)) P := .of_pure (by simpa using h)

theorem bind (hp : Yields p P) (hf : ∀ a, P a → Yields (f a) Q) : Yields (p >>= f) Q := by
  intro c b c' h
  simp only [Bind.bind, StateT.bind, Except.bind] at h
  rcases hr : p c with e | ⟨a, c₁⟩
  · simp [hr] at h
  · rw [hr] at h
    exact hf a (hp c a c₁ hr) c₁ b c' h

theorem bind_any (hf : ∀ a, Yields (f a) Q) : Yields (p >>= f) Q :=
  bind (P := fun _ => True) (fun _ _ _ _ => trivial) fun a _ => hf a

theorem map {g : α → β} (hp : Yields p P) (hg : ∀ a, P a → Q (g a)) :
    Yields (p >>= fun a => pure (g a)) Q :=
  hp.bind fun a ha => .of_pure (hg a ha)

theorem imp {P' : α → Prop} {p : Parser (Option α)} (h : Finds p P) (imp : ∀ a, P a → P' a) :
    Finds p P' :=
  fun c r c' ok a ha => imp a (h c r c' ok a ha)

theorem leveled {length bound bound' : Nat} {p : Parser (Option Expr)} (le : bound ≤ bound')
    (h : Finds p (Expr.Within length bound)) : Finds p (Expr.Level length bound') :=
  Yields.imp h fun _ he => (he.mono le).level

theorem of_fatal : Yields fatal P := bind_any fun _ _ _ _ h => nomatch h

theorem of_tooDeep : Yields tooDeep P := bind_any fun _ _ _ _ h => nomatch h

theorem branch {b : Bool} (hp : Yields p P) (hp' : Yields p' P) :
    Yields (if b then p else p') P := by
  cases b
  · exact hp'
  · exact hp

theorem required {p : Parser (Option α)} (h : Finds p P) : Yields (required p) P := by
  refine h.bind fun r hr => ?_
  cases r with
  | none => exact of_fatal
  | some a => exact of_pure (hr a rfl)

theorem firstOf {P : Expr → Prop} {ps : List (Parser (Option Expr))} (h : ∀ p ∈ ps, Finds p P) :
    Finds (firstOf ps) P := by
  induction ps with
  | nil => exact of_none
  | cons p ps ih =>
    refine (h p (List.mem_cons_self ..)).bind fun r hr => ?_
    cases r with
    | none => exact ih fun q hq => h q (List.mem_cons_of_mem _ hq)
    | some e => exact of_pure hr

theorem attempt {p : Parser (Option α)} (h : Finds p P) : Finds (attempt p) P := by
  refine bind_any fun start => h.bind fun r hr => ?_
  cases r with
  | none => exact bind_any fun _ => of_none
  | some a => exact of_pure hr

end Yields

open Yields

section Parts

variable {length bound : Nat} {nested : Nested}
  (inner : ∀ g, Finds (nested g) (Expr.Within length bound))

theorem literal_finds : Finds literal (Expr.Within length 1) := by
  refine bind_any fun k => ?_
  cases k <;> first | exact of_none | exact bind_any fun _ => of_some (.of_none fun _ => rfl)

theorem number_finds : Finds number (Expr.Within length 1) := by
  refine bind_any fun k => ?_
  cases k <;> first | exact of_none | exact bind_any fun _ => of_some (.of_none fun _ => rfl)

theorem text_finds : Finds text (Expr.Within length 1) := by
  refine bind_any fun k => ?_
  cases k <;> first | exact of_none | exact bind_any fun _ => of_some (.of_none fun _ => rfl)

theorem identifier_finds : Finds identifier (Expr.Within length 1) := by
  refine bind_any fun t => ?_
  split <;> first | exact of_none | exact bind_any fun _ => of_some (.of_none fun _ => rfl)

include inner

theorem expression_yields : Yields (expression nested) (Expr.Within length bound) :=
  (inner .expression).required

theorem members_yields (closing : String) (n : Nat) :
    Yields (members nested closing n) fun es => ∀ e ∈ es, e.Within length bound := by
  induction n with
  | zero => exact of_pure (by simp)
  | succ n ih =>
    refine (expression_yields inner).bind fun e he => ?_
    refine bind_any fun _ => branch (bind_any fun _ => ih.map fun es hes => ?_) ?_
    · exact List.forall_mem_cons.2 ⟨he, hes⟩
    · refine bind_any fun _ => branch (bind_any fun _ => of_pure ?_) of_fatal
      exact List.forall_mem_singleton.2 he

theorem list_finds (opening closing : String) :
    Finds (list nested opening closing) fun es => ∀ e ∈ es, e.Within length bound := by
  refine bind_any fun _ => branch (bind_any fun _ => ?_) of_none
  refine bind_any fun _ => branch (bind_any fun _ => of_some (by simp)) ?_
  refine bind_any fun n => (members_yields inner closing n).map fun es hes => ?_
  rintro _ ⟨⟩
  exact hes

theorem array_finds : Finds (array nested) (Expr.Within length (bound + 1)) := by
  refine (list_finds inner "[" "]").map fun r hr => ?_
  cases r with
  | none => simp
  | some es =>
    rintro _ ⟨⟩
    exact .of_all (fun _ => rfl) (hr es rfl)

theorem parenthesized_finds : Finds (parenthesized nested) (Expr.Within length (bound + 1)) := by
  refine (list_finds inner "(" ")").bind fun r hr => ?_
  match r, hr with
  | none, _ => exact of_none
  | some [e], hr => exact of_some ((hr [e] rfl e (by simp)).mono (Nat.le_succ _))
  | some [], hr => exact of_some (.of_all (fun _ => rfl) (hr [] rfl))
  | some (e :: e' :: es), hr => exact of_some (.of_all (fun _ => rfl) (hr _ rfl))

theorem objectKey_yields : Yields (objectKey nested) (Expr.Within length (bound + 1)) := by
  have leaf {p : Parser (Option Expr)} (h : Finds p (Expr.Within length 1)) :
      Finds p (Expr.Within length (bound + 1)) :=
    Yields.imp h fun _ he => he.mono (Nat.le_add_left _ _)
  have bracketed : Finds (bracketed nested) (Expr.Within length (bound + 1)) := by
    refine bind_any fun _ => branch (bind_any fun _ => ?_) of_none
    refine (expression_yields inner).bind fun e he => bind_any fun _ => of_some ?_
    exact he.mono (Nat.le_succ _)
  refine (Yields.firstOf fun p hp => ?_).required
  simp only [List.mem_cons, List.not_mem_nil, or_false] at hp
  rcases hp with rfl | rfl | rfl | rfl
  · exact leaf identifier_finds
  · exact leaf text_finds
  · exact leaf number_finds
  · exact bracketed

theorem objectMembers_yields (n : Nat) :
    Yields (objectMembers nested n) fun ms =>
      ∀ m ∈ ms, m.1.Within length (bound + 1) ∧ m.2.Within length (bound + 1) := by
  induction n with
  | zero => exact of_pure (by simp)
  | succ n ih =>
    refine (objectKey_yields inner).bind fun key hkey => bind_any fun _ => ?_
    refine (expression_yields inner).bind fun e he => ?_
    have member := And.intro hkey (he.mono (Nat.le_succ _))
    refine bind_any fun _ => branch (bind_any fun _ => ih.map fun ms hms => ?_) ?_
    · exact List.forall_mem_cons.2 ⟨member, hms⟩
    · refine bind_any fun _ => branch (bind_any fun _ => of_pure ?_) of_fatal
      exact List.forall_mem_singleton.2 member

theorem object_finds : Finds (object nested) (Expr.Within length (bound + 2)) := by
  refine bind_any fun _ => branch (bind_any fun _ => ?_) of_none
  refine bind_any fun _ => branch (bind_any fun _ => of_some (.object (by simp))) ?_
  refine bind_any fun n => (objectMembers_yields inner n).map fun ms hms => ?_
  rintro _ ⟨⟩
  exact .object hms

theorem templateParts_yields (n : Nat) :
    Yields (templateParts nested n) fun es => ∀ e ∈ es, e.Within length (bound + 1) := by
  induction n with
  | zero => exact of_pure (by simp)
  | succ n ih =>
    refine bind_any fun _ => branch (bind_any fun _ => of_pure (by simp)) (bind_any fun k => ?_)
    split
    · refine bind_any fun _ => (expression_yields inner).bind fun e he => ?_
      refine bind_any fun _ => branch (bind_any fun _ => ih.map fun es hes => ?_) of_fatal
      exact List.forall_mem_cons.2 ⟨he.mono (Nat.le_succ _), hes⟩
    · refine bind_any fun _ => ih.map fun es hes => List.forall_mem_cons.2 ⟨?_, hes⟩
      exact .mono (.of_none fun _ => rfl) (Nat.le_add_left _ _)
    · exact of_fatal

theorem template_finds : Finds (template nested) (Expr.Within length (bound + 2)) := by
  refine bind_any fun _ => branch (bind_any fun _ => ?_) of_none
  refine bind_any fun n => (templateParts_yields inner n).map fun es hes => ?_
  rintro _ ⟨⟩
  exact .of_all (fun _ => rfl) hes

end Parts

section Arguments

variable {length bound : Nat}

theorem addText_level {s : String} {parts : List FilterArg}
    (h : ∀ a ∈ parts, a.Level length bound) : ∀ a ∈ addText s parts, a.Level length bound := by
  have text (s : String) : (FilterArg.text s).Level length bound := FilterArg.level_text s
  fun_cases addText s parts with
  | case1 t parts =>
    exact List.forall_mem_cons.2 ⟨text _, (List.forall_mem_cons.1 h).2⟩
  | case2 => exact List.forall_mem_cons.2 ⟨text _, h⟩

theorem trimLast_level {parts : List FilterArg} (h : ∀ a ∈ parts, a.Level length bound) :
    ∀ a ∈ trimLast parts, a.Level length bound := by
  fun_cases trimLast parts with
  | case1 t parts kept =>
    exact (List.forall_mem_cons.1 h).2
  | case2 t parts kept =>
    exact List.forall_mem_cons.2 ⟨FilterArg.level_text _, (List.forall_mem_cons.1 h).2⟩
  | case3 => exact h

theorem argument_level {parts : List FilterArg} (h : ∀ a ∈ parts, a.Level length bound) :
    (argument parts).Level length bound := by
  have trimmed := trimLast_level h
  unfold argument
  split
  · exact FilterArg.level_text _
  · next part heq => exact trimmed part (by simp [heq])
  · next several _ _ => exact .mixed fun a ha => trimmed a (List.mem_reverse.1 ha)

variable {nested : Nested} {island : Parser (Option Expr)}
  (inner : ∀ g, Finds (nested g) (Expr.Within length bound))
  (islands : Finds island (Expr.Level length (bound + 2)))
include inner islands

theorem argumentValue_finds :
    Finds (argumentValue nested island) (Expr.Level length (bound + 2)) := by
  refine Yields.firstOf fun p hp => ?_
  simp only [List.mem_cons, List.not_mem_nil, or_false] at hp
  rcases hp with rfl | rfl | rfl | rfl | rfl | rfl | rfl
  · exact Yields.leveled (by omega) literal_finds
  · exact Yields.leveled (by omega) number_finds
  · exact Yields.leveled (by omega) text_finds
  · exact Yields.leveled (by omega) (template_finds inner)
  · exact Yields.leveled (by omega) (array_finds inner)
  · exact islands
  · exact Yields.leveled (by omega) (object_finds inner)

theorem argumentParts_yields (n : Nat) (parts : List FilterArg)
    (h : ∀ a ∈ parts, a.Level length (bound + 2)) :
    Yields (argumentParts nested island n parts) fun parts =>
      ∀ a ∈ parts, a.Level length (bound + 2) := by
  induction n generalizing parts with
  | zero => exact of_pure h
  | succ n ih =>
    refine bind_any fun _ => branch (of_pure h) ?_
    refine (argumentValue_finds inner islands).bind fun r hr => ?_
    cases r with
    | some e => exact ih _ (List.forall_mem_cons.2 ⟨hr e rfl, h⟩)
    | none => exact bind_any fun _ => branch (bind_any fun _ => ih _ (addText_level h)) of_fatal

theorem arguments_yields (n : Nat) :
    Yields (arguments nested island n) fun args =>
      ∀ a ∈ args, a.Level length (bound + 2) := by
  induction n with
  | zero => exact of_pure (by simp)
  | succ n ih =>
    refine bind_any fun _ => branch (bind_any fun _ => bind_any fun _ => ?_) (of_pure (by simp))
    refine bind_any fun _ => (argumentParts_yields inner islands _ [] (by simp)).bind ?_
    intro parts hparts
    exact ih.map fun args hargs => List.forall_mem_cons.2 ⟨argument_level hparts, hargs⟩

theorem filterCalls_yields (n : Nat) :
    Yields (filterCalls nested island n) fun calls =>
      ∀ c ∈ calls, ∀ a ∈ c.args, a.Level length (bound + 2) := by
  induction n with
  | zero => exact of_pure (by simp)
  | succ n ih =>
    refine bind_any fun _ => branch (bind_any fun _ => bind_any fun _ => ?_) (of_pure (by simp))
    refine bind_any fun name => bind_any fun _ => bind_any fun _ => ?_
    refine (arguments_yields inner islands _).bind fun args hargs => ?_
    exact ih.map fun calls hcalls => List.forall_mem_cons.2 ⟨hargs, hcalls⟩

theorem islandWith_finds : Finds (islandWith nested island) (Expr.Level length (bound + 2)) := by
  have contents : Finds (piped nested island) fun e =>
      (Expr.island e).Level length (bound + 2) := by
    refine (inner .expression).bind fun r hr => ?_
    cases r with
    | none => exact of_none
    | some e =>
      have he : e.Within length bound := hr e rfl
      refine bind_any fun n => (filterCalls_yields inner islands n).bind fun calls hcalls => ?_
      cases calls with
      | nil => exact of_some (((Expr.Within.of_one (fun _ => rfl) he).mono (Nat.le_succ _)).level)
      | cons call calls => exact of_some (.piped (he.mono (Nat.le_add_right _ _)) hcalls)
  refine bind_any fun _ => branch (bind_any fun _ => ?_) of_none
  refine contents.required.bind fun body hbody => ?_
  exact bind_any fun _ => branch (bind_any fun _ => of_some hbody) of_fatal

end Arguments

section Documents

variable {length : Nat}

theorem scanKeys_within (n : Nat) (current cs : List Char) :
    ∀ key ∈ DollarPath.scanKeys n current cs, key.Within length 1 := by
  have flush (current : List Char) : ∀ key ∈ DollarPath.flush current, key.Within length 1 := by
    unfold DollarPath.flush
    split
    · simp
    · exact List.forall_mem_singleton.2 (.of_none fun _ => rfl)
  have bracketKey (key : List Char) : (DollarPath.bracketKey key).Within length 1 := by
    unfold DollarPath.bracketKey
    split <;> exact .of_none fun _ => rfl
  fun_induction DollarPath.scanKeys n current cs with
  | case1 => exact flush _
  | case2 => exact flush _
  | case3 n current cs ih => exact List.forall_mem_append.2 ⟨flush _, ih⟩
  | case4 n current cs ih =>
    exact List.forall_mem_append.2 ⟨flush _, List.forall_mem_cons.2 ⟨bracketKey _, ih⟩⟩
  | case5 n current c cs _ _ ih => exact ih

theorem foldl_getter_level {host : Expr} {keys : List Expr} (hh : host.Level length 1)
    (hk : ∀ key ∈ keys, key.Within length 1) : (keys.foldl .getter host).Level length 1 := by
  induction keys generalizing host with
  | nil => exact hh
  | cons key keys ih =>
    obtain ⟨first, rest⟩ := List.forall_mem_cons.1 hk
    exact ih (hh.getter first) rest

theorem expand_level (path : String) : (DollarPath.expand path).Level length 1 := by
  have keys : ∀ key ∈ DollarPath.scanKeys path.toList.length [] path.toList, key.Within length 1 :=
    scanKeys_within _ _ _
  have name (s : String) : (Expr.variable s).Level length 1 :=
    Expr.Within.level (.of_none fun _ => rfl)
  unfold DollarPath.expand
  split
  · exact name _
  · next heq =>
    rw [heq] at keys
    exact foldl_getter_level (name _) (List.forall_mem_cons.1 keys).2
  · next heq =>
    rw [heq] at keys
    obtain ⟨first, rest⟩ := List.forall_mem_cons.1 keys
    exact foldl_getter_level ((name "&").getter first) rest

theorem rawText_finds : Finds rawText (Expr.Within length 1) := by
  refine bind_any fun k => ?_
  cases k <;> first | exact of_none | exact bind_any fun _ => of_some (.of_none fun _ => rfl)

theorem dollarVariable_finds : Finds dollarVariable (Expr.Within length (2 + 2 * length)) := by
  refine bind_any fun k => ?_
  cases k with
  | «variable» path =>
    refine bind_any fun _ => of_some ?_
    exact (Expr.Within.of_one (fun _ => rfl) (expand_level path).within).mono (by omega)
  | _ => exact of_none

end Documents

section Operands

variable {length bound : Nat} {nested : Nested}
  (inner : ∀ g, Finds (nested g) (Expr.Within length bound)) (names : List String)
include inner

omit names in
theorem islandNested_finds (n : Nat) :
    Finds (islandNested nested n) (Expr.Level length (bound + 2)) := by
  induction n with
  | zero => exact of_none
  | succ n ih => exact islandWith_finds inner ih

omit names in
theorem island_finds : Finds (island nested) (Expr.Level length (bound + 2)) :=
  bind_any fun n => islandNested_finds inner n

theorem variableName_finds :
    Finds (variableName names nested) (Expr.Within length (bound + 1)) := by
  have name (s : String) : (Expr.variable s).Within length (bound + 1) :=
    .mono (.of_none fun _ => rfl) (Nat.le_add_left _ _)
  refine bind_any fun _ => branch (bind_any fun _ => of_some (name _)) (bind_any fun k => ?_)
  cases k with
  | identifier s =>
    refine bind_any fun _ => bind_any fun _ => branch ?_ (of_some (name s))
    refine bind_any fun _ => (inner .operand).required.bind fun e he => of_some ?_
    exact .of_one (fun _ => rfl) he
  | _ => exact of_none

omit names in
theorem call_finds : Finds (call nested) (Expr.Within length (bound + 1)) := by
  refine .attempt (bind_any fun k => ?_)
  cases k with
  | identifier s =>
    refine bind_any fun _ => (list_finds inner "(" ")").map fun r hr => ?_
    cases r with
    | none => simp
    | some es =>
      rintro _ ⟨⟩
      exact .of_all (fun _ => rfl) (hr es rfl)
  | _ => exact of_none

omit names in
theorem arrow_finds : Finds (arrow nested) (Expr.Within length (bound + 1)) := by
  refine bind_any fun params => ?_
  cases params with
  | none => exact of_none
  | some params =>
    exact (expression_yields inner).bind fun e he => of_some (.of_one (fun _ => rfl) he)

theorem primary_finds : Finds (primary names nested) (Expr.Level length (bound + 2)) := by
  refine Yields.firstOf fun p hp => ?_
  simp only [List.mem_cons, List.not_mem_nil, or_false] at hp
  rcases hp with rfl | rfl | rfl | rfl | rfl | rfl | rfl | rfl | rfl
  · exact Yields.leveled (by omega) (variableName_finds inner names)
  · exact Yields.leveled (by omega) literal_finds
  · exact Yields.leveled (by omega) number_finds
  · exact Yields.leveled (by omega) text_finds
  · exact Yields.leveled (by omega) (template_finds inner)
  · exact Yields.leveled (by omega) (array_finds inner)
  · exact Yields.leveled (by omega) (object_finds inner)
  · exact Yields.leveled (by omega) (parenthesized_finds inner)
  · exact island_finds inner

theorem operandHead_finds : Finds (operandHead names nested) (Expr.Level length (bound + 2)) := by
  refine Yields.firstOf fun p hp => ?_
  simp only [List.mem_cons, List.not_mem_nil, or_false] at hp
  rcases hp with rfl | rfl | rfl
  · exact Yields.leveled (by omega) (call_finds inner)
  · exact Yields.leveled (by omega) (arrow_finds inner)
  · exact primary_finds inner names

omit names in
theorem memberKey_yields :
    Yields (memberKey nested) (Expr.Within length (bound + 2 + 2 * length)) := by
  have leaf {p : Parser (Option Expr)} (h : Finds p (Expr.Within length 1)) :
      Finds p (Expr.Within length (bound + 2 + 2 * length)) :=
    Yields.imp h fun _ he => he.mono (by omega)
  refine (Yields.firstOf fun p hp => ?_).required
  simp only [List.mem_cons, List.not_mem_nil, or_false] at hp
  rcases hp with rfl | rfl | rfl
  · exact leaf identifier_finds
  · exact leaf number_finds
  · exact Yields.imp (island_finds inner) fun _ he => he.within

omit names in
theorem membersOf_yields (n : Nat) (host : Expr)
    (h : host.Level length (bound + 2 + 2 * length)) :
    Yields (membersOf nested n host) (Expr.Level length (bound + 2 + 2 * length)) := by
  induction n generalizing host with
  | zero => exact of_pure h
  | succ n ih =>
    refine bind_any fun _ => branch (bind_any fun _ => ?_) ?_
    · exact (memberKey_yields inner).bind fun key hkey => ih _ (h.getter hkey)
    · refine bind_any fun _ => branch (bind_any fun _ => ?_) (of_pure h)
      refine (expression_yields inner).bind fun key hkey => bind_any fun _ => ih _ ?_
      exact h.getter (hkey.mono (by omega))

omit names in
theorem withMembers_finds {head : Parser (Option Expr)}
    (h : Finds head (Expr.Level length (bound + 2))) :
    Finds (withMembers nested head) (Expr.Level length (bound + 2 + 2 * length)) := by
  refine h.bind fun r hr => ?_
  cases r with
  | none => exact of_none
  | some e =>
    have he : e.Level length (bound + 2 + 2 * length) := (hr e rfl).mono (Nat.le_add_right _ _)
    exact bind_any fun n => (membersOf_yields inner n e he).bind fun e he => of_some he

theorem unary_finds : Finds (unary names nested) (Expr.Level length (bound + 2 + 2 * length)) := by
  refine bind_any fun _ => bind_any fun ops => ?_
  refine (withMembers_finds inner (operandHead_finds inner names)).bind fun r hr => ?_
  cases r with
  | none => exact branch of_none of_fatal
  | some e =>
    refine of_some ?_
    induction ops with
    | nil => exact hr e rfl
    | cons op ops ih => exact ih.unary

omit nested inner names in
theorem climb_yields {right : Nat → Parser (Option Expr)}
    (h : ∀ k, Finds (right k) (Expr.Level length bound)) (k n : Nat) (left : Expr)
    (hleft : left.Level length bound) :
    Yields (climb right k n left) (Expr.Level length bound) := by
  induction n generalizing left with
  | zero => exact of_pure hleft
  | succ n ih =>
    refine bind_any fun found => ?_
    split
    · exact of_pure hleft
    · next op _ =>
      split
      · exact of_pure hleft
      · exact bind_any fun _ => (h _).required.bind fun e he => ih _ (hleft.binary he)

theorem binary_finds (n k : Nat) :
    Finds (binary names nested n k) (Expr.Level length (bound + 2 + 2 * length)) := by
  induction n generalizing k with
  | zero => exact unary_finds inner names
  | succ n ih =>
    refine (unary_finds inner names).bind fun r hr => ?_
    cases r with
    | none => exact of_none
    | some e =>
      exact bind_any fun m => (climb_yields ih k m e (hr e rfl)).bind fun e he => of_some he

theorem conditional_finds :
    Finds (conditional names nested) (Expr.Within length (bound + (4 * length + 3))) := by
  refine (binary_finds inner names _ 1).bind fun r hr => ?_
  cases r with
  | none => exact of_none
  | some test =>
    have htest := (hr test rfl).within
    refine bind_any fun _ => branch (bind_any fun _ => ?_) (of_some (htest.mono (by omega)))
    refine (expression_yields inner).bind fun consequent hthen => bind_any fun _ => ?_
    refine (expression_yields inner).bind fun alternate helse => of_some ?_
    exact (Expr.Within.conditional htest (hthen.mono (by omega)) (helse.mono (by omega))).mono
      (by omega)

omit names in
theorem documentParts_yields (n : Nat) :
    Yields (documentParts nested n) fun es =>
      ∀ e ∈ es, e.Within length (bound + 2 + 2 * length) := by
  induction n with
  | zero => exact of_pure (by simp)
  | succ n ih =>
    have part : Finds (firstOf [rawText, island nested, dollarVariable])
        (Expr.Within length (bound + 2 + 2 * length)) := by
      refine Yields.firstOf fun p hp => ?_
      simp only [List.mem_cons, List.not_mem_nil, or_false] at hp
      rcases hp with rfl | rfl | rfl
      · exact Yields.imp rawText_finds fun _ he => he.mono (by omega)
      · exact Yields.imp (island_finds inner) fun _ he => he.within
      · exact Yields.imp dollarVariable_finds fun _ he => he.mono (by omega)
    refine part.bind fun r hr => ?_
    cases r with
    | none => exact of_pure (by simp)
    | some e => exact ih.map fun es hes => List.forall_mem_cons.2 ⟨hr e rfl, hes⟩

end Operands

/-- What is spent on a goal bounds the height of what is found for it. -/
theorem nestedGoal_finds (names : List String) (length depth : Nat) (g : Goal) :
    Finds (nestedGoal names depth g) (Expr.Within length ((4 * length + 3) * depth)) := by
  induction depth generalizing g with
  | zero => exact of_tooDeep
  | succ depth ih =>
    cases g with
    | expression => exact conditional_finds ih names
    | operand =>
      exact Yields.imp (withMembers_finds ih (operandHead_finds ih names)) fun _ he =>
        he.within.mono (by rw [Nat.mul_succ]; omega)

theorem source_yields (o : ParseOptions) (length : Nat) :
    Yields (source o) (Expr.Within length ((4 * length + 3) * (o.maxDepth + 1))) := by
  have inner := nestedGoal_finds o.namespaces length o.maxDepth
  have wide : (4 * length + 3) * (o.maxDepth + 1) =
      (4 * length + 3) * o.maxDepth + (4 * length + 3) := Nat.mul_succ _ _
  have ending {e : Expr} (he : e.Within length ((4 * length + 3) * (o.maxDepth + 1))) :
      Yields (do if (← current).isEof then return e else fatal)
        (Expr.Within length ((4 * length + 3) * (o.maxDepth + 1))) :=
    bind_any fun _ => branch (of_pure he) of_fatal
  unfold source
  cases o.form with
  | «variable» =>
    have names := Yields.leveled (Nat.le_succ _) (variableName_finds inner o.namespaces)
    refine (withMembers_finds inner names).required.bind fun e he => ending (he.within.mono ?_)
    omega
  | expression =>
    refine bind_any fun t => ?_
    by_cases empty : t.isEof = true
    · rw [if_pos empty]
      exact ending (.mono (.of_none fun _ => rfl) (by omega))
    · rw [if_neg empty]
      exact (expression_yields inner).bind fun e he => ending (he.mono (by omega))
  | template =>
    refine bind_any fun n => (documentParts_yields inner n).bind fun es hes => ?_
    exact ending (.mono (.of_all (fun _ => rfl) hes) (by omega))

end Parser

/-- The depth that may be spent and the length of the runs that spend none bound the height of
every tree that a source text is parsed as. -/
theorem height_le_of_parse {src : String} {o : ParseOptions} {e : Expr} (h : parse src o = .ok e) :
    e.height ≤ (4 * e.longestRun + 3) * (o.maxDepth + 1) := by
  simp only [parse, bind, Except.bind] at h
  rcases hc : Cursor.ofSource src.toList o.lexer with error | c
  · simp [hc] at h
  · rcases hr : (Parser.source o).run c with error | ⟨e', c'⟩
    · simp [hc, hr] at h
    · simp only [hc, hr] at h
      obtain rfl : e' = e := Except.ok.inj h
      exact Parser.source_yields o e'.longestRun c e' c' hr (Nat.le_refl _)

theorem parse_negations : parse "- - x" .expression =
    .ok (.unary .negate (.unary .negate (.variable "x"))) :=
  parse_signs isName_x rfl (by decide) .negate 2

theorem height_le_of_parse_negations :
    parse "- - x" .expression = .ok (.unary .negate (.unary .negate (.variable "x"))) ∧
    (Expr.unary .negate (.unary .negate (.variable "x"))).height ≤
      (4 * (Expr.unary .negate (.unary .negate (.variable "x"))).longestRun + 3) *
        (ParseOptions.expression.maxDepth + 1) :=
  ⟨parse_negations, height_le_of_parse parse_negations⟩

/-- The depth alone bounds no height: one level is enough for sums of every length. -/
theorem height_unbounded :
    ¬ ∀ d, ∃ H, ∀ src o e, o.maxDepth = d → parse src o = .ok e → e.height ≤ H := by
  intro bounded
  obtain ⟨H, high⟩ := bounded 1
  have bound := high _ { ParseOptions.expression with maxDepth := 1 } _ rfl
    (parse_operators isName_x rfl Nat.one_pos .add H)
  have height := Expr.height_combined .add "x" H (.variable "x")
  have one : (Expr.variable "x").height = 1 := rfl
  omega

end TemplateFormula
