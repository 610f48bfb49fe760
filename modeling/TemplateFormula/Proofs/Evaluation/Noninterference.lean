import TemplateFormula.Proofs.Evaluation.Correspondence

/-!
# Noninterference

An expression without filters sees of the data only the members that its variables name, and it sees
neither the time nor the random source unless it calls for them. So its results on two data contexts
that agree on these members are the same.
-/

namespace TemplateFormula

namespace Builtin

/-- A function that sees of the clock only its zone. -/
def Timeless (f : Builtin) : Prop :=
  ∀ {clock clock' : Calendar.Clock}, clock'.zone = clock.zone → f clock' = f clock

theorem ofTotal_timeless (f : Calendar.Zone → List Value → Value) : Timeless (ofTotal f) := by
  intro clock clock' zone
  unfold ofTotal
  rw [zone]

theorem upperMoney_timeless : Timeless upperMoney := by
  intro clock clock' zone
  unfold upperMoney
  rw [zone]

theorem table_timeless :
    ∀ entry ∈ table, entry.1 = "TODAY" ∨ entry.1 = "NOW" ∨ Timeless entry.2 := by
  simp only [table, List.forall_mem_cons]
  repeat' apply And.intro
  all_goals first
    | exact .inr (.inr (ofTotal_timeless _))
    | exact .inr (.inr upperMoney_timeless)
    | exact .inl trivial
    | exact .inr (.inl trivial)
    | exact fun _ h => absurd h List.not_mem_nil

theorem timeless_of_find? {name : String} {f : Builtin} (found : find? name = some f)
    (today : name ≠ "TODAY") (now : name ≠ "NOW") : Timeless f := by
  obtain ⟨before, after, split, _⟩ := List.lookup_eq_some_iff.mp found
  exact ((table_timeless (name, f) (by rw [split]; simp)).resolve_left today).resolve_left now

end Builtin

open Eval (isFunctionName Results LikeResult)

/-- A node that sees nothing but members of the data: it is no filter, no variable for the data as a
whole, and no call of anything but a built-in function of its arguments. -/
def Expr.Insulated : Expr → Prop
  | .filter _ _ => False
  | .variable name => name ≠ Path.wholeName
  | .call name _ => isFunctionName name = true ∧ name ≠ "NOW" ∧ name ≠ "TODAY" ∧ name ≠ "RAND"
  | _ => True

namespace Noninterference

variable {σ : Type} (o : Options σ) (clock clock' : Calendar.Clock) (data data' : Value)

/-- Names that two data contexts agree on. -/
def shared : Names := fun n n' =>
  n = n' ∧ n ≠ Path.wholeName ∧ data.memberAt n = data'.memberAt n

def setting : Setting σ where
  options := o
  clock := clock
  clock' := clock'
  data := data
  data' := data'
  vocabulary :=
    { callee := fun name =>
        isFunctionName name = true ∧ name ≠ "NOW" ∧ name ≠ "TODAY" ∧ name ≠ "RAND"
      filter := fun name => o.islandFilter? = some name }
  ambient := shared data data'

/-- An expression that sees nothing on which the data differ, beside itself. -/
structure Insulated (N : Names) (e e' : Expr) : Prop where
  names : N = shared data data'
  same : e' = e
  nodes : ∀ node, e.Contains node →
    node.Insulated ∧ ∀ n, node = .variable n → data.memberAt n = data'.memberAt n

variable {o clock clock' data data'}

theorem Insulated.part {N : Names} {e e' : Expr} (h : Insulated data data' N e e') {part : Expr}
    (member : part ∈ e.parts) : Insulated data data' N part part where
  names := h.names
  same := rfl
  nodes node inside := h.nodes node (.inside member inside)

theorem Insulated.step {N : Names} {e e' : Expr} (h : Insulated data data' N e e') :
    Expr.Step (setting o clock clock' data data') (Insulated data data') N e e' := by
  obtain ⟨own, agree⟩ := h.nodes e (.here e)
  obtain rfl := h.same
  have layer (spoken : e'.Spoken (setting o clock clock' data data').vocabulary) :
      Expr.Step (setting o clock clock' data data') (Insulated data data') N e' e' :=
    .layer (.refl spoken fun _ => h.part)
  cases e' with
  | island body => exact .island (h.part List.mem_cons_self) (.inl rfl)
  | «variable» n =>
    rw [h.names]
    exact .variable ⟨rfl, own, agree n rfl⟩
  | inNamespace name body =>
    have answers (r : Resolver) (n n' : String) (same : N n n') : r n = r n' := by
      rw [h.names] at same
      rw [same.1]
    exact .inNamespace (fun r _ => answers r) (h.part List.mem_cons_self)
  | function params body =>
    refine .function ⟨N, h.part List.mem_cons_self, ?_⟩
    rw [h.names]
    exact ⟨fun same => .of_eq same.1 params, fun same => .of_eq same.1 params, .inr⟩
  | filter input calls => exact own.elim
  | call name es => exact layer own
  | _ => exact layer trivial

theorem eq_of_corresponds {f g : Closure} (h : f.Corresponds (Insulated data data') g) :
    f = g := by
  obtain ⟨same_id, N, related⟩ := h
  obtain ⟨i, ps, b⟩ := f
  obtain ⟨j, qs, d⟩ := g
  have same := related.same
  cases same
  cases same_id
  rfl

theorem blank_insulated : Insulated data data' (shared data data')
    (.function [] (.literal .undefined)) (.function [] (.literal .undefined)) where
  names := rfl
  same := rfl
  nodes := Expr.forall_contains ⟨trivial, nofun⟩ fun part member => by
    rw [List.mem_singleton.1 member]
    exact Expr.forall_contains_leaf ⟨trivial, nofun⟩ rfl

theorem pairs : Closure.Pairs (Closure.Corresponds (Insulated data data')) where
  id_eq h := h.id_eq
  blank _ := ⟨rfl, _, blank_insulated⟩

theorem sound (handlers : o.handlers = [])
    (islands : ∀ name, o.islandFilter? = some name →
      o.findFilter? name = some Filter.raw ∨ o.findFilter? name = some Filter.html)
    (answers : ∀ entry ∈ o.namespaces, ∀ n, (entry.2 n).FunctionFree)
    (zone : clock'.zone = clock.zone) (free : data.FunctionFree) :
    (setting o clock clock' data data').Sound (Insulated data data') where
  handlers := handlers
  zone := zone
  closed := Insulated.step
  blank := ⟨_, blank_insulated⟩
  data := by
    rintro n n' ⟨rfl, whole, same⟩
    have seen (data : Value) : Scope.lookUp data n [.root] = data.memberAt n := by
      rw [Scope.lookUp, if_neg whole]
    have member_free : (data.memberAt n).FunctionFree := fun κ => by
      rw [← Value.memberAt_relabel, free κ]
    have like : Value.Like (Closure.Corresponds (Insulated data data')) (data.memberAt n)
        (data'.memberAt n) := same ▸ member_free.like pairs
    rwa [← seen, ← seen] at like
  answers entry member n := (answers entry member n).like pairs
  answers_eq entry member n n' same := by rw [same.1]
  random drawn := absurd rfl drawn.2.2.2
  timeless known found args :=
    congrFun (Builtin.timeless_of_find? found known.2.2.1 known.2.1 zone) args
  fallback known := .inl known.1
  islands found := found
  filters known found := by
    obtain raw | html := islands _ known
    · exact .inl (Option.some.inj (found.symm.trans raw))
    · exact .inr (.inl (Option.some.inj (found.symm.trans html)))

end Noninterference

namespace Eval

variable {σ : Type}

/-- An expression that sees of the data only members has the same results wherever these are the
same, whatever the time and the random source. -/
theorem results_eq_of_agree {o : Options σ} (handlers : o.handlers = [])
    (islands : ∀ name, o.islandFilter? = some name →
      o.findFilter? name = some Filter.raw ∨ o.findFilter? name = some Filter.html)
    (answers : ∀ entry ∈ o.namespaces, ∀ n, (entry.2 n).FunctionFree)
    {clock clock' : Calendar.Clock} (zone : clock'.zone = clock.zone)
    {data data' : Value} (free : data.FunctionFree) {e : Expr}
    (insulated : ∀ node, e.Contains node → node.Insulated)
    (agree : ∀ n, e.Contains (.variable n) → data.memberAt n = data'.memberAt n) (user : σ)
    (r : Except EvalError Value) :
    Results ⟨o, clock, data⟩ user e r ↔ Results ⟨o, clock', data'⟩ user e r := by
  have sound : (Noninterference.setting o clock clock' data data').Sound
      (Noninterference.Insulated data data') :=
    Noninterference.sound handlers islands answers zone free
  have related : Noninterference.Insulated data data' (Noninterference.shared data data') e e :=
    { names := rfl
      same := rfl
      nodes := fun node inside => ⟨insulated node inside, fun n same => agree n (same ▸ inside)⟩ }
  obtain ⟨forth, back⟩ := results_related sound related sound.data
    (fun f g => Noninterference.eq_of_corresponds) user
  constructor
  · intro result
    obtain ⟨r', result', like⟩ := forth r result
    rwa [like.eq]
  · intro result
    obtain ⟨r', result', like⟩ := back r result
    rwa [← like.eq]

/-- The items of a list under a function of one of them, in an island. -/
def listing : Expr :=
  .document [.island (.call mapName [.variable "list", .function ["x"] (.variable "x")])]

def listingData (secret : String) : Value :=
  .object [("list", .array [.text "a"]), ("secret", .text secret)]

theorem listing_nodes (node : Expr) (inside : listing.Contains node) :
    node.Insulated ∧ ∀ n, node = .variable n → n = "list" ∨ n = "x" := by
  have leaf {name : String} (whole : name ≠ Path.wholeName) (known : name = "list" ∨ name = "x") :
      ∀ node, (Expr.variable name).Contains node →
        node.Insulated ∧ ∀ n, node = .variable n → n = "list" ∨ n = "x" :=
    Expr.forall_contains_leaf ⟨whole, fun n same => Expr.variable.inj same ▸ known⟩ rfl
  revert node
  refine Expr.forall_contains ⟨trivial, by simp [listing]⟩ fun part member => ?_
  rw [List.mem_singleton.1 member]
  refine Expr.forall_contains ⟨trivial, by simp⟩ fun part member => ?_
  rw [List.mem_singleton.1 member]
  refine Expr.forall_contains ⟨?_, by simp⟩ fun part member => ?_
  · simp [Expr.Insulated, isFunctionName, mapName]
  · obtain rfl | member := List.mem_cons.1 member
    · exact leaf (by decide) (.inl rfl)
    · rw [List.mem_singleton.1 member]
      refine Expr.forall_contains ⟨trivial, by simp⟩ fun part member => ?_
      rw [List.mem_singleton.1 member]
      exact leaf (by decide) (.inr rfl)

theorem results_eq_of_agree_listing :
    (listingData "one").memberAt "secret" ≠ (listingData "two").memberAt "secret" ∧
    ∀ (clock : Calendar.Clock) (now : Calendar.Stamp),
      Results ⟨Options.usual, { clock with now := now }, listingData "two"⟩ () listing
        (.ok (.array [.text "a"])) := by
  have members (secret : String) :
      (listingData secret).memberAt "list" = .array [.text "a"] ∧
      (listingData secret).memberAt "x" = .undefined ∧
      (listingData secret).memberAt "secret" = .text secret := ⟨rfl, rfl, rfl⟩
  refine ⟨by simp [members], fun clock now => ?_⟩
  have first : Results ⟨Options.usual, clock, listingData "one"⟩ () listing
      (.ok (.array [.text "a"])) := ⟨_, 9, rfl⟩
  have zone : ({ clock with now := now } : Calendar.Clock).zone = clock.zone := rfl
  have filter : (Options.usual : Options Unit).islandFilter? = some "html" := by decide +kernel
  refine (results_eq_of_agree (o := Options.usual) rfl ?islands
    (fun _ h => absurd h List.not_mem_nil) zone ?free
    (fun node inside => (listing_nodes node inside).1) ?agree () _).1 first
  case islands =>
    intro name found
    rw [← Option.some.inj (filter.symm.trans found)]
    exact .inr rfl
  case free => exact fun κ => by simp [listingData, Members.relabel]
  case agree =>
    intro n inside
    obtain rfl | rfl := (listing_nodes _ inside).2 n rfl
    · rw [(members _).1, (members _).1]
    · rw [(members _).2.1, (members _).2.1]

end Eval

end TemplateFormula
