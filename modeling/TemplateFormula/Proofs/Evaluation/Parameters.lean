import TemplateFormula.Proofs.Evaluation.Correspondence

/-!
# Names of parameters

A function is called in the scopes of its caller, so a parameter hides its name from every function
that is called below it. Its name does not matter if the other functions use the old and the new
name for parameters of their own only. A function that is written in the call that calls it is
called nowhere else, and it may use the names of the place.
-/

namespace TemplateFormula

/-- Nodes whose parts are evaluated in the same scopes. -/
def Expr.SharesScopes : Expr → Prop
  | .function _ _ | .inNamespace _ _ => False
  | _ => True

/-- A name is looked up in the scopes of an expression. Functions are called in other scopes, unless
they are written in the call. -/
inductive Expr.Mentions (n : String) : Expr → Prop
  | variable : Mentions n (.variable n)
  | part {e part : Expr} (shares : e.SharesScopes) (member : part ∈ e.parts)
      (h : Mentions n part) : Mentions n e
  | items {name : String} {list : Expr} {params : List String} {body : Expr}
      (loop : Eval.IsOverItems name) (free : n ∉ params) (h : Mentions n body) :
      Mentions n (.call name [list, .function params body])

/-- A node is a variable of a name or has it as a parameter. -/
def Expr.Names (n : String) : Expr → Prop
  | .variable m => m = n
  | .function params _ => n ∈ params
  | _ => False

/-- A name occurs as a variable or as a parameter. -/
def Expr.Occurs (n : String) (e : Expr) : Prop := ∃ node, e.Contains node ∧ node.Names n

namespace Parameters

/-- The new name of a variable, inside and outside of a function with a renamed parameter. -/
def rename (p q : String) (inside : Bool) (n : String) : String :=
  if inside = true ∧ n = p then q else n

end Parameters

/-- An expression, and the same with a parameter renamed from `p` to `q` in some functions, none of
which has `q` anywhere in it. Other functions have their own `p` and `q` or do not mention them,
unless they are written in the call. Where the parameter is renamed, it is no bracket key that could
stand for its own name. -/
inductive Expr.Renamed (p q : String) : Bool → Expr → Expr → Prop
  | layer {inside : Bool} {C : Expr → Expr → Prop} {e e' : Expr}
      (each : ∀ {a a'}, C a a' → Renamed p q inside a a') (h : Layer .all C e e') :
      Renamed p q inside e e'
  | variable (inside : Bool) (n : String) :
      Renamed p q inside (.variable n) (.variable (Parameters.rename p q inside n))
  | island {inside : Bool} {body body' : Expr} (h : Renamed p q inside body body') :
      Renamed p q inside (.island body) (.island body')
  | inNamespace (name : String) {inside : Bool} {body body' : Expr}
      (h : Renamed p q inside body body') :
      Renamed p q inside (.inNamespace name body) (.inNamespace name body')
  | items {inside : Bool} {name : String} {list list' : Expr} {params : List String}
      {body body' : Expr} (loop : Eval.IsOverItems name) (first : Renamed p q inside list list')
      (h : Renamed p q (inside && p ∉ params) body body') :
      Renamed p q inside (.call name [list, .function params body])
        (.call name [list', .function params body'])
  | function (inside : Bool) {params : List String} {body body' : Expr}
      (own : ∀ n, n = p ∨ n = q → body.Mentions n → n ∈ params)
      (h : Renamed p q false body body') :
      Renamed p q inside (.function params body) (.function params body')
  | parameter (inside : Bool) {params : List String} {body body' : Expr} (member : p ∈ params)
      (other : q ∉ params) (fresh : ¬ body.Occurs q) (h : Renamed p q true body body') :
      Renamed p q inside (.function params body)
        (.function (params.map (Parameters.rename p q true)) body')

/-- Functions of which the second has parameters of the first renamed. -/
structure Closure.Renamed (p q : String) (f g : Closure) : Prop where
  id_eq : f.id = g.id
  nodes : Expr.Renamed p q false (.function f.params f.body) (.function g.params g.body)

namespace Expr

theorem Occurs.of_part {n : String} {e part : Expr} (member : part ∈ e.parts)
    (h : part.Occurs n) : e.Occurs n := by
  obtain ⟨node, inside, names⟩ := h
  exact ⟨node, .inside member inside, names⟩

theorem not_occurs {n : String} {e : Expr} (own : ¬ e.Names n)
    (parts : ∀ part ∈ e.parts, ¬ part.Occurs n) : ¬ e.Occurs n := by
  rintro ⟨node, contains, names⟩
  have below : ∀ part ∈ e.parts, ∀ node, part.Contains node → ¬ node.Names n :=
    fun part member node rest names => parts part member ⟨node, rest, names⟩
  exact forall_contains (P := fun node => ¬ node.Names n) own below node contains names

theorem Mentions.occurs {n : String} {e : Expr} (h : e.Mentions n) : e.Occurs n := by
  induction h with
  | «variable» => exact ⟨_, .here _, rfl⟩
  | part shares member h ih => exact ih.of_part member
  | @items name list params body loop free h ih =>
    have inner : (Expr.function params body).Occurs n := ih.of_part List.mem_cons_self
    exact inner.of_part (List.mem_cons_of_mem _ List.mem_cons_self)

theorem Layer.sharesScopes {V : Vocabulary} {C : Expr → Expr → Prop} {e e' : Expr}
    (h : Layer V C e e') : e.SharesScopes := by
  cases h <;> trivial

theorem Layer.isChain_eq {V : Vocabulary} {C : Expr → Expr → Prop} {e e' : Expr}
    (h : Layer V C e e') : e.isChain = e'.isChain := by
  cases h <;> rfl

theorem Renamed.isChain_eq {p q : String} {inside : Bool} {e e' : Expr}
    (h : Renamed p q inside e e') : e.isChain = e'.isChain := by
  cases h with
  | layer each h => exact h.isChain_eq
  | _ => rfl

/-- A function is the same outside and inside of others. -/
theorem Renamed.outside {p q : String} {inside : Bool} {params : List String} {body e' : Expr}
    (h : Renamed p q inside (.function params body) e') :
    Renamed p q false (.function params body) e' := by
  cases h with
  | layer each h => cases h
  | function _ own h => exact .function false own h
  | parameter _ member other fresh h => exact .parameter false member other fresh h

end Expr

namespace Parameters

section Rename

variable {p q n x : String} {inside : Bool}

theorem rename_outside (p q n : String) : rename p q false n = n := by
  simp [rename]

theorem rename_self : rename p q true p = q := by
  simp [rename]

theorem rename_of_ne (other : n ≠ p) : rename p q inside n = n := by
  simp [rename, other]

variable (p inside) in
theorem rename_inj (hx : x ≠ q) (hn : n ≠ q) :
    rename p q inside x = rename p q inside n ↔ x = n := by
  unfold rename
  split <;> split <;> simp_all [eq_comm]

end Rename

variable {σ : Type} (p q : String) (filter : Option String) (clock : Calendar.Clock) (data : Value)

/-- The same environment twice, where the two names may be parameters of the caller. -/
def setting : Setting σ where
  options := ⟨[], [], filter, []⟩
  clock := clock
  clock' := clock
  data := data
  data' := data
  vocabulary := .all
  ambient := fun n n' => n = n' ∧ n ≠ p ∧ n ≠ q

/-- Names that an expression mentions, beside their new names. -/
def mentioned (inside : Bool) (e : Expr) : Names :=
  fun n n' => e.Mentions n ∧ n' = rename p q inside n

/-- Renamed expressions in scopes where the mentioned names are known. -/
def Related (N : Names) (e e' : Expr) : Prop :=
  ∃ inside, e.Renamed p q inside e' ∧ (∀ n, e.Mentions n → N n (rename p q inside n)) ∧
    (inside = true → ¬ e.Occurs q)

variable {p q filter clock data}

theorem samePlaces_map {f : String → String} {n n' : String} {params : List String}
    (same : ∀ x ∈ params, x = n ↔ f x = n') :
    Setting.SamePlaces n n' params (params.map f) := by
  rw [Setting.SamePlaces, List.forall₂_map_right_iff, List.forall₂_same]
  exact same

theorem binds_function {params : List String} {body : Expr}
    (own : ∀ n, n = p ∨ n = q → body.Mentions n → n ∈ params) :
    (setting (σ := σ) p q filter clock data).Binds
      (setting (σ := σ) p q filter clock data).ambient (mentioned p q false body) params
      params where
  ambient same := .of_eq same.1 params
  places names := .of_eq (names.2.trans (rename_outside p q _)).symm params
  known := @fun n _ ⟨mentions, same⟩ => by
    rw [same, rename_outside]
    by_cases named : n = p ∨ n = q
    · exact .inl (own n named mentions)
    · obtain ⟨hp, hq⟩ := not_or.1 named
      exact .inr ⟨rfl, hp, hq⟩

theorem binds_parameter {params : List String} {body : Expr} (member : p ∈ params)
    (other : q ∉ params) (fresh : ¬ body.Occurs q) :
    (setting (σ := σ) p q filter clock data).Binds
      (setting (σ := σ) p q filter clock data).ambient (mentioned p q true body) params
      (params.map (rename p q true)) where
  ambient := by
    rintro n _ ⟨rfl, hp, hq⟩
    refine samePlaces_map fun x inside => ?_
    have hx : x ≠ q := ne_of_mem_of_not_mem inside other
    rw [← rename_inj p true hx hq, rename_of_ne hp]
  places := by
    rintro n _ ⟨mentions, rfl⟩
    refine samePlaces_map fun x inside => (rename_inj p true ?_ ?_).symm
    · exact ne_of_mem_of_not_mem inside other
    · rintro rfl
      exact fresh mentions.occurs
  known := by
    rintro n _ ⟨mentions, rfl⟩
    by_cases hp : n = p
    · exact .inl (hp ▸ member)
    · exact .inr ⟨(rename_of_ne hp).symm, hp, fun same => fresh (same ▸ mentions.occurs)⟩

theorem binds_items {N : Names} {inside : Bool} {params : List String} {body : Expr}
    (outer : ∀ n, n ∉ params → body.Mentions n → N n (rename p q inside n))
    (other : inside = true → q ∉ params) :
    (setting (σ := σ) p q filter clock data).Binds N
      (mentioned p q (inside && p ∉ params) body) params params where
  ambient same := .of_eq same.1 params
  places := by
    rintro n _ ⟨mentions, rfl⟩
    unfold rename
    split
    · next renamed =>
      obtain ⟨both, rfl⟩ := renamed
      simp only [Bool.and_eq_true, decide_eq_true_eq] at both
      exact List.forall₂_same.2 fun x member =>
        iff_of_false (ne_of_mem_of_not_mem member both.2)
          (ne_of_mem_of_not_mem member (other both.1))
    · exact .of_eq rfl params
  known := by
    rintro n _ ⟨mentions, rfl⟩
    by_cases bound : n ∈ params
    · exact .inl bound
    · have same : rename p q (inside && p ∉ params) n = rename p q inside n := by
        unfold rename
        by_cases hp : n = p
        · subst hp
          simp [bound]
        · simp [hp]
      rw [same]
      exact .inr (outer n bound mentions)

theorem related_of_renamed {inside : Bool} {e e' : Expr} (h : e.Renamed p q inside e')
    (fresh : inside = true → ¬ e.Occurs q) : Related p q (mentioned p q inside e) e e' :=
  ⟨inside, h, fun _ mentions => ⟨mentions, rfl⟩, fresh⟩

theorem Related.step {N : Names} {e e' : Expr} (h : Related p q N e e') :
    Expr.Step (setting (σ := σ) p q filter clock data) (Related p q) N e e' := by
  obtain ⟨inside, renamed, names, fresh⟩ := h
  have part {a a' : Expr} (shares : e.SharesScopes) (member : a ∈ e.parts)
      (h : a.Renamed p q inside a') : Related p q N a a' :=
    ⟨inside, h, fun n mentions => names n (.part shares member mentions),
      fun within occurs => fresh within (occurs.of_part member)⟩
  cases renamed with
  | layer each h =>
    exact .layer (h.imp fun a member a' related => part h.sharesScopes member (each related))
  | «variable» _ n => exact .variable (names n .variable)
  | island h => exact .island (part trivial List.mem_cons_self h) (.inl h.isChain_eq)
  | inNamespace name h =>
    exact .inNamespace (fun _ found => nomatch found)
      (related_of_renamed h fun within occurs => fresh within (occurs.of_part List.mem_cons_self))
  | @items _ _ list list' params body body' loop first h =>
    have function : Expr.function params body ∈ [list, Expr.function params body] :=
      List.mem_cons_of_mem _ List.mem_cons_self
    refine .items loop (part trivial List.mem_cons_self first)
      ⟨_, related_of_renamed h fun within occurs => ?_, binds_items ?_ ?_⟩
    · have inner : (Expr.function params body).Occurs q := occurs.of_part List.mem_cons_self
      exact fresh (Bool.and_eq_true_iff.1 within).1 (inner.of_part function)
    · exact fun n free mentions => names n (.items loop free mentions)
    · intro within member
      exact fresh within ⟨_, .inside function (.here _), member⟩
  | function _ own h => exact .function ⟨_, related_of_renamed h nofun, binds_function own⟩
  | parameter _ member other free h =>
    exact .function ⟨_, related_of_renamed h fun _ => free, binds_parameter member other free⟩

theorem corresponds_iff {f g : Closure} : f.Corresponds (Related p q) g ↔ f.Renamed p q g := by
  constructor
  · rintro ⟨same, N, inside, renamed, _⟩
    exact ⟨same, renamed.outside⟩
  · rintro ⟨same, renamed⟩
    exact ⟨same, _, related_of_renamed renamed nofun⟩

theorem pairs : Closure.Pairs (Closure.Renamed p q) where
  id_eq h := h.id_eq
  blank _ := by
    refine ⟨rfl, .function false (fun n _ mentions => ?_) (.layer id (.literal _))⟩
    cases mentions with
    | part _ member _ => cases member

/-- What names stand for in alike data is alike. -/
theorem like_lookUp {R : Closure → Closure → Prop} (pairs : Closure.Pairs R)
    (like : Value.Like R data data) (n : String) :
    Value.Like R (Scope.lookUp data n [.root]) (Scope.lookUp data n [.root]) := by
  unfold Scope.lookUp
  split
  · exact like
  · obtain ⟨u, own, other⟩ := (Value.like_iff_seen pairs).1 like
    refine (Value.like_iff_seen pairs).2 ⟨u.memberAt n, ?_, ?_⟩
    · rw [← Value.memberAt_relabel, ← own]
    · rw [← Value.memberAt_relabel, ← other]

theorem sound (kept : Value.Like (Closure.Renamed p q) data data) :
    (setting (σ := σ) p q filter clock data).Sound (Related p q) := by
  have like {v : Value} (h : Value.Like (Closure.Renamed p q) v v) :
      Value.Like (Closure.Corresponds (Related p q)) v v :=
    h.mono pairs fun f g => corresponds_iff.2
  exact
    { handlers := rfl
      zone := rfl
      closed := Related.step
      blank := by
        obtain ⟨N, related⟩ := (corresponds_iff.2 ((pairs (p := p) (q := q)).blank 0)).related
        exact ⟨N, related⟩
      data := by
        rintro n _ ⟨rfl, _⟩
        exact like (like_lookUp pairs kept n)
      answers := fun _ member => nomatch member
      answers_eq := fun _ member => nomatch member
      random := fun _ => rfl
      timeless := fun _ _ _ => rfl
      fallback := fun _ => .inr trivial
      islands := fun _ => trivial
      filters := fun _ _ => .inr (.inr ⟨rfl, rfl, like kept⟩) }

end Parameters

namespace Eval

variable {σ : Type}

/-- Where parameters of functions are renamed, results stay the same, up to the same renaming in
functions that are returned. -/
theorem results_renamed {p q : String} {e e' : Expr} (renamed : e.Renamed p q false e')
    {data : Value} (kept : Value.Like (Closure.Renamed p q) data data) (filter : Option String)
    (clock : Calendar.Clock) (user : σ) :
    (∀ r, Results ⟨⟨[], [], filter, []⟩, clock, data⟩ user e r →
      ∃ r', Results ⟨⟨[], [], filter, []⟩, clock, data⟩ user e' r' ∧
        LikeResult (Closure.Renamed p q) r r') ∧
    ∀ r', Results ⟨⟨[], [], filter, []⟩, clock, data⟩ user e' r' →
      ∃ r, Results ⟨⟨[], [], filter, []⟩, clock, data⟩ user e r ∧
        LikeResult (Closure.Renamed p q) r r' := by
  have sound : (Parameters.setting (σ := σ) p q filter clock data).Sound
      (Parameters.Related p q) := Parameters.sound kept
  have same {n n' : String} (h : n = n') :
      Value.Like (Closure.Corresponds (Parameters.Related p q)) (Scope.lookUp data n [.root])
        (Scope.lookUp data n' [.root]) := by
    rw [← h]
    exact (Parameters.like_lookUp Parameters.pairs kept n).mono Parameters.pairs fun f g =>
      Parameters.corresponds_iff.2
  have related : Parameters.Related p q Eq e e' :=
    ⟨false, renamed, fun n _ => (Parameters.rename_outside p q n).symm, nofun⟩
  exact results_related sound related same (fun f g => Parameters.corresponds_iff.1) user

/-- The pairs of a variable and the items of a list. -/
def paired (x : String) : Expr :=
  .call mapName [.variable "list", .function ["y"] (.array [.variable x, .variable "y"])]

/-- The pairs of items of a list as a text, by a function inside of a function. -/
def pairing (x : String) : Expr :=
  .template [.call mapName [.variable "list", .function [x] (paired x)]]

theorem not_occurs_variable {n m : String} (other : m ≠ n) : ¬ (Expr.variable m).Occurs n :=
  Expr.not_occurs other fun _ member => absurd member List.not_mem_nil

theorem paired_fresh : ¬ (paired "x").Occurs "z" := by
  have items : ¬ (Expr.array [.variable "x", .variable "y"]).Occurs "z" :=
    Expr.not_occurs not_false (by simp [Expr.parts, not_occurs_variable])
  have function : ¬ (Expr.function ["y"] (.array [.variable "x", .variable "y"])).Occurs "z" :=
    Expr.not_occurs (by simp [Expr.Names]) (by simp [Expr.parts, items])
  exact Expr.not_occurs not_false (by simp [paired, Expr.parts, not_occurs_variable, function])

theorem paired_renamed : (paired "x").Renamed "x" "z" true (paired "z") := by
  have renamed := Expr.Renamed.variable (p := "x") (q := "z") true "x"
  rw [Parameters.rename_self] at renamed
  have other {n : String} (other : n ≠ "x") :
      (Expr.variable n).Renamed "x" "z" true (.variable n) := by
    have same := Expr.Renamed.variable (p := "x") (q := "z") true n
    rwa [Parameters.rename_of_ne other] at same
  have items : (Expr.array [.variable "x", .variable "y"]).Renamed "x" "z" true
      (.array [.variable "z", .variable "y"]) :=
    .layer id (.array (.cons renamed (.cons (other (by decide)) .nil)))
  exact .items (.inl rfl) (other (by decide)) items

theorem pairing_renamed : (pairing "x").Renamed "x" "z" false (pairing "z") := by
  have parameter : (Expr.function ["x"] (paired "x")).Renamed "x" "z" false
      (.function ["z"] (paired "z")) := by
    have renamed := Expr.Renamed.parameter false (List.mem_singleton_self "x") (by decide)
      paired_fresh paired_renamed
    rwa [List.map_singleton, Parameters.rename_self] at renamed
  refine .layer id (.template (.cons (.layer id (.call trivial ?_)) .nil))
  exact .cons (.variable false "list") (.cons parameter .nil)

/-- A list, and a value under the new name of the parameter. -/
def listed : Value := .object [("list", .array [.text "a"]), ("z", .text "b")]

theorem results_renamed_pairing :
    (pairing "x").Renamed "x" "z" false (pairing "z") ∧
    Value.Like (Closure.Renamed "x" "z") listed listed ∧
    ∀ clock, Results ⟨⟨[], [], some "html", []⟩, clock, listed⟩ () (pairing "z")
      (.ok (.text "a,a")) := by
  have free : listed.FunctionFree := fun κ => by simp [listed, Members.relabel]
  have kept := free.like (Parameters.pairs (p := "x") (q := "z"))
  refine ⟨pairing_renamed, kept, fun clock => ?_⟩
  have first : Results ⟨⟨[], [], some "html", []⟩, clock, listed⟩ () (pairing "x")
      (.ok (.text "a,a")) := ⟨_, 9, rfl⟩
  obtain ⟨r', result', like⟩ :=
    (results_renamed pairing_renamed kept (some "html") clock ()).1 _ first
  cases like with
  | ok like =>
    cases like
    exact result'

/-- A call of a function that is a parameter. -/
def passed : Expr := .call mapName [.array [.text "x"], .variable "f"]

/-- A function that is passed on to a function with a parameter `i` or another in its place. -/
def passing (i : String) : Expr :=
  .call mapName [.array [.function ["y"] (.variable "i")], .function ["f", i] passed]

/-- A function that is called below another sees the parameters of the other. -/
theorem parameter_captures :
    "j" ∉ ["f", "i"] ∧ ¬ passed.Occurs "j" ∧
    ∀ clock, ¬ ∀ r,
      Results ⟨Options.usual, clock, .object [("i", .text "a")]⟩ () (passing "i") r →
      ∃ r', Results ⟨Options.usual, clock, .object [("i", .text "a")]⟩ () (passing "j") r' ∧
        LikeResult (fun _ _ => True) r r' := by
  have text : ¬ (Expr.text "x").Occurs "j" := Expr.not_occurs not_false (by simp [Expr.parts])
  have list : ¬ (Expr.array [.text "x"]).Occurs "j" :=
    Expr.not_occurs not_false (by simp [Expr.parts, text])
  have fresh : ¬ passed.Occurs "j" :=
    Expr.not_occurs not_false (by simp [passed, Expr.parts, list, not_occurs_variable])
  refine ⟨by decide, fresh, fun clock same => ?_⟩
  have first : Results ⟨Options.usual, clock, .object [("i", .text "a")]⟩ () (passing "i")
      (.ok (.array [.array [.ofNat 0]])) := ⟨_, 9, rfl⟩
  have second : Results ⟨Options.usual, clock, .object [("i", .text "a")]⟩ () (passing "j")
      (.ok (.array [.array [.text "a"]])) := ⟨_, 9, rfl⟩
  obtain ⟨r', result', like⟩ := same _ first
  cases result'.unique second
  cases like with
  | ok like =>
    cases like with
    | array lists =>
      cases lists with
      | cons inner _ =>
        cases inner with
        | array items =>
          cases items with
          | cons first _ => cases first

end Eval

end TemplateFormula
