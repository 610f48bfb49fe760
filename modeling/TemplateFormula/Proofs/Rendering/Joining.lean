import Mathlib
import TemplateFormula.Proofs.Evaluation.Scopes
import TemplateFormula.Proofs.Parsing.Joining
import TemplateFormula.Proofs.Rendering.Document
import TemplateFormula.Proofs.Renaming.Value

/-!
# Rendering joined templates

Nothing leaks out of an island. Behind a template that ends in one, another is parsed as it is
alone, and rendering the two together gives the text of the first and the text of the second, if the
second makes no use of random numbers.
-/

namespace TemplateFormula

/-- Data that is read from JSON holds no functions, whose numbers could play a part. -/
theorem Environment.settled_of_parse? {cs : List Char} {data : Value}
    (read : Json.parse? cs = some data) (clock : Calendar.Clock) (filter : Option String) :
    (plain clock data filter).Settled 0 := by
  intro ρ _ _
  refine ⟨⟨?_, ?_, ?_⟩, Json.rename_of_parse? ρ read⟩
  · exact fun _ h => absurd h List.not_mem_nil
  · exact fun _ h => absurd h List.not_mem_nil
  · exact fun _ h => absurd h List.not_mem_nil

namespace Eval

variable {σ : Type} {env : Environment σ}

theorem glued_aligned {ρ : Nat → Nat} (distinct : Function.Injective ρ)
    (respects : env.Respects ρ) (n : Nat) (parts : List Expr) :
    Aligned ρ env id (glued (evaluate n) parts) (glued (evaluate n) parts) := by
  have texts : ((aligning distinct respects).simulation 0).Holds id
      (fun _ => glued (within n .handled) parts) fun _ => glued (within n .handled) parts :=
    Simulation.glued fun e _ => within_aligned distinct respects n .handled e
  exact texts

/-- The texts of parts are the same on a machine at rest that has made further functions. -/
theorem glued_renamed (n : Nat) (parts : List Expr) {m m' : Machine σ}
    (settled : env.Settled m.functions) (rest : m.scopes = [.root]) (rest' : m'.scopes = [.root])
    (functions : m.functions ≤ m'.functions) (random : m'.random = m.random)
    (user : m'.user = m.user) :
    (glued (evaluate n) parts env m').1 = (glued (evaluate n) parts env m).1 := by
  have distinct := leaveOut_injective m.functions (m'.functions - m.functions)
  have respects := settled _ distinct fun i => leaveOut_below
  have renamed := renamed_of_rest rest rest' functions random user
  have outcome := (glued_aligned distinct respects n parts m m' renamed).outcome
  rw [outcome]
  cases (glued (evaluate n) parts env m).1 <;> rfl

/-- Gluing the texts of parts leaves the machine at rest. -/
theorem glued_rest (n : Nat) (parts : List Expr) (m : Machine σ) :
    (glued (evaluate n) parts env m).2.scopes = m.scopes ∧
      m.functions ≤ (glued (evaluate n) parts env m).2.functions := by
  have aligned := glued_aligned Function.injective_id env.respects_id n parts m m m.renamed_id
  exact ⟨aligned.scopes, aligned.functions⟩

/-- The texts of further parts are those they have on their own, given the same random numbers. -/
theorem glued_after [Subsingleton σ] (n : Nat) {parts more : List Expr} {m : Machine σ}
    (settled : env.Settled m.functions) (rest : m.scopes = [.root]) {cs ds : List Char}
    (first : (glued (evaluate n) parts env m).1 = .ok cs)
    (last : ∀ w, (glued (evaluate n) more env { m with random := w }).1 = .ok ds) :
    (glued (evaluate n) (parts ++ more) env m).1 = .ok (cs ++ ds) := by
  obtain ⟨scopes, functions⟩ : (glued (evaluate n) parts env m).2.scopes = _ ∧ _ :=
    glued_rest n parts m
  have behind : (glued (evaluate n) more env (glued (evaluate n) parts env m).2).1 = .ok ds := by
    rw [← last (glued (evaluate n) parts env m).2.random]
    exact glued_renamed n more settled rest (scopes.trans rest) functions rfl
      (Subsingleton.elim _ _)
  rw [glued_append, bind_of_value first, bind_of_value behind]
  rfl

theorem glued_of_document (builtin : env.options.nodeHandler? .document = none) {n : Nat}
    {parts : List Expr} {m : Machine σ} {v : Value}
    (value : (evaluate (n + 1) (.document parts) env m).1 = .ok v) :
    (glued (evaluate n) parts env m).1 = .ok (v.shownChars env.zone) := by
  rw [← evaluate_document_shown builtin, bind_of_value value]
  rfl

end Eval

section Joined

variable {env : Environment Unit} {source : String} {parts : List Expr}

/-- The limit for the parts of a document. -/
theorem usualLimit_eq : Eval.usualLimit = Eval.usualLimit - 1 + 1 := rfl

theorem render_glued (builtin : env.options.nodeHandler? .document = none)
    (parsed : parse source .template = .ok (.document parts)) {cs : List Char}
    (texts : (Eval.glued (Eval.evaluate (Eval.usualLimit - 1)) parts env
      (.start env.clock ())).1 = .ok cs) : render source env = String.ofList cs := by
  have shown := Eval.evaluate_document_shown builtin (Eval.usualLimit - 1) parts
    (.start env.clock ())
  rw [← usualLimit_eq] at shown
  rw [render_shown parsed, shown]
  generalize Eval.glued (Eval.evaluate (Eval.usualLimit - 1)) parts env _ = outcome at texts
  obtain ⟨_, m⟩ := outcome
  cases texts
  rfl

theorem glued_of_evaluateSource (builtin : env.options.nodeHandler? .document = none)
    (parsed : parse source .template = .ok (.document parts)) {m : Machine Unit} {v : Value}
    (value : (evaluateSource source .template env m).1 = .ok v) :
    (Eval.glued (Eval.evaluate (Eval.usualLimit - 1)) parts env m).1 =
      .ok (v.shownChars env.zone) := by
  apply Eval.glued_of_document builtin
  rw [← usualLimit_eq]
  rw [evaluateSource_of_parse parsed] at value
  generalize (Eval.evaluate Eval.usualLimit (.document parts) env m).1 = outcome at value
  cases outcome with
  | error h => cases value
  | ok w =>
    cases value
    rfl

/-- Nothing leaks out of an island. Behind a template that ends in one, a text is parsed as it is
alone: its parts follow those in front, or it fails further on. If both templates have a value, the
second whatever the random numbers are, the two together are rendered as one after the other. The
environment may hold data and extensions without a state, as long as no number of a function plays a
part in them and documents follow the built-in rule. -/
theorem render_append {a : String} {o : ParseOptions} (form : o.form = .template)
    (parsed : parse a o = .ok (.document parts)) (ends : Lexer.EndsInIsland a.toList o.lexer) :
    (∃ p : Position, ∀ b : String,
      (∃ more, parse b o = .ok (.document more) ∧
        parse (a ++ b) o = .ok (.document (parts ++ more))) ∨
      ∃ e, parse b o = .error e ∧ parse (a ++ b) o = .error (e.behind p)) ∧
    (o = .template → ∀ (b : String) (env : Environment Unit),
      env.Settled 0 → env.options.nodeHandler? .document = none →
      ∀ u v, evaluate a .template env = .ok u →
        (∀ w, (evaluateSource b .template env
          { Machine.start env.clock () with random := w }).1 = .ok v) →
        render (a ++ b) env = render a env ++ render b env) := by
  refine ⟨Parser.parse_append form parsed ends, ?_⟩
  rintro rfl b env settled builtin u v value values
  obtain ⟨p, joins⟩ := Parser.parse_append form parsed ends
  have value_b := values (Machine.start env.clock ()).random
  rcases joins b with ⟨more, parsed_b, joined⟩ | ⟨e, fails, -⟩
  · have texts := glued_of_evaluateSource builtin parsed value
    have texts_b (w : UInt64) := glued_of_evaluateSource builtin parsed_b (values w)
    have joined_texts := Eval.glued_after (Eval.usualLimit - 1) settled rfl texts texts_b
    rw [render_glued builtin joined joined_texts, render_glued builtin parsed texts,
      render_glued builtin parsed_b (texts_b _), String.ofList_append]
  · unfold evaluateSource at value_b
    rw [fails] at value_b
    cases value_b

/-- Literal text and an island that holds an object. -/
theorem parse_island_object : parse "a$\x7b\x7bk:x\x7d.k\x7d" .template =
    .ok (.document [.raw "a",
      .island (.getter (.object [(.identifier "k", .variable "x")]) (.identifier "k"))]) := by
  cbv

theorem island_object_ends :
    Lexer.EndsInIsland "a$\x7b\x7bk:x\x7d.k\x7d".toList ParseOptions.template.lexer :=
  ⟨[.raw "a", .openIsland, .punctuator "\x7b", .identifier "k", .punctuator ":", .identifier "x",
    .punctuator "\x7d", .punctuator ".", .identifier "k"], by cbv⟩

theorem parse_island_y :
    parse "b$\x7by\x7d" .template = .ok (.document [.raw "b", .island (.variable "y")]) := by
  cbv

theorem read_x_y : Json.parse? "\x7b\"x\":\"<\",\"y\":\"2\"\x7d".toList =
    some (.object [("x", .text "<"), ("y", .text "2")]) := by
  cbv

theorem render_append_islands :
    ParseOptions.template.form = .template ∧
    parse "a$\x7b\x7bk:x\x7d.k\x7d" .template = .ok (.document [.raw "a",
      .island (.getter (.object [(.identifier "k", .variable "x")]) (.identifier "k"))]) ∧
    Lexer.EndsInIsland "a$\x7b\x7bk:x\x7d.k\x7d".toList ParseOptions.template.lexer ∧
    ∀ clock,
      let env :=
        Environment.plain clock (.object [("x", .text "<"), ("y", .text "2")]) (some "html")
      evaluate "a$\x7b\x7bk:x\x7d.k\x7d" .template env = .ok (.text "a&lt;") ∧
      render ("a$\x7b\x7bk:x\x7d.k\x7d" ++ "b$\x7by\x7d") env =
        render "a$\x7b\x7bk:x\x7d.k\x7d" env ++ render "b$\x7by\x7d" env := by
  refine ⟨rfl, parse_island_object, island_object_ends, fun clock => ?_⟩
  have settled := Environment.settled_of_parse? read_x_y clock (some "html")
  have value : evaluate "a$\x7b\x7bk:x\x7d.k\x7d" .template (.plain clock
      (.object [("x", .text "<"), ("y", .text "2")]) (some "html")) = .ok (.text "a&lt;") := by
    rw [evaluate_of_parse parse_island_object]
    rfl
  refine ⟨value, (render_append rfl parse_island_object island_object_ends).2 rfl "b$\x7by\x7d" _
    settled rfl _ (.text "b2") value fun w => ?_⟩
  rw [evaluateSource_of_parse parse_island_y]
  rfl

end Joined

end TemplateFormula
