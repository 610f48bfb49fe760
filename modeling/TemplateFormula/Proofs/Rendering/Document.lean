import TemplateFormula.Proofs.Evaluation.Simulation

/-!
# The text of a document

A document is shown as the texts of its parts one after another, whether it has one part, many or
none, and a template is rendered as the text of its document.
-/

namespace TemplateFormula

namespace Eval

variable {σ : Type} {env : Environment σ}

theorem shown_apply (v : Value) (m : Machine σ) :
    shown v env m = (.ok (v.shownChars env.zone), m) := rfl

/-- A document is shown as the texts of its parts, also where it has the value of its one part. -/
theorem document_shown (eval : Entry → Expr → Eval σ Value) (parts : List Expr) (m : Machine σ) :
    (document eval parts >>= shown) env m = glued (eval .handled) parts env m := by
  match parts with
  | [] => rfl
  | [e] =>
    simp only [document, glued, bind_def]
    rcases eval .handled e env m with ⟨h | v, m₁⟩
    · rfl
    · simp only [shown_apply, pure_apply, List.append_nil]
  | e :: e' :: es =>
    have spread : document eval (e :: e' :: es) =
        glued (eval .handled) (e :: e' :: es) >>= fun cs => pure (.ofChars cs) := rfl
    rw [spread, bind_def, bind_def]
    generalize glued (eval .handled) (e :: e' :: es) env m = outcome
    obtain ⟨h | cs, m₁⟩ := outcome
    · rfl
    · change (Except.ok (String.ofList cs).toList, m₁) = _
      rw [String.toList_ofList]

theorem evaluate_document_shown (builtin : env.options.nodeHandler? .document = none) (n : Nat)
    (parts : List Expr) (m : Machine σ) :
    (evaluate (n + 1) (.document parts) >>= shown) env m = glued (evaluate n) parts env m := by
  rw [bind_def, evaluate, within_builtin builtin, rule]
  exact document_shown (within n) parts m

/-- Texts of further parts are added behind. -/
theorem glued_append (eval : Expr → Eval σ Value) (es fs : List Expr) :
    glued eval (es ++ fs) = (do return (← glued eval es) ++ (← glued eval fs)) := by
  induction es with
  | nil =>
    funext env m
    simp only [List.nil_append, glued, bind_def, pure_apply]
    rcases glued eval fs env m with ⟨_ | _, _⟩ <;> rfl
  | cons e es ih =>
    funext env m
    simp only [List.cons_append, glued, ih, bind_def]
    rcases eval e env m with ⟨_ | v, m₁⟩
    · rfl
    · simp only [shown_apply]
      rcases glued eval es env m₁ with ⟨_ | cs, m₂⟩
      · rfl
      · simp only [pure_apply]
        rcases glued eval fs env m₂ with ⟨_ | ds, m₃⟩
        · rfl
        · simp only [List.append_assoc]

end Eval

theorem evaluateSource_of_parse {σ : Type} {source : String} {options : ParseOptions} {e : Expr}
    (parsed : parse source options = .ok e) (env : Environment σ) (m : Machine σ) :
    (evaluateSource source options env m).1 =
      (Eval.evaluate Eval.usualLimit e env m).1.mapError .ofHalt := by
  unfold evaluateSource
  rw [parsed]
  rfl

theorem evaluate_of_parse {source : String} {options : ParseOptions} {e : Expr}
    (parsed : parse source options = .ok e) (env : Environment Unit) :
    evaluate source options env =
      (Eval.evaluate Eval.usualLimit e env (.start env.clock ())).1.mapError .ofHalt :=
  evaluateSource_of_parse parsed env _

/-- A template whose tree has a value is rendered as the text of the value, any other as itself. -/
theorem render_shown {source : String} {e : Expr} (parsed : parse source .template = .ok e)
    (env : Environment Unit) :
    render source env =
      match (Eval.evaluate Eval.usualLimit e >>= Eval.shown) env (.start env.clock ()) with
      | (.ok cs, _) => String.ofList cs
      | (.error _, _) => source := by
  unfold render
  rw [evaluate_of_parse parsed, Eval.bind_def]
  generalize Eval.evaluate Eval.usualLimit e env (.start env.clock ()) = outcome
  obtain ⟨h | v, m⟩ := outcome
  · rfl
  · rfl

end TemplateFormula
