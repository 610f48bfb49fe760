import Mathlib
import TemplateFormula.Proofs.Evaluation.Simulation
import TemplateFormula.Proofs.Resolving.Words

/-!
# Two readings of a path

A path into the data can be read as an expression, parsed and evaluated, or taken apart by a scanner
of its own. Both lead to the same member, unless the path has an index behind a dot directly behind
another: the lexer reads the two as one number.
-/

namespace TemplateFormula

namespace Path

/-- The key of a segment as an expression. -/
def Segment.expr : Segment → Expr
  | name s => .identifier s
  | number n | index n => .number (Number.whole n)
  | key k => .text k

theorem Segment.words_ne_nil (s : Segment) : s.words ≠ [] := by
  cases s <;> exact List.cons_ne_nil _ _

/-- The members that a path stands for. -/
def expr (root : String) (segments : List Segment) : Expr :=
  segments.foldl (fun e s => .getter e s.expr) (.variable root)

end Path

namespace Parser

open TemplateFormula.Path (Segment)

/-- A cursor on these tokens and the last one. -/
def ahead (stop : Token) : List Token → Cursor
  | [] => ⟨stop, [], none⟩
  | t :: ts => ⟨t, ts ++ [stop], none⟩

variable {stop : Token} {names : List String} {d n : Nat} {host : Expr} {us : List Token}
  {segments : List Segment}

theorem remaining_ahead (stop : Token) (us : List Token) :
    remaining (ahead stop us) = .ok ((us ++ [stop]).length, ahead stop us) := by
  cases us <;> rfl

theorem tokens_cons {w : Word} {ws : List Word} {vs : List Token}
    (h : vs.map Token.word = w :: ws) :
    ∃ r p q vs', vs = ⟨w.1, r, p, q⟩ :: vs' ∧ (Token.text ⟨w.1, r, p, q⟩).toList = w.2 ∧
      vs'.map Token.word = ws := by
  obtain ⟨⟨k, r, p, q⟩, vs', rfl, rfl, more⟩ := List.map_eq_cons_iff.1 h
  exact ⟨r, p, q, vs', rfl, rfl, more⟩

theorem tokens_bracketed {w : Word} {vs : List Token}
    (h : vs.map Token.word = [(.punctuator "[", ['[']), w, (.punctuator "]", [']'])]) :
    ∃ r p q r' p' q' r'' p'' q'', vs = [⟨.punctuator "[", r, p, q⟩, ⟨w.1, r', p', q'⟩,
      ⟨.punctuator "]", r'', p'', q''⟩] := by
  obtain ⟨r, p, q, vs, rfl, -, more⟩ := tokens_cons h
  obtain ⟨r', p', q', vs, rfl, -, more⟩ := tokens_cons more
  obtain ⟨r'', p'', q'', vs, rfl, -, none_⟩ := tokens_cons more
  obtain rfl := List.map_eq_nil_iff.1 none_
  exact ⟨r, p, q, r', p', q', r'', p'', q'', rfl⟩

section Rows

variable {α : Type} {written : α → List Word} {key : α → Expr} {nested : Nested} {rest : List Token}
  {row : List α}

/-- Where each piece is parsed as one member more, a row of pieces is parsed as a chain of members,
up to tokens that no member begins with. -/
theorem membersOf_row
    (step : ∀ s host n vs us, vs.map Token.word = written s →
      membersOf nested (n + 1) host (ahead stop (vs ++ us)) =
        membersOf nested n (.getter host (key s)) (ahead stop us))
    (ends : ∀ host n, membersOf nested (n + 1) host (ahead stop rest) = .ok (host, ahead stop rest))
    (words : us.map Token.word = row.flatMap written) (enough : row.length < n) :
    membersOf nested n host (ahead stop (us ++ rest)) =
      .ok ((row.map key).foldl .getter host, ahead stop rest) := by
  obtain ⟨m, rfl⟩ : ∃ m, n = m + 1 := ⟨n - 1, by omega⟩
  induction row generalizing us host m with
  | nil =>
    obtain rfl := List.map_eq_nil_iff.1 words
    exact ends host m
  | cons s row ih =>
    rw [List.flatMap_cons] at words
    obtain ⟨vs, ws, rfl, first, others⟩ := List.map_eq_append_iff.1 words
    rw [List.length_cons] at enough
    obtain ⟨k, rfl⟩ : ∃ k, m = k + 1 := ⟨m - 1, by omega⟩
    rw [List.append_assoc, step s host (k + 1) vs (ws ++ rest) first]
    exact ih others k (by omega)

/-- A row has no more pieces than words. -/
theorem length_row (some_ : ∀ s, written s ≠ []) (row : List α) :
    row.length ≤ (row.flatMap written).length := by
  rw [List.length_flatMap, ← List.length_map (fun s => (written s).length)]
  refine List.length_le_sum_of_one_le _ fun k member => ?_
  obtain ⟨s, -, rfl⟩ := List.mem_map.1 member
  exact List.length_pos_iff.2 (some_ s)

end Rows

/-- A segment is parsed as one member more. -/
theorem membersOf_segment {vs : List Token} (s : Segment) (words : vs.map Token.word = s.words) :
    membersOf (nestedGoal names (d + 1)) (n + 1) host (ahead stop (vs ++ us)) =
      membersOf (nestedGoal names (d + 1)) n (.getter host s.expr) (ahead stop us) := by
  cases s with
  | name s =>
    obtain ⟨r, p, q, vs, rfl, -, more⟩ := tokens_cons words
    obtain ⟨r', p', q', vs, rfl, text, none_⟩ := tokens_cons more
    obtain rfl := List.map_eq_nil_iff.1 none_
    dsimp only at text ⊢
    rcases Scan.wordKind_cases s with name | ⟨v, keyword⟩
    · rw [name]
      cases us <;> rfl
    · rw [keyword] at text ⊢
      have read : membersOf (nestedGoal names (d + 1)) (n + 1) host
          (ahead stop ([⟨.punctuator ".", r, p, q⟩, ⟨v.token, r', p', q'⟩] ++ us)) =
          membersOf (nestedGoal names (d + 1)) n
            (.getter host (.identifier (Token.text ⟨v.token, r', p', q'⟩))) (ahead stop us) := by
        cases v <;> cases us <;> rfl
      rw [read, String.toList_inj.1 text]
      rfl
  | number m =>
    obtain ⟨r, p, q, vs, rfl, -, more⟩ := tokens_cons words
    obtain ⟨r', p', q', vs, rfl, -, none_⟩ := tokens_cons more
    obtain rfl := List.map_eq_nil_iff.1 none_
    cases us <;> rfl
  | index | key =>
    obtain ⟨r, p, q, r', p', q', r'', p'', q'', rfl⟩ := tokens_bracketed words
    cases us <;> rfl

theorem membersOf_segments (words : us.map Token.word = segments.flatMap Segment.words)
    (ends : stop.kind = .eof) (enough : segments.length < n) :
    membersOf (nestedGoal names (d + 1)) n host (ahead stop us) =
      .ok (segments.foldl (fun e s => .getter e s.expr) host, ahead stop []) := by
  have halts (host : Expr) (n : Nat) :
      membersOf (nestedGoal names (d + 1)) (n + 1) host (ahead stop []) =
        .ok (host, ahead stop []) := by
    obtain ⟨k, r, p, q⟩ := stop
    cases ends
    rfl
  have members : membersOf (nestedGoal names (d + 1)) n host (ahead stop (us ++ [])) =
      .ok ((segments.map Segment.expr).foldl .getter host, ahead stop []) :=
    membersOf_row (fun s _ _ _ _ => membersOf_segment s) halts words enough
  rwa [List.append_nil, List.foldl_map] at members

theorem variableName_written {root : String} {r : Option String} {p q : Position}
    (words : us.map Token.word = segments.flatMap Segment.words) (ends : stop.kind = .eof) :
    variableName names (nestedGoal names (d + 1)) (ahead stop (⟨.identifier root, r, p, q⟩ :: us)) =
      .ok (some (.variable root), ahead stop us) := by
  cases segments with
  | nil =>
    obtain rfl := List.map_eq_nil_iff.1 words
    obtain ⟨k, r, p, q⟩ := stop
    cases ends
    rfl
  | cons s segments =>
    rw [List.flatMap_cons] at words
    cases s <;>
      · obtain ⟨r, p, q, vs, rfl, -, -⟩ := tokens_cons words
        rfl

/-- A path is parsed as the members that it stands for. -/
theorem parse_path {root : String} (name : IsName root) (valid : ∀ s ∈ segments, s.Valid)
    (apart : Path.Apart segments) :
    parse (String.ofList (Path.written root segments)) .variableChain =
      .ok (Path.expr root segments) := by
  obtain ⟨t, ts, stop, read, words, ends⟩ := Path.cursor_written name valid apart true
  obtain ⟨r, p, q, vs, same, -, others⟩ := tokens_cons words
  obtain ⟨rfl, rfl⟩ := List.cons.inj same
  have enough : segments.length < (ts ++ [stop]).length := by
    have length := congrArg List.length others
    rw [List.length_map] at length
    rw [List.length_append, length]
    exact Nat.lt_succ_of_le (length_row Segment.words_ne_nil segments)
  have first : variableName ParseOptions.usualNamespaces
      (nestedGoal ParseOptions.usualNamespaces 64)
      (ahead stop (⟨.identifier root, r, p, q⟩ :: ts)) =
        .ok (some (.variable root), ahead stop ts) := variableName_written others ends
  have members : membersOf (nestedGoal ParseOptions.usualNamespaces 64) (ts ++ [stop]).length
      (.variable root) (ahead stop ts) = .ok (Path.expr root segments, ahead stop []) :=
    membersOf_segments others ends enough
  have chain : withMembers (nestedGoal ParseOptions.usualNamespaces 64)
      (variableName ParseOptions.usualNamespaces (nestedGoal ParseOptions.usualNamespaces 64))
      (ahead stop (⟨.identifier root, r, p, q⟩ :: ts)) =
        .ok (some (Path.expr root segments), ahead stop []) :=
    (bind_of_ok first).trans ((bind_of_ok (remaining_ahead stop ts)).trans (bind_of_ok members))
  have whole : Parser.source .variableChain (ahead stop (⟨.identifier root, r, p, q⟩ :: ts)) =
      .ok (Path.expr root segments, ahead stop []) := by
    obtain ⟨k, r', p', q'⟩ := stop
    cases ends
    exact (bind_of_ok (bind_of_ok chain)).trans rfl
  have lexer : ParseOptions.variableChain.lexer = ⟨true, true⟩ := rfl
  rw [parse, String.toList_ofList, lexer, read]
  exact congrArg (Except.map Prod.fst) whole

end Parser

namespace Eval

open TemplateFormula.Path (Segment)

section Values

variable {σ : Type} {env : Environment σ} {m : Machine σ} {e : Expr} {v : Value}

/-- Whenever the expression has a value it is this one, and the machine stays as it is. -/
def Denotes (env : Environment σ) (m : Machine σ) (e : Expr) (v : Value) : Prop :=
  ∀ n r m', within n .handled e env m = (.ok r, m') → r = v ∧ m' = m

theorem denotes_of_rule (builtin : ∀ k, env.options.nodeHandler? k = none)
    (rules : ∀ n r m', rule n (within n) e env m = (.ok r, m') → r = v ∧ m' = m) :
    Denotes env m e v := by
  intro n r m' value
  cases n with
  | zero => cases value
  | succ n =>
    rw [within_builtin (builtin _)] at value
    exact rules n r m' value

theorem denotes_variable (builtin : ∀ k, env.options.nodeHandler? k = none) (name : String) :
    Denotes env m (.variable name) (Scope.lookUp env.data name m.scopes) := by
  refine denotes_of_rule builtin fun n r m' value => ?_
  cases value
  exact ⟨rfl, rfl⟩

/-- The value of a segment as an expression. -/
def keyOf : Segment → Value
  | .name s | .key s => .text s
  | .number n | .index n => .number (Number.whole n)

theorem denotes_key (builtin : ∀ k, env.options.nodeHandler? k = none) (s : Segment) :
    Denotes env m s.expr (keyOf s) := by
  refine denotes_of_rule builtin fun n r m' value => ?_
  cases s <;>
    · cases value
      exact ⟨rfl, rfl⟩

theorem memberAt_of_isNullish {v : Value} (h : v.isNullish = true) (key : String) :
    v.memberAt key = .undefined := by
  cases v with
  | undefined | null => rfl
  | _ => cases h

theorem propertyKey_keyOf {s : Segment} (valid : s.Valid) (zone : Calendar.Zone) :
    (keyOf s).propertyKey zone = String.ofList s.keyChars := by
  cases s with
  | name s | key s => rfl
  | number n | index n => exact congrArg String.ofList (Number.chars_whole valid)

theorem Denotes.member (builtin : ∀ k, env.options.nodeHandler? k = none)
    (host : Denotes env m e v) {s : Segment} (valid : s.Valid) :
    Denotes env m (.getter e s.expr) (v.memberAt (String.ofList s.keyChars)) := by
  refine denotes_of_rule builtin fun n r m' value => ?_
  change (within n .handled e >>= fun h => within n .handled s.expr >>= fun k => _) env m = _
    at value
  rw [bind_def] at value
  rcases first : within n .handled e env m with ⟨_ | h, m₁⟩
  · rw [first] at value
    cases value
  obtain ⟨rfl, rfl⟩ := host n h m₁ first
  rw [first] at value
  dsimp only at value
  rw [bind_def] at value
  rcases second : within n .handled s.expr env m₁ with ⟨_ | k, m₂⟩
  · rw [second] at value
    cases value
  obtain ⟨rfl, rfl⟩ := denotes_key builtin s n k m₂ second
  rw [second] at value
  dsimp only at value
  have key : keyValue s.expr (keyOf s) = keyOf s := by cases s <;> rfl
  by_cases nullish : h.isNullish = true
  · rw [if_pos nullish] at value
    cases value
    exact ⟨(memberAt_of_isNullish nullish _).symm, rfl⟩
  · rw [if_neg nullish, key] at value
    cases value
    exact ⟨congrArg h.memberAt (propertyKey_keyOf valid env.zone), rfl⟩

theorem Denotes.members (builtin : ∀ k, env.options.nodeHandler? k = none)
    (host : Denotes env m e v) {segments : List Segment} (valid : ∀ s ∈ segments, s.Valid) :
    Denotes env m (segments.foldl (fun e s => .getter e s.expr) e)
      (Path.walk v (segments.map Segment.keyChars)) := by
  induction segments generalizing e v with
  | nil => exact host
  | cons s segments ih =>
    obtain ⟨first, others⟩ := List.forall_mem_cons.1 valid
    exact ih (host.member builtin first) others

end Values

end Eval

namespace Path

variable {root : String} {segments : List Segment}

/-- A path whose indices behind dots stand apart is looked up as it is taken apart, whatever the
data, unless there is a member spelled like the whole path. -/
theorem resolveVariable_eq_resolve (name : IsName root) (valid : ∀ s ∈ segments, s.Valid)
    (apart : Apart segments) (clock : Calendar.Clock) (data : Value)
    (fresh : ∀ ms, data = .object ms → ms.lookup (String.ofList (written root segments)) = none) :
    resolveVariable (String.ofList (written root segments)) clock data =
      resolve (written root segments) data := by
  let env := Environment.plain clock data none
  have builtin (k : Kind) : env.options.nodeHandler? k = none := rfl
  have other : root ≠ wholeName := by
    rintro rfl
    obtain ⟨d, ds, split, first, _⟩ := name.1
    obtain ⟨rfl, rfl⟩ : '&' = d ∧ [] = ds := List.cons.inj split
    cases first
  have denotes := (Eval.denotes_variable (m := .start clock ()) builtin root).members builtin valid
  have start : Scope.lookUp env.data root (Machine.start clock ()).scopes = data.memberAt root :=
    if_neg other
  have followed : resolve (written root segments) data =
      walk (data.memberAt root) (segments.map Segment.keyChars) := by
    rw [resolve_written name.1 valid fresh, walk, List.foldl_cons, String.ofList_toList]
    rfl
  rw [start] at denotes
  have outcome : evaluate (String.ofList (written root segments)) .variableChain env =
      (Eval.within Eval.usualLimit .handled (expr root segments) env (.start clock ())).1.mapError
        .ofHalt := by
    rw [evaluate, evaluateSource, Parser.parse_path name valid apart]
    rfl
  rw [resolveVariable, outcome, String.toList_ofList]
  rcases found : Eval.within Eval.usualLimit .handled (expr root segments) env (.start clock ())
    with ⟨_ | v, m⟩
  · rfl
  · obtain ⟨rfl, -⟩ := denotes _ _ _ found
    exact followed.symm

/-- Segments of every kind. -/
def mixed : List Segment := [.name "null", .index 0, .key "x y", .number 1]

/-- Data with a member that `mixed` leads to. -/
def mixedData : Value :=
  .object [("a", .object [("null", .array [.object [("x y", .text "uv")]])])]

theorem resolveVariable_eq_resolve_mixed :
    IsName "a" ∧ (∀ s ∈ mixed, s.Valid) ∧ Apart mixed ∧
      (∀ ms, mixedData = .object ms → ms.lookup (String.ofList (written "a" mixed)) = none) ∧
      ∀ clock, resolveVariable "a.null[0][\"x y\"].1" clock mixedData = .text "v" := by
  have name : IsName "a" := ⟨⟨'a', [], rfl, rfl, by simp⟩, by decide⟩
  have word : Scan.IsWord "null" := by
    refine ⟨'n', ['u', 'l', 'l'], rfl, rfl, ?_⟩
    simp only [List.forall_mem_cons]
    exact ⟨rfl, rfl, rfl, by simp⟩
  have valid : ∀ s ∈ mixed, s.Valid := by
    simp only [mixed, List.forall_mem_cons]
    exact ⟨word, by simp [Segment.Valid], by simp [Segment.Valid], by simp [Segment.Valid], by simp⟩
  have apart : Apart mixed := by simp [Apart, mixed, Segment.isNumber]
  have path : String.ofList (written "a" mixed) = "a.null[0][\"x y\"].1" := by rfl
  have fresh : ∀ ms, mixedData = .object ms →
      ms.lookup (String.ofList (written "a" mixed)) = none := by
    intro ms members
    cases members
    rw [path]
    rfl
  refine ⟨name, valid, apart, fresh, fun clock => ?_⟩
  have same := resolveVariable_eq_resolve name valid apart clock mixedData fresh
  rw [path] at same
  exact same.trans rfl

/-! ### Indices behind dots that touch -/

/-- What `a.0.0` is parsed as. -/
def joined : Expr := .getter (.variable "a") (.number 0)

theorem parse_joined : parse "a.0.0" .variableChain = .ok joined := by cbv

/-- Data with an array in an array. -/
def nestedData : Value := .object [("a", .array [.array [.number 5]])]

theorem denotes_joined (clock : Calendar.Clock) :
    Eval.Denotes (.plain clock nestedData none) (.start clock ()) joined
      (.array [.number 5]) := by
  have builtin (k : Kind) :
      (Environment.plain clock nestedData none).options.nodeHandler? k = none := rfl
  have small : (Segment.number 0).Valid := by simp [Segment.Valid]
  have host : Eval.Denotes (.plain clock nestedData none) (.start clock ()) (.variable "a")
      (.array [.array [.number 5]]) := Eval.denotes_variable builtin "a"
  exact host.member builtin small

/-- Two indices behind dots are read as one number, which leads to the member at the first. -/
theorem resolveVariable_joined_indices :
    resolve "a.0.0".toList nestedData = .number 5 ∧
      ∀ clock, resolveVariable "a.0.0" clock nestedData = .array [.number 5] := by
  refine ⟨rfl, fun clock => ?_⟩
  have reached (k : Nat) : ∃ r m, Eval.within (k + 2) .handled joined
      (.plain clock nestedData none) (.start clock ()) = (.ok r, m) := ⟨_, _, rfl⟩
  obtain ⟨r, m, found⟩ := reached (Eval.usualLimit - 2)
  obtain ⟨rfl, rfl⟩ := denotes_joined clock _ _ _ found
  have outcome : evaluate "a.0.0" .variableChain (.plain clock nestedData none) =
      (Eval.within (Eval.usualLimit - 2 + 2) .handled joined (.plain clock nestedData none)
        (.start clock ())).1.mapError .ofHalt := by
    rw [evaluate, evaluateSource, parse_joined]
    rfl
  rw [resolveVariable, outcome, found]
  rfl

end Path

end TemplateFormula
