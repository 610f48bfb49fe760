import TemplateFormula.Proofs.Evaluation.Simulation
import TemplateFormula.Proofs.Json.Form
import TemplateFormula.Proofs.Printing.RoundTrip

/-!
# JSON as a part of the language

The JSON of a value without dates, functions and missing values is an expression. In either layout
it is read as the same tokens and parsed as a tree of literals, and the value of this tree is the
value again, but for the sign of its zeros.
-/

namespace TemplateFormula

namespace Value

/-- The values that JSON has. -/
inductive IsJson : Value → Prop where
  | null : IsJson null
  | boolean (b : Bool) : IsJson (boolean b)
  | number {x : Float} (finite : x.isFinite = true) (h : Number.ReadsBack x) : IsJson (number x)
  | text (s : String) : IsJson (text s)
  | array {items : List Value} (h : ∀ v ∈ items, IsJson v) : IsJson (array items)
  | object {ms : Members} (order : ms.Ascending) (h : ∀ m ∈ ms, IsJson m.2) : IsJson (object ms)

mutual

/-- The value with the sign taken from its zeros. -/
def unsignedZeros : Value → Value
  | number x => number (if Number.isZero x then 0 else x)
  | array items => array (unsignedZerosItems items)
  | object ms => object (unsignedZerosMembers ms)
  | v => v

def unsignedZerosItems : List Value → List Value
  | [] => []
  | v :: vs => unsignedZeros v :: unsignedZerosItems vs

def unsignedZerosMembers : List (String × Value) → List (String × Value)
  | [] => []
  | (k, v) :: ms => (k, unsignedZeros v) :: unsignedZerosMembers ms

end

mutual

/-- The literals that make up a value. -/
def toExpr : Value → Expr
  | null => .literal .null
  | boolean b => .literal (.boolean b)
  | number x => .number x
  | text s => .text s
  | array items => .array (toExprItems items)
  | object ms => .object (toExprMembers ms)
  | undefined | date _ | function _ => .literal .undefined

def toExprItems : List Value → List Expr
  | [] => []
  | v :: vs => toExpr v :: toExprItems vs

def toExprMembers : List (String × Value) → List (Expr × Expr)
  | [] => []
  | (k, v) :: ms => (.text k, toExpr v) :: toExprMembers ms

end

open Written in
mutual

/-- The kinds of the tokens of the JSON of a value. -/
def tokens : Value → List TokenKind
  | boolean b => [.boolean b]
  | number x => [.number (if Number.isZero x then 0 else x)]
  | text s => [.text s]
  | array items => listedTokens "[" "]" (tokensItems items)
  | object ms => listedTokens "\x7b" "\x7d" (tokensMembers ms)
  | null | undefined | date _ | function _ => [.null]

def tokensItems : List Value → List (List TokenKind)
  | [] => []
  | v :: vs => tokens v :: tokensItems vs

def tokensMembers : List (String × Value) → List (List TokenKind)
  | [] => []
  | (k, v) :: ms => ([.text k] ++ punct ":" :: tokens v) :: tokensMembers ms

end

theorem unsignedZerosItems_eq (items : List Value) :
    unsignedZerosItems items = items.map unsignedZeros := by
  induction items with
  | nil => rfl
  | cons v vs ih => rw [unsignedZerosItems, ih, List.map_cons]

theorem unsignedZerosMembers_eq (ms : Members) :
    unsignedZerosMembers ms = ms.map fun m => (m.1, m.2.unsignedZeros) := by
  induction ms with
  | nil => rfl
  | cons m ms ih => rw [unsignedZerosMembers, ih, List.map_cons]

theorem toExprItems_eq (items : List Value) : toExprItems items = items.map toExpr := by
  induction items with
  | nil => rfl
  | cons v vs ih => rw [toExprItems, ih, List.map_cons]

theorem toExprMembers_eq (ms : Members) :
    toExprMembers ms = ms.map fun m => (.text m.1, m.2.toExpr) := by
  induction ms with
  | nil => rfl
  | cons m ms ih => rw [toExprMembers, ih, List.map_cons]

theorem tokensItems_eq (items : List Value) : tokensItems items = items.map tokens := by
  induction items with
  | nil => rfl
  | cons v vs ih => rw [tokensItems, ih, List.map_cons]

theorem tokensMembers_eq (ms : Members) :
    tokensMembers ms = ms.map fun m => [.text m.1] ++ Written.punct ":" :: m.2.tokens := by
  induction ms with
  | nil => rfl
  | cons m ms ih => rw [tokensMembers, ih, List.map_cons]

theorem IsJson.not_skipped {v : Value} (h : v.IsJson) : Json.isSkipped v = false := by
  cases h <;> rfl

/-- The first token of a value is no closing bracket and not the end. -/
theorem tokens_first {v : Value} :
    ∃ k is, v.tokens = k :: is ∧ k.isPunctuator "]" = false ∧ k ≠ .eof := by
  cases v with
  | array items => exact ⟨_, _, by rw [tokens]; rfl, rfl, TokenKind.noConfusion⟩
  | object ms => exact ⟨_, _, by rw [tokens]; rfl, rfl, TokenKind.noConfusion⟩
  | _ => exact ⟨_, _, by rw [tokens], rfl, TokenKind.noConfusion⟩

end Value

namespace Lexer

theorem isGap_of_isBlank {cs : List Char} (h : Json.IsBlank cs) : IsGap cs := by
  intro c hc
  have hspace := h c hc
  simp only [Json.isSpace, isSpace, Bool.or_eq_true, beq_iff_eq] at hspace ⊢
  tauto

/-- The lexer reads the JSON of a value as its tokens, in either layout. -/
theorem spells_json (zone : Calendar.Zone) (indent : Nat) {v : Value} (h : v.IsJson) {base : Nat}
    {ms : List Mode} (hm : InExpression ms) (hbase : base ≤ ms.length) (level : Nat) :
    SpellsItem base ms (Json.chars zone indent level v) v.tokens := by
  induction h generalizing ms level with
  | null =>
    intro rest hrest
    simp only [Json.chars, Value.tokens]
    exact spells_literal .null hm hrest
  | boolean b =>
    intro rest hrest
    simp only [Json.chars, Value.tokens]
    cases b
    · exact spells_literal (.boolean false) hm hrest
    · exact spells_literal (.boolean true) hm hrest
  | number finite h =>
    intro rest hrest
    simp only [Json.chars, Value.tokens, if_pos finite]
    exact spells_number hm h hrest
  | text s =>
    intro rest _
    simp only [Json.chars, Value.tokens]
    exact spells_text s hm
  | @array items h ih =>
    intro rest _
    obtain ⟨lead, post, hlead, hpost, hlayout⟩ := Json.bracket_layout indent level '[' ']'
      (items.map (Json.chars zone indent (level + 1)))
    have hitems : List.Forall₂ (SpellsItem base ms)
        (items.map (Json.chars zone indent (level + 1))) (items.map Value.tokens) := by
      rw [List.forall₂_map_left_iff, List.forall₂_map_right_iff, List.forall₂_same]
      exact fun v hv => ih v hv hm hbase (level + 1)
    rw [Json.chars, Json.itemChars_eq, hlayout, Value.tokens, Value.tokensItems_eq]
    exact spells_spaced hm (isGap_of_isBlank hlead) (isGap_of_isBlank hlead)
      (isGap_of_isBlank hpost) hitems (.inr ⟨rfl, rfl, rfl, rfl⟩)
  | @object members order h ih =>
    intro rest _
    have hblock : InExpression (.block :: ms) := .inr rfl
    have hfilter : (members.filter fun m => !Json.isSkipped m.2) = members := by
      refine List.filter_eq_self.2 fun m hmem => ?_
      rw [(h m hmem).not_skipped, Bool.not_false]
    obtain ⟨gap, hgap, hcolon⟩ := Json.colon_layout indent
    obtain ⟨lead, post, hlead, hpost, hlayout⟩ := Json.bracket_layout indent level '\x7b' '\x7d'
      (Json.memberChars zone indent (level + 1) members)
    have hmembers : List.Forall₂ (SpellsItem base (.block :: ms))
        (Json.memberChars zone indent (level + 1) members) (Value.tokensMembers members) := by
      rw [Json.memberChars_eq, hfilter, Value.tokensMembers_eq, List.forall₂_map_left_iff,
        List.forall₂_map_right_iff, List.forall₂_same, hcolon]
      intro m hmem
      have hvalue := ih m hmem hblock (Nat.le_succ_of_le hbase) (level + 1)
      exact spells_member m.1 hblock (isGap_of_isBlank hgap) hvalue
    rw [Json.chars, hlayout, Value.tokens]
    exact spells_object hm hbase (isGap_of_isBlank hlead) (isGap_of_isBlank hlead)
      (isGap_of_isBlank hpost) hmembers

end Lexer

namespace Parser

/-- The tokens of a value are parsed as its literals, with a level to spend for each level of arrays
and objects and one more. -/
theorem parses_json {ns : List String} {v : Value} (h : v.IsJson) {depth : Nat}
    (hdepth : v.nesting < depth) :
    ParsesItem (nestedGoal ns depth) v.tokens v.unsignedZeros.toExpr := by
  intro k js hk
  induction h generalizing depth k js with
  | null =>
    obtain ⟨depth, rfl⟩ := Nat.exists_eq_add_of_lt hdepth
    simp only [Value.tokens, Value.unsignedZeros, Value.toExpr]
    exact parses_leaf .null hk
  | boolean b =>
    obtain ⟨depth, rfl⟩ := Nat.exists_eq_add_of_lt hdepth
    simp only [Value.tokens, Value.unsignedZeros, Value.toExpr]
    exact parses_leaf (.boolean b) hk
  | number finite h =>
    obtain ⟨depth, rfl⟩ := Nat.exists_eq_add_of_lt hdepth
    simp only [Value.tokens, Value.unsignedZeros, Value.toExpr]
    exact parses_numeral _ hk
  | text s =>
    obtain ⟨depth, rfl⟩ := Nat.exists_eq_add_of_lt hdepth
    simp only [Value.tokens, Value.unsignedZeros, Value.toExpr]
    exact parses_quoted s hk
  | @array items h ih =>
    obtain ⟨depth, rfl⟩ : ∃ d, depth = d + 1 := ⟨depth - 1, by omega⟩
    have hitems : List.Forall₂ (ParsesItem (nestedGoal ns depth)) (items.map Value.tokens)
        (items.map fun v => v.unsignedZeros.toExpr) := by
      rw [List.forall₂_map_left_iff, List.forall₂_map_right_iff, List.forall₂_same]
      intro v hv k js hk
      have hless := Value.nesting_lt_array hv
      exact ih v hv (by omega) k js hk
    have hfirst : ∀ ks ∈ items.map Value.tokens, Avoids "]" ks := by
      intro ks hks
      obtain ⟨v, _, rfl⟩ := List.mem_map.1 hks
      obtain ⟨k, is, htokens, hclose, _⟩ := v.tokens_first
      exact ⟨k, is, htokens, hclose⟩
    rw [nestedGoal_succ]
    simp only [Value.tokens, Value.tokensItems_eq, Value.unsignedZeros, Value.unsignedZerosItems_eq,
      Value.toExpr, Value.toExprItems_eq, List.map_map]
    exact parses_array hitems hfirst hk
  | @object members order h ih =>
    obtain ⟨depth, rfl⟩ : ∃ d, depth = d + 1 := ⟨depth - 1, by omega⟩
    have hmembers : ∀ m ∈ members.map fun m => (m.1, m.2.tokens, m.2.unsignedZeros.toExpr),
        ParsesItem (nestedGoal ns depth) m.2.1 m.2.2 := by
      intro triple htriple
      obtain ⟨m, hmem, rfl⟩ := List.mem_map.1 htriple
      intro k js hk
      have hless := Value.nesting_lt_object hmem
      exact ih m hmem (by omega) k js hk
    have hobject : Parses (conditional ns (nestedGoal ns depth)) _ _ (k :: js) :=
      parses_object hmembers hk
    rw [List.map_map, List.map_map] at hobject
    rw [nestedGoal_succ]
    simp only [Value.tokens, Value.tokensMembers_eq, Value.unsignedZeros,
      Value.unsignedZerosMembers_eq, Value.toExpr, Value.toExprMembers_eq, List.map_map]
    exact hobject

end Parser

namespace Eval

variable {σ : Type} {env : Environment σ}

theorem all_of_ok {eval : Expr → Eval σ Value} {m : Machine σ} {es : List Expr} {vs : List Value}
    (h : List.Forall₂ (fun e v => eval e env m = (.ok v, m)) es vs) :
    all eval es env m = (.ok vs, m) := by
  induction h with
  | nil => rfl
  | cons hv _ ih => simp only [all, bind_def, hv, ih, pure_apply]

/-- Members that come in order are put behind each other. -/
theorem members_of_ok {eval : Entry → Expr → Eval σ Value} {m : Machine σ} {ms : Members}
    (hkey : ∀ s, eval .handled (.text s) env m = (.ok (.text s), m))
    {entries : Members} (order : (ms ++ entries).Ascending)
    (h : ∀ e ∈ entries, eval .handled e.2.toExpr env m = (.ok e.2, m)) :
    members eval ms (entries.map fun e => (.text e.1, e.2.toExpr)) env m =
      (.ok (ms ++ entries), m) := by
  induction entries generalizing ms with
  | nil => simp [members]
  | cons e entries ih =>
    have hlast : ms.insert e.1 e.2 = ms ++ [e] :=
      Members.insert_last e.2 fun n hn => (List.pairwise_append.1 order).2.2 n hn e (by simp)
    have hvalue := h e (by simp)
    have hmore := @ih (ms ++ [e]) (by simpa using order) fun n hn => h n (by simp [hn])
    have hname := Value.propertyKey_text env.zone e.1
    rw [List.append_assoc] at hmore
    simp only [List.map_cons, members, bind_def, hkey, hvalue, ask, hname, hlast]
    exact hmore

/-- The literals of a value evaluate to the value, whatever the data. -/
theorem evaluate_literals (hno : env.options.handlers = []) {v : Value} (h : v.IsJson)
    {limit : Nat} (hlimit : v.nesting < limit) (m : Machine σ) :
    evaluate limit v.unsignedZeros.toExpr env m = (.ok v.unsignedZeros, m) := by
  have hrule (n : Nat) (e : Expr) (m : Machine σ) :
      within (n + 1) .handled e env m = rule n (within n) e env m :=
    within_builtin (by simp [Options.nodeHandler?, hno]) m
  induction h generalizing limit with
  | @array items h ih =>
    obtain ⟨n, rfl⟩ : ∃ n, limit = n + 1 := ⟨limit - 1, by omega⟩
    have hitems : List.Forall₂ (fun e v => within n .handled e env m = (.ok v, m))
        (items.map fun v => v.unsignedZeros.toExpr) (items.map Value.unsignedZeros) := by
      rw [List.forall₂_map_left_iff, List.forall₂_map_right_iff, List.forall₂_same]
      intro v hv
      have hless := Value.nesting_lt_array hv
      exact ih v hv (by omega)
    simp only [Value.unsignedZeros, Value.unsignedZerosItems_eq, Value.toExpr,
      Value.toExprItems_eq, List.map_map, Function.comp_def, evaluate, hrule, rule, bind_def,
      all_of_ok hitems, pure_apply]
  | @object entries order h ih =>
    obtain ⟨n, rfl⟩ : ∃ n, limit = n + 2 := ⟨limit - 2, by rw [Value.nesting] at hlimit; omega⟩
    have hkey (s : String) : within (n + 1) .handled (.text s) env m = (.ok (.text s), m) := by
      rw [hrule]
      rfl
    have hsorted : Members.Ascending (entries.map fun e => (e.1, e.2.unsignedZeros)) :=
      List.pairwise_map.2 order
    have hvalues : ∀ e ∈ entries.map fun e => (e.1, e.2.unsignedZeros),
        within (n + 1) .handled e.2.toExpr env m = (.ok e.2, m) := by
      intro e he
      obtain ⟨e, hmem, rfl⟩ := List.mem_map.1 he
      have hless := Value.nesting_lt_object hmem
      exact ih e hmem (by omega)
    have hmembers : members (within (n + 1)) [] _ env m = (.ok ([] ++ _), m) :=
      members_of_ok hkey hsorted hvalues
    simp only [Value.unsignedZeros, Value.unsignedZerosMembers_eq, Value.toExpr,
      Value.toExprMembers_eq, evaluate, hrule (n + 1), rule, bind_def, hmembers, List.nil_append,
      pure_apply]
  | _ =>
    obtain ⟨n, rfl⟩ := Nat.exists_eq_add_of_lt hlimit
    simp only [Value.unsignedZeros, Value.toExpr, evaluate, hrule, rule, pure_apply,
      Value.ofLiteral]

end Eval

/-- The JSON of a value, in either layout, is a source text of the value itself, but for the sign of
its zeros. -/
theorem json_evaluates_to_itself {v : Value} (h : v.IsJson) (zone : Calendar.Zone) (indent : Nat)
    {o : ParseOptions} (hform : o.form = .expression) (hdepth : v.nesting < o.maxDepth) :
    parse (Json.print zone indent v) o = .ok v.unsignedZeros.toExpr ∧
    ∀ {σ : Type} (env : Environment σ) (m : Machine σ) (limit : Nat),
      env.options.handlers = [] → v.nesting < limit →
      Eval.evaluate limit v.unsignedZeros.toExpr env m = (.ok v.unsignedZeros, m) := by
  refine ⟨?_, fun env m limit hno hlimit => Eval.evaluate_literals hno h hlimit m⟩
  have hprint : Json.print zone indent v = String.ofList (Json.chars zone indent 0 v) := by
    simp [Json.print, Json.print?, h.not_skipped]
  have hspells : Lexer.Spells 2 [.expression, .start] false (Json.chars zone indent 0 v) v.tokens
      true [] :=
    Lexer.spells_json zone indent h (.inl rfl) (Nat.le_refl 2) 0 [] (by rintro c ⟨⟩)
  obtain ⟨k, is, htokens, _, hk⟩ := v.tokens_first
  rw [hprint]
  exact parse_of_spells hform hspells ⟨k, is, htokens, hk⟩
    (Parser.parses_json h hdepth .eof [] ⟨rfl, rfl, rfl, rfl, rfl⟩)

/-- A list with a negative zero and a number, and a text with escapes. -/
def Value.listing : Value :=
  .object [("a", .array [.number (-0), .number 2, .null]), ("b", .text "x\n\"")]

theorem Value.isJson_listing : Value.listing.IsJson := by
  have hzero : Number.ReadsBack (-0) := ⟨⟨true, 0, -1074⟩, by rfl, .inl rfl⟩
  refine .object (by decide) ?_
  simp only [List.forall_mem_cons, List.not_mem_nil, false_imp_iff, implies_true, and_true]
  refine ⟨.array ?_, .text _⟩
  simp only [List.forall_mem_cons, List.not_mem_nil, false_imp_iff, implies_true, and_true]
  exact ⟨.number (by decide) hzero, .number (by decide) Number.readsBack_two, .null⟩

theorem listing_evaluates_to_itself :
    Value.listing.IsJson ∧ Value.listing.nesting < ParseOptions.expression.maxDepth ∧
    parse (Json.print ⟨0⟩ 2 Value.listing) .expression = .ok Value.listing.unsignedZeros.toExpr ∧
    ∀ clock data m, Eval.evaluate 3 Value.listing.unsignedZeros.toExpr (.plain clock data none) m =
      (.ok (.object [("a", .array [.number 0, .number 2, .null]), ("b", .text "x\n\"")]), m) := by
  have hnesting : Value.listing.nesting < ParseOptions.expression.maxDepth := by decide
  have hjson := json_evaluates_to_itself Value.isJson_listing ⟨0⟩ 2
    (o := .expression) rfl hnesting
  exact ⟨Value.isJson_listing, hnesting, hjson.1, fun clock data m =>
    hjson.2 (.plain clock data none) m 3 rfl (by decide)⟩

end TemplateFormula
