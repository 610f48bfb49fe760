import TemplateFormula.Proofs.Continuing.Expressions
import TemplateFormula.Proofs.Lexing.Continuing
import TemplateFormula.Proofs.Parsing.Endings
import TemplateFormula.Proofs.Printing.RoundTrip

/-!
# Source texts of expressions

A text that parses as an expression and is more than white space has tokens that end like an
expression, and its tree is what is parsed from them.
-/

namespace TemplateFormula.Parser

variable {o : ParseOptions} {src : String} {a : Expr}

/-- The kinds of the tokens of a text, the last one first, without the end of the text. -/
def kindsFromEnd (src : String) (o : ParseOptions) : List TokenKind :=
  (Lexer.ofSource src.toList o.lexer).tokens.reverse.tail.map (·.kind)

/-- The last token is the name of a namespace and does not name a member. -/
def endsBare (names : List String) : List TokenKind → Bool
  | .identifier name :: ks => names.contains name && !ks.head?.any (·.isPunctuator ".")
  | _ => false

/-- An expression with its tokens and the end of its text. -/
structure Sourced (src : String) (o : ParseOptions) (a : Expr) (ts : List Token) (t stop : Token) :
    Prop where
  tokens : (Lexer.ofSource src.toList ⟨true, o.allowFilter⟩).tokens = ts ++ [t, stop]
  good : (Lexer.ofSource src.toList ⟨true, o.allowFilter⟩).failure? = none
  stops : stop.kind = .eof
  inked : ∀ u ∈ ts ++ [t], u.kind ≠ .eof
  finished : Finished (ts ++ [t])
  parsed : ∀ c, Shows stop [] none (ts ++ [t]) c → ∃ c₁,
    expression (nestedGoal o.namespaces o.maxDepth) c = .ok (a, c₁) ∧ c₁.current.kind = .eof

theorem lexer_expression (form : o.form = .expression) : o.lexer = ⟨true, o.allowFilter⟩ := by
  rw [ParseOptions.lexer, form]
  rfl

theorem Sourced.kindsFromEnd_eq {ts : List Token} {t stop : Token} (h : Sourced src o a ts t stop)
    (form : o.form = .expression) : kindsFromEnd src o = (ts ++ [t]).reverse.map (·.kind) := by
  have whole : ts ++ [t, stop] = (ts ++ [t]) ++ [stop] := by simp
  rw [kindsFromEnd, lexer_expression form, h.tokens, whole, List.reverse_concat, List.tail_cons]

theorem Shows.eq {stop : Token} {more ts : List Token} {failure : Option LexError} {c c' : Cursor}
    (h : Shows stop more failure ts c) (h' : Shows stop more failure ts c') : c = c' := by
  obtain ⟨current, rest, f⟩ := c
  obtain ⟨current', rest', f'⟩ := c'
  have failure_eq : f = f' := h.failure.trans h'.failure.symm
  obtain ⟨rfl, rfl⟩ := List.cons.inj (h.tokens.trans h'.tokens.symm)
  rw [failure_eq]

/-- A text with these tokens is parsed as what is parsed from them. -/
theorem parse_of_tokens (form : o.form = .expression) {ts : List Token} {stop : Token}
    (tokens : (Lexer.ofSource src.toList ⟨true, o.allowFilter⟩).tokens = ts ++ [stop])
    (good : (Lexer.ofSource src.toList ⟨true, o.allowFilter⟩).failure? = none) (some_ : ts ≠ [])
    (inked : ∀ u ∈ ts, u.kind ≠ .eof) {c : Cursor} (shows : Shows stop [] none ts c) :
    parse src o = .ok a ↔ ∃ c₁, expression (nestedGoal o.namespaces o.maxDepth) c = .ok (a, c₁) ∧
      c₁.current.kind = .eof := by
  obtain ⟨c', read, shows', -⟩ := ofTokens_shows stop [] none ts
  obtain rfl := Shows.eq shows shows'
  have whole : Cursor.ofSource src.toList o.lexer = .ok c := by
    rw [lexer_expression form, Cursor.ofSource_eq, tokens, good]
    exact read
  have goes : ¬ c.current.isEof = true := by
    obtain ⟨t, us, rfl⟩ := List.exists_cons_of_ne_nil some_
    rw [Lexer.isEof_iff, shows.current]
    exact inked t List.mem_cons_self
  simp only [parse_expression form whole goes, Lexer.isEof_iff]

/-- The first end of the text among the tokens is the last token. -/
theorem front_eq {us vs ws : List Token} {stop t : Token} (whole : us ++ [stop] = vs ++ t :: ws)
    (inked : ∀ u ∈ us, u.kind ≠ .eof) (ends : t.kind = .eof) : vs = us := by
  rcases List.append_eq_append_iff.1 whole with ⟨xs, rfl, last⟩ | ⟨xs, rfl, last⟩
  · cases xs with
    | nil => exact List.append_nil us
    | cons x xs => simp at last
  · cases xs with
    | nil => exact (List.append_nil vs).symm
    | cons x xs =>
      obtain ⟨rfl, -⟩ := List.cons.inj last
      exact absurd ends (inked t (by simp))

/-- What parses as more than white space has tokens. -/
theorem exists_sourced (form : o.form = .expression) (parsed : parse src o = .ok a)
    (inked : ∃ c ∈ src.toList, Lexer.isSpace c = false) :
    ∃ ts t stop, Sourced src o a ts t stop := by
  have good : (Lexer.ofSource src.toList ⟨true, o.allowFilter⟩).failure? = none := by
    by_contra failed
    rw [← lexer_expression form] at failed
    exact parse_ne_of_failure (by rw [form]; exact SourceForm.noConfusion) failed a parsed
  have ready := Lexer.ofSource_ready src.toList ⟨true, o.allowFilter⟩
  obtain ⟨us, stop, tokens, stops⟩ := Lexer.tokens_end ready good
  have some_ : us ≠ [] := by
    rintro rfl
    obtain ⟨c, member, black⟩ := inked
    rw [Lexer.blank_of_tokens stops tokens c member] at black
    cases black
  have inked : ∀ u ∈ us, u.kind ≠ .eof := by
    obtain ⟨m, pulls, -⟩ := Lexer.pulls_of_tokens ready tokens (List.cons_ne_nil stop [])
    exact pulls.inked
  have exact_ {c : Cursor} (shows : Shows stop [] none us c) :=
    (parse_of_tokens form tokens good some_ inked shows).1 parsed
  have finished : Finished us := by
    obtain ⟨c, shows⟩ := exists_shows stop us
    obtain ⟨c₁, outcome, ends⟩ := exact_ shows
    have complete : c.Complete := by
      refine ⟨shows.failure, stop, ?_, stops⟩
      rw [shows.tokens, List.getLast?_concat]
    obtain ⟨complete₁, vs, split, finished⟩ := expression_consumes
      (ending_nestedGoal o.namespaces o.maxDepth) c a c₁ complete trivial outcome
    rw [shows.tokens] at split
    rwa [← front_eq split inked ends]
  obtain ⟨ts, t, rfl⟩ := List.eq_nil_or_concat' us |>.resolve_left some_
  exact ⟨ts, t, stop, by rw [tokens, List.append_assoc]; rfl, good, stops, inked, finished,
    fun c shows => exact_ shows⟩

theorem endsBare_name {names : List String} {k : TokenKind} {name : String}
    (named : k = .identifier name) (known : names.contains name = true) (ks : List TokenKind) :
    endsBare names (k :: ks) = !ks.head?.any (·.isPunctuator ".") := by
  rw [named, endsBare, known, Bool.true_and]

/-- The tokens of an expression go on in front of what may stand behind it, unless a colon makes a
namespace of the last one. -/
theorem Sourced.goes_on {ts us : List Token} {t stop v : Token} {more : List Token} {d : Nat}
    (h : Sourced src o a ts t stop) (stops : Stop v more)
    (clear : v.kind = .punctuator ":" →
      endsBare o.namespaces ((ts ++ [t]).reverse.map (·.kind)) = false)
    (le : o.maxDepth ≤ d) (alike : List.Forall₂ Token.Alike (ts ++ [t]) us) {c : Cursor}
    (shows : Shows v more none us c) :
    ∃ b c₁, expression (nestedGoal o.namespaces d) c = .ok (b, c₁) ∧
      Seam.Rest ⟨stop, v, more, o.namespaces, h.stops, stops⟩ 1 a b c₁ := by
  obtain ⟨c₀, shows₀⟩ := exists_shows stop (ts ++ [t])
  obtain ⟨c₁, outcome, ended⟩ := h.parsed c₀ shows₀
  let J : Seam := ⟨stop, v, more, o.namespaces, h.stops, stops⟩
  have ahead : J.Ahead (ts ++ [t]) c₀ c := by
    refine ⟨⟨shows₀, ⟨us, alike, shows⟩, h.inked, ?_⟩, ?_⟩
    · rintro us₁ u vs split ⟨colon, w, name, rfl, named, known⟩
      have clear := clear colon
      rw [split, List.reverse_append, List.reverse_cons, List.reverse_singleton, List.map_append,
        List.singleton_append, List.map_cons, List.cons_append, endsBare_name named known,
        List.map_cons, List.map_nil, List.singleton_append, List.head?_cons, Option.any_some,
        Bool.not_eq_false'] at clear
      exact Lexer.punctuator_of_isPunctuator clear
    · rintro ⟨colon, w, name, split, named, known⟩
      have clear := clear colon
      rw [split, List.reverse_singleton, List.map_cons, endsBare_name named known] at clear
      cases clear
  exact Seam.expression_continues le ahead outcome ended

/-- In front of a parenthesis, a colon or the end of the text they make the same expression. -/
theorem Sourced.same {ts us : List Token} {t stop v : Token} {more : List Token} {d : Nat}
    (h : Sourced src o a ts t stop) (stops : Stop v more) (other : v.kind ≠ .punctuator "-")
    (clear : v.kind = .punctuator ":" →
      endsBare o.namespaces ((ts ++ [t]).reverse.map (·.kind)) = false)
    (le : o.maxDepth ≤ d) (alike : List.Forall₂ Token.Alike (ts ++ [t]) us) {c : Cursor}
    (shows : Shows v more none us c) :
    expression (nestedGoal o.namespaces d) c = .ok (a, ⟨v, more, none⟩) := by
  obtain ⟨b, c₁, outcome, rest⟩ := h.goes_on stops clear le alike shows
  rcases rest with ⟨rfl, rfl, -⟩ | gone
  · exact outcome
  · exact absurd gone.minus other

/-- A text that is pulled up to its end is parsed as what is parsed from its tokens. -/
theorem parse_of_pulls (form : o.form = .expression) {text : String} {us : List Token} {l : Lexer}
    {after : Bool} (pulls : (Lexer.ofSource text.toList ⟨true, o.allowFilter⟩).Pulls us l)
    (last : Lexer.At 2 (Lexer.baseModes true) [] after l) (some_ : us ≠ []) :
    ∃ stop, stop.kind = .eof ∧ stop.raw = none ∧ ∀ c a, Shows stop [] none us c →
      (parse text o = .ok a ↔ ∃ c₁, expression (nestedGoal o.namespaces o.maxDepth) c =
        .ok (a, c₁) ∧ c₁.current.kind = .eof) := by
  obtain ⟨stop, l', pulled, stops⟩ := last.next_eof (.inl rfl) rfl
  obtain ⟨tokens, failure⟩ := Lexer.tokens_of_pulls (Lexer.ofSource_ready _ _) pulls
  obtain ⟨ended, good⟩ := Lexer.tokens_eof pulled stops
  refine ⟨stop, stops, Lexer.raw_eof last.pending pulled stops, fun c a shows => ?_⟩
  exact parse_of_tokens form (by rw [tokens, ended]) (by rw [failure, good]) some_ pulls.inked shows

end TemplateFormula.Parser
