import TemplateFormula.Proofs.Lexing.Following
import TemplateFormula.Proofs.Lexing.Reading

/-!
# Tokens of joined texts

A text whose last token closes an island leaves the lexer as it was at the start, however its
islands nest. So the tokens of a text behind it are the tokens that this text has alone, further on.
-/

namespace TemplateFormula

namespace TokenKind

/-- How many islands a token opens. -/
def opened : TokenKind → Nat
  | openIsland => 1
  | _ => 0

/-- How many islands a token closes. -/
def closed : TokenKind → Nat
  | closeIsland => 1
  | _ => 0

theorem opened_closed (k : TokenKind) (m : Mode) :
    match k.mark? m with
    | some (.opening .island) => k.opened = 1 ∧ k.closed = 0
    | some (.closing .island) => k.opened = 0 ∧ k.closed = 1
    | _ => k.opened = 0 ∧ k.closed = 0 := by
  cases k with
  | punctuator symbol =>
    simp only [mark?]
    split_ifs
    all_goals exact ⟨rfl, rfl⟩
  | _ => exact ⟨rfl, rfl⟩

end TokenKind

namespace Token

def opened : List Token → Nat
  | [] => 0
  | t :: ts => t.kind.opened + opened ts

def closed : List Token → Nat
  | [] => 0
  | t :: ts => t.kind.closed + closed ts

variable (t : Token) (ts us : List Token)

@[simp] theorem opened_nil : opened [] = 0 := rfl

@[simp] theorem closed_nil : closed [] = 0 := rfl

@[simp] theorem opened_cons : opened (t :: ts) = t.kind.opened + opened ts := rfl

@[simp] theorem closed_cons : closed (t :: ts) = t.kind.closed + closed ts := rfl

end Token

/-- A token changes the number of open islands by what it opens and closes. -/
theorem Mark.Turns.islands {k : TokenKind} {m : Mode} {s t : List Bracket}
    (turn : Turns (k.mark? m) s t) :
    s.count .island + k.opened = t.count .island + k.closed := by
  have counts := k.opened_closed m
  generalize k.mark? m = mark at turn counts
  cases turn with
  | stay => rw [counts.1, counts.2]
  | push b =>
    cases b with
    | island => rw [counts.1, counts.2, List.count_cons_self]
    | _ => rw [counts.1, counts.2, List.count_cons_of_ne (by decide)]
  | pop b =>
    cases b with
    | island => rw [counts.1, counts.2, List.count_cons_self]
    | _ => rw [counts.1, counts.2, List.count_cons_of_ne (by decide)]

namespace Lexer

variable {l m : Lexer} {ts us : List Token}

theorem Pulls.suffix (h : l.Pulls ts m) : m.rest <:+ l.rest := by
  induction h with
  | nil l => exact List.suffix_rfl
  | @cons l l' _ t ts h _ _ ih =>
    have next := nextToken_suffix l
    rw [h] at next
    exact ih.trans next

/-- Up to a brace the text behind it plays no part. -/
theorem Pulls.followed (ready : l.Ready) (h : l.Pulls ts m) (closes : m.Closes) (u : List Char) :
    (l.followed u).Pulls ts (m.followed u) := by
  induction h with
  | nil l => exact .nil _
  | @cons l l' m t ts h inked more ih =>
    have ready' : l'.Ready := by simpa only [h] using nextToken_ready l
    have closes' : l'.Closes := closes_of_suffix more.suffix closes
    have here : l.Closes := closes_of_suffix ((Pulls.cons h inked more).suffix) closes
    exact .cons (nextToken_followed ready here h (.inl closes'.rest_ne) u) inked (ih ready' closes)

theorem next_of_tokens {t : Token} (h : l.tokens = t :: ts) : ∃ m, l.nextToken = (.ok t, m) := by
  simp only [tokens, trace, run] at h
  rcases pulled : l.nextToken with ⟨e | t', m⟩
  · rw [pulled] at h
    cases h
  · rw [pulled] at h
    refine ⟨m, ?_⟩
    dsimp only at h
    split at h
    · obtain rfl : t' = t := (List.cons.inj h).1
      rfl
    · obtain rfl : t' = t := (List.cons.inj h).1
      rfl

/-- Tokens of which others are left come from pulls. -/
theorem pulls_of_tokens (ready : l.Ready) (h : l.tokens = ts ++ us) (more : us ≠ []) :
    ∃ m, l.Pulls ts m ∧ m.tokens = us := by
  induction ts generalizing l with
  | nil => exact ⟨l, .nil l, h⟩
  | cons t ts ih =>
    obtain ⟨l', pulled⟩ := next_of_tokens h
    by_cases ends : t.kind = .eof
    · rw [(tokens_eof pulled ends).1] at h
      obtain ⟨-, last⟩ := List.cons.inj h
      exact absurd (List.append_eq_nil_iff.mp last.symm).2 more
    · rw [(tokens_next ready pulled ends).1] at h
      obtain ⟨-, rest⟩ := List.cons.inj h
      have ready' : l'.Ready := by simpa only [pulled] using nextToken_ready l
      obtain ⟨m, pulls, left⟩ := ih ready' rest
      exact ⟨m, .cons pulled ends pulls, left⟩

theorem tokens_shifted {p : Position} {l' : Lexer} (h : l.Shifted p l') :
    List.Forall₂ (Token.Shifted p) l.tokens l'.tokens ∧
      l'.failure? = l.failure?.map (LexError.behind p) := by
  have rest_eq : l'.rest = l.rest := by rw [h.eq, placed]
  rw [tokens, tokens, failure?, failure?, trace, trace, rest_eq]
  exact run_shifted _ h

theorem nextToken_allowFilter (l : Lexer) : l.nextToken.2.allowFilter = l.allowFilter := by
  have kept := (scan_kept l).allowFilter
  have skipped : l.skipSpace.allowFilter = l.allowFilter := by
    unfold skipSpace
    split <;> rfl
  rw [skipped] at kept
  have pulled := pulled_of_eq (l := l) rfl
  generalize l.nextToken = r at pulled
  cases pulled with
  | waiting => rfl
  | failed _ scanned | found _ scanned =>
    rw [scanned] at kept
    exact kept

theorem Pulls.allowFilter (h : l.Pulls ts m) : m.allowFilter = l.allowFilter := by
  induction h with
  | nil l => rfl
  | @cons l l' _ t ts h _ _ ih =>
    have kept := nextToken_allowFilter l
    rw [h] at kept
    exact ih.trans kept

/-- Pulls keep up the stack of modes and count the islands on it. -/
theorem Pulls.holds {b : Bool} {s : List Bracket} (depth : l.baseDepth = (baseModes b).length)
    (holds : Holds (baseModes b) l.modes l.pending s) (h : l.Pulls ts m) :
    m.baseDepth = (baseModes b).length ∧ ∃ t, Holds (baseModes b) m.modes m.pending t ∧
      s.count .island + Token.opened ts = t.count .island + Token.closed ts := by
  induction h generalizing s with
  | nil l => exact ⟨depth, s, holds, rfl⟩
  | @cons l l' m t ts h _ _ ih =>
    obtain ⟨depth', s', holds', turn⟩ := nextToken_holds depth holds
    rw [h] at depth' holds' turn
    obtain ⟨depth_m, s_m, holds_m, count⟩ := ih depth' holds'
    have step := Mark.Turns.islands (k := t.kind) turn
    refine ⟨depth_m, s_m, holds_m, ?_⟩
    simp only [Token.opened_cons, Token.closed_cons]
    omega

section Last

variable {s : List Bracket} {t : Token}

/-- The end of a template finds literal text with nothing left of it. -/
theorem idle_of_eof (depth : l.baseDepth = (baseModes false).length)
    (holds : Holds (baseModes false) l.modes l.pending s) (pulled : l.nextToken = (.ok t, m))
    (ends : t.kind = .eof) :
    l.rest = [] ∧ l.modes = baseModes false ∧ l.pending = none ∧ s = [] := by
  obtain ⟨modes, -, nothing⟩ := nextToken_eof depth holds pulled ends
  cases pulled_of_eq pulled with
  | waiting waits =>
    rw [waits] at holds
    exact absurd ends holds.pending_ne_eof
  | found idle scanned =>
    obtain ⟨-, skipped, empty⟩ := scan_eof idle scanned ends
    have literal : l.skipSpace = l := by
      simp only [skipSpace, mode, modes, baseModes, List.headD_cons, skipsSpace,
        Bool.false_eq_true, if_false]
    rw [skipped, literal] at empty
    exact ⟨empty, modes, idle, nothing⟩

/-- A token that closes an island is a single brace, and no operand stands before what follows. -/
theorem rest_of_closeIsland (holds : Holds (baseModes false) l.modes l.pending s)
    (pulled : l.nextToken = (.ok t, m)) (closes : t.kind = .closeIsland) :
    ('\x7d' :: m.rest) <:+ l.rest ∧ m.afterOperand = false := by
  cases pulled_of_eq pulled with
  | @waiting x waits =>
    rw [waits] at holds
    have closes : x.kind = .closeIsland := closes
    rcases holds.pending_kind with ⟨path, other⟩ | other | other
    all_goals
      rw [closes] at other
      cases other
  | @found x l₀ _ scanned =>
    have closes : x.kind = .closeIsland := closes
    obtain ⟨single, cs, rest_eq⟩ := scan_closeIsland scanned closes
    have kept := (scan_kept l).rest
    rw [scanned, rest_eq] at kept
    have kept : l₀.rest = '\x7d' :: cs := kept
    have left : l₀.rest.drop x.length = cs := by
      rw [kept, single, List.drop_succ_cons, List.drop_zero]
    refine ⟨?_, ?_⟩
    · change '\x7d' :: l₀.rest.drop x.length <:+ l.rest
      rw [left, ← rest_eq]
      exact skipSpace_suffix l
    · simp only [deliver, closes, endsOperand]

end Last

/-- With nothing left of a text, more text behind it is read as from the start. -/
theorem followed_eq_placed {options : LexerOptions} (text : options.bareExpression = false)
    (empty : m.rest = []) (modes : m.modes = baseModes false)
    (depth : m.baseDepth = (baseModes false).length) (idle : m.pending = none)
    (allow : m.allowFilter = options.allowFilter) (operand : m.afterOperand = false)
    (more : List Char) : m.followed more = (ofSource more options).placed m.position := by
  cases m
  simp only [followed, ofSource, placed, mk.injEq, text, true_and] at *
  exact ⟨by rw [empty, List.nil_append], modes, depth, idle, allow, operand⟩

/-- A text whose last token before its end closes an island. -/
def EndsInIsland (source : List Char) (options : LexerOptions) : Prop :=
  ∃ ks, (ofSource source options).tokens.map (·.kind) = ks ++ [.closeIsland, .eof]

/-- The tokens of a text that ends in an island, alone and with more text behind it. -/
structure Ending (source : List Char) (options : LexerOptions) (ts : List Token)
    (brace stop : Token) (place : Position) : Prop where
  closes : brace.kind = .closeIsland
  stops : stop.kind = .eof
  inked : ∀ t ∈ ts, t.kind ≠ .eof
  islands : Token.opened ts = Token.closed ts + 1
  tokens : (ofSource source options).tokens = ts ++ [brace, stop]
  failure : (ofSource source options).failure? = none
  before : ∀ more, ∃ later,
    (ofSource (source ++ more) options).tokens = ts ++ brace :: later ∧
    List.Forall₂ (Token.Shifted place) (ofSource more options).tokens later ∧
    (ofSource (source ++ more) options).failure? =
      (ofSource more options).failure?.map (LexError.behind place)

theorem exists_ending {source : List Char} {options : LexerOptions}
    (text : options.bareExpression = false) (ends : EndsInIsland source options) :
    ∃ ts brace stop place, Ending source options ts brace stop place := by
  obtain ⟨ks, kinds⟩ := ends
  obtain ⟨ts, last, tokens, -, last_kinds⟩ := List.map_eq_append_iff.mp kinds
  obtain ⟨brace, last, rfl, closes, last_kinds⟩ := List.map_eq_cons_iff.mp last_kinds
  obtain ⟨stop, last, rfl, stops, last_kinds⟩ := List.map_eq_cons_iff.mp last_kinds
  obtain rfl := List.map_eq_nil_iff.mp last_kinds
  -- `l` stands before the last brace and `m` behind it.
  have ready := ofSource_ready source options
  have start := ofSource_holds source options
  rw [text] at start
  have depth : (ofSource source options).baseDepth = (baseModes false).length := by
    rw [ofSource, text]
  obtain ⟨l, pulls, left⟩ := pulls_of_tokens ready tokens (List.cons_ne_nil _ _)
  obtain ⟨m, pulls_brace, left_m⟩ :=
    pulls_of_tokens (pulls.ready ready) (show l.tokens = [brace] ++ [stop] from left)
      (List.cons_ne_nil _ _)
  obtain ⟨m', pulled_stop⟩ := next_of_tokens left_m
  obtain ⟨depth_l, s, holds_l, count_l⟩ := pulls.holds depth start
  obtain ⟨depth_m, t, holds_m, count_m⟩ := pulls_brace.holds depth_l holds_l
  obtain ⟨empty, modes, idle, rfl⟩ := idle_of_eof depth_m holds_m pulled_stop stops
  have whole := pulls.append pulls_brace
  cases pulls_brace with
  | cons pulled inked none_ =>
  cases none_
  obtain ⟨suffix, operand⟩ := rest_of_closeIsland holds_l pulled closes
  rw [empty] at suffix
  have closed : l.Closes := closes_of_suffix suffix rfl
  refine ⟨ts, brace, stop, m.position, closes, stops, pulls.inked, ?islands, tokens, ?failure,
    ?before⟩
  case islands =>
    simp only [Token.opened_cons, Token.closed_cons, closes, TokenKind.opened, TokenKind.closed,
      Token.opened_nil, Token.closed_nil, List.count_nil] at count_l count_m
    omega
  case failure =>
    rw [(tokens_of_pulls ready whole).2]
    exact (tokens_eof pulled_stop stops).2
  case before =>
    intro more
    have again := followed_eq_placed text empty modes depth_m idle whole.allowFilter operand more
    have last := nextToken_followed (pulls.ready ready) closed pulled (.inr closes) more
    have there := (pulls.followed ready closed more).append (.cons last inked (.nil _))
    obtain ⟨tokens_eq, failure_eq⟩ :=
      tokens_of_pulls (ofSource_ready (source ++ more) options) there
    have shifted : (ofSource more options).Shifted m.position (m.followed more) := by
      refine ⟨Position.counted_start, ?_⟩
      rw [again, show (ofSource more options).position = .start from rfl, Position.behind_start]
    obtain ⟨later, failures⟩ := tokens_shifted shifted
    refine ⟨(m.followed more).tokens, ?_, later, failure_eq.trans failures⟩
    rw [tokens_eq, List.append_assoc, List.singleton_append]

end Lexer

end TemplateFormula
