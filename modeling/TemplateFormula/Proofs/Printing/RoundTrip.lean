import TemplateFormula.Proofs.Printing.Lexing
import TemplateFormula.Proofs.Printing.Parsing

/-!
# Written expressions read back

The text of a plain expression, read as one expression with enough levels to nest, is the expression
again, but for the sign of its zeros.
-/

namespace TemplateFormula

namespace Lexer

/-- Behind the last token of an expression the lexer finds the end of the text. -/
theorem At.next_eof {base : Nat} {ms : List Mode} {after : Bool} {l : Lexer}
    (hl : At base ms [] after l) (hm : InExpression ms) (hbase : ms.length = base) :
    ∃ t l', l.nextToken = (.ok t, l') ∧ t.kind = .eof := by
  have hmode : l.mode = .expression ∨ l.mode = .block := by
    refine hm.cases l.mode ?_
    rw [mode, hl.modes]
  have hrest : l.skipSpace.rest = [] := by
    have hnil : l.rest.dropWhile isSpace = [] := hl.rest
    rcases hmode with h | h <;> simp [skipSpace, h, skipsSpace, hnil]
  have hdepth : l.skipSpace.depth = l.skipSpace.baseDepth := by
    rw [depth, skipSpace_modes, skipSpace_baseDepth, hl.modes, hl.baseDepth, hbase]
  have hscan : l.scan = (.ok ⟨.eof, none, 0⟩, l.skipSpace) := by
    simp only [scan, hrest, hdepth, List.isEmpty_nil, if_true]
  refine ⟨(l.skipSpace.deliver ⟨.eof, none, 0⟩).1, (l.skipSpace.deliver ⟨.eof, none, 0⟩).2, ?_, rfl⟩
  simp only [nextToken, hl.pending, hscan]

theorem ofSource_at (cs : List Char) (allowFilter : Bool) :
    At 2 [.expression, .start] cs false (ofSource cs ⟨true, allowFilter⟩) :=
  ⟨rfl, rfl, rfl, rfl, rfl⟩

/-- A text that is read up to its end gives a cursor on what it is read as. -/
theorem cursor_of_spells {cs : List Char} {ks : List TokenKind}
    (hspells : Spells 2 [.expression, .start] false cs ks true []) (allowFilter : Bool) :
    ∃ c, Cursor.ofSource cs ⟨true, allowFilter⟩ = .ok c ∧ c.On (ks ++ [.eof]) := by
  obtain ⟨l, hreads, hat⟩ := hspells _ (by
    rw [List.append_nil]
    exact ofSource_at cs allowFilter)
  obtain ⟨t, l', hnext, ht⟩ := hat.next_eof (.inl rfl) rfl
  exact Cursor.ofSource_on hreads hnext ht

end Lexer

namespace Parser

theorem parses_source {k : TokenKind} {ks : List TokenKind} {e : Expr} {o : ParseOptions}
    (hform : o.form = .expression) (hk : k ≠ .eof)
    (h : Parses (nestedGoal o.namespaces o.maxDepth .expression) (k :: ks) (some e) [.eof]) :
    Parses (Parser.source o) (k :: ks) e [.eof] := by
  simp only [Parser.source, hform]
  refine parses_bind_current fun t ht => ?_
  rw [if_neg (fun h => hk (ht ▸ Lexer.isEof_iff.1 h))]
  refine h.required.bind ?_
  refine parses_bind_current fun t ht => ?_
  rw [if_pos (Lexer.isEof_iff.2 ht)]
  exact parses_pure _ _

end Parser

/-- A text whose tokens are parsed as an expression is the source of the expression. -/
theorem parse_of_on {cs : List Char} {ks : List TokenKind} {e : Expr} {o : ParseOptions}
    {c : Cursor} (hform : o.form = .expression)
    (hc : Cursor.ofSource cs ⟨true, o.allowFilter⟩ = .ok c) (hon : c.On (ks ++ [.eof]))
    (hfirst : ∃ k is, ks = k :: is ∧ k ≠ .eof)
    (hparses : Parser.Parses (Parser.nestedGoal o.namespaces o.maxDepth .expression) (ks ++ [.eof])
      (some e) [.eof]) : parse (String.ofList cs) o = .ok e := by
  obtain ⟨k, is, rfl, hk⟩ := hfirst
  obtain ⟨c', hparse, _⟩ := Parser.parses_source hform hk hparses c hon
  have hlexer : o.lexer = ⟨true, o.allowFilter⟩ := by
    simp only [ParseOptions.lexer, hform]
    rfl
  rw [parse, String.toList_ofList, hlexer, hc]
  exact congrArg (Except.map Prod.fst) hparse

theorem parse_of_spells {cs : List Char} {ks : List TokenKind} {e : Expr} {o : ParseOptions}
    (hform : o.form = .expression)
    (hspells : Lexer.Spells 2 [.expression, .start] false cs ks true [])
    (hfirst : ∃ k is, ks = k :: is ∧ k ≠ .eof)
    (hparses : Parser.Parses (Parser.nestedGoal o.namespaces o.maxDepth .expression) (ks ++ [.eof])
      (some e) [.eof]) : parse (String.ofList cs) o = .ok e := by
  obtain ⟨c, hc, hon⟩ := Lexer.cursor_of_spells hspells o.allowFilter
  exact parse_of_on hform hc hon hfirst hparses

theorem parse_written_of_le {e : Expr} (he : e.Plain) {o : ParseOptions}
    (hform : o.form = .expression) (hdepth : e.tokens.length ≤ o.maxDepth) :
    parse (String.ofList e.written) o = .ok e.unsignedZeros := by
  have hspells : Lexer.Spells 2 [.expression, .start] false e.written e.tokens true [] :=
    Lexer.spells_written he (.inl rfl) (by decide) (by rintro _ ⟨⟩)
  obtain ⟨k, is, htokens, _, hk⟩ := (Parser.opens_tokens he).first
  exact parse_of_spells hform hspells ⟨k, is, htokens, hk⟩
    (Parser.parses_tokens he o.maxDepth hdepth .eof [] (.inl rfl))

/-- Whatever the nesting, a written expression is parsed as itself. -/
theorem parse_written (e : Expr) (he : e.Plain) :
    ∃ D, ∀ o : ParseOptions, o.form = .expression → D ≤ o.maxDepth →
      parse (String.ofList e.written) o = .ok e.unsignedZeros :=
  ⟨e.tokens.length, fun _ hform hdepth => parse_written_of_le he hform hdepth⟩

theorem Number.readsBack_two : Number.ReadsBack 2 :=
  ⟨⟨false, 4503599627370496, -51⟩, by rfl, .inr (by decide +kernel)⟩

theorem plain_square :
    (Expr.function ["x"] (.binary .power (.variable "x") (.number 2))).Plain := by
  have hname : IsName "x" := ⟨⟨'x', [], rfl, rfl, by simp⟩, by decide⟩
  exact .function (by simpa using hname)
    (.binary .power (.named hname) (.number Number.readsBack_two))

theorem parse_written_square :
    (Expr.function ["x"] (.binary .power (.variable "x") (.number 2))).Plain ∧
    ∃ D, ∀ o : ParseOptions, o.form = .expression → D ≤ o.maxDepth →
      parse (String.ofList (Expr.function ["x"]
        (.binary .power (.variable "x") (.number 2))).written) o =
      .ok (Expr.function ["x"] (.binary .power (.variable "x") (.number 2))).unsignedZeros :=
  ⟨plain_square, parse_written _ plain_square⟩

end TemplateFormula
