import TemplateFormula.Proofs.Number.Hexadecimal
import TemplateFormula.Proofs.Printing.Quote

/-!
# Code points in escapes

A text is unescaped by one scan from the left. At an escape for a code point it takes the next four
characters if they spell a character and puts that out; otherwise it takes none of them and goes on
behind the letter. Four digits spell a character, unless they are a surrogate, and so do a plus sign
and three digits.
-/

namespace TemplateFormula.Text

open Number (AreHexDigits hexValue)

/-- Four hexadecimal digits denote a character. -/
def HexCode (a b c d x : Char) : Prop :=
  AreHexDigits [a, b, c, d] ∧ x.toNat = hexValue [a, b, c, d]

/-- The spellings that are read: four digits, and a plus sign with three digits. -/
def ReadCode (a b c d x : Char) : Prop :=
  HexCode a b c d x ∨ a = '+' ∧ AreHexDigits [b, c, d] ∧ x.toNat = hexValue [b, c, d]

/-- One step of a scan: the text before it, what it puts out, and the text that it goes on with. -/
inductive Step (spells : Char → Char → Char → Char → Char → Prop) :
    List Char → List Char → List Char → Prop
  | plain {c : Char} {r : List Char} : c ≠ '\\' → Step spells (c :: r) [c] r
  | last : Step spells ['\\'] ['\\'] []
  | escape {c : Char} {r : List Char} : c ≠ 'u' → Step spells ('\\' :: c :: r) (escapeImage c) r
  | codePoint {a b c d x : Char} {r : List Char} : spells a b c d x →
    Step spells ('\\' :: 'u' :: a :: b :: c :: d :: r) [x] r
  | kept {r : List Char} : (∀ a b c d x rest, r = a :: b :: c :: d :: rest → ¬ spells a b c d x) →
    Step spells ('\\' :: 'u' :: r) ['u'] r

/-- A scan that has put something out when it stands before a rest of the text. -/
inductive Scans (spells : Char → Char → Char → Char → Char → Prop) :
    List Char → List Char → List Char → Prop
  | here (t : List Char) : Scans spells t [] t
  | step {t more r out rest : List Char} : Step spells t more r → Scans spells r out rest →
    Scans spells t (more ++ out) rest

/-- An escape whose first digit is a plus sign. -/
def Signed (t : List Char) : Prop :=
  ∃ b c d r, t = '\\' :: 'u' :: '+' :: b :: c :: d :: r ∧ AreHexDigits [b, c, d]

/-- The scan comes to an escape whose first digit is a plus sign. -/
def ReachesSign (t : List Char) : Prop := ∃ out rest, Scans ReadCode t out rest ∧ Signed rest

variable {spells : Char → Char → Char → Char → Char → Prop} {t r r' out out' more more' rest ds es :
  List Char} {a b c d x y : Char}

theorem scalar?_eq_some_iff {n : Nat} : scalar? n = some x ↔ x.toNat = n := by
  rw [scalar?]
  split
  · next valid =>
    rw [Option.some_inj]
    constructor
    · rintro rfl
      exact (Char.toNat_ofNat n).trans (if_pos valid)
    · rintro rfl
      exact Char.ofNat_toNat x
  · next invalid =>
    refine iff_of_false (Option.some_ne_none x).symm ?_
    rintro rfl
    exact invalid x.valid

theorem codePoint?_eq_some_iff : codePoint? a b c d = some x ↔ ReadCode a b c d x := by
  have read (ds : List Char) : (Number.hexNat? ds).bind scalar? = some x ↔
      AreHexDigits ds ∧ x.toNat = hexValue ds := by
    rw [Option.bind_eq_some_iff]
    constructor
    · rintro ⟨n, number, value⟩
      obtain ⟨digits, rfl⟩ := Number.hexNat?_eq_some_iff.1 number
      exact ⟨digits, scalar?_eq_some_iff.1 value⟩
    · rintro ⟨digits, value⟩
      exact ⟨_, Number.hexNat?_eq_some_iff.2 ⟨digits, rfl⟩, scalar?_eq_some_iff.2 value⟩
  rw [codePoint?]
  split
  · next plus =>
    rw [read, ReadCode, or_iff_right, and_iff_right plus]
    rintro ⟨digits, _⟩
    exact Number.not_areHexDigits_plus (plus ▸ digits)
  · next other =>
    rw [read, ReadCode, HexCode, or_iff_left fun h => other h.1]

/-- Four characters spell one character at most. -/
def Functional (spells : Char → Char → Char → Char → Char → Prop) : Prop :=
  ∀ a b c d x y, spells a b c d x → spells a b c d y → x = y

theorem functional_readCode : Functional ReadCode := fun _ _ _ _ _ _ h h' =>
  Option.some.inj ((codePoint?_eq_some_iff.2 h).symm.trans (codePoint?_eq_some_iff.2 h'))

theorem functional_hexCode : Functional HexCode := fun a b c d x y h h' =>
  functional_readCode a b c d x y (.inl h) (.inl h')

theorem unescape_kept (unspelled : ∀ a b c d x rest, r = a :: b :: c :: d :: rest →
    ¬ ReadCode a b c d x) : unescape ('\\' :: 'u' :: r) = 'u' :: unescape r := by
  match r with
  | [] | [_] | [_, _] | [_, _, _] => rw [unescape]; simp
  | a :: b :: c :: d :: rest =>
    have unread : codePoint? a b c d = none := by
      refine Option.eq_none_iff_forall_ne_some.2 fun x read => ?_
      exact unspelled a b c d x rest rfl (codePoint?_eq_some_iff.1 read)
    rw [unescape, unread]

/-- A step puts out the front of the unescaped text. -/
theorem Step.unescape_eq (h : Step ReadCode t more r) : unescape t = more ++ unescape r := by
  cases h with
  | plain other => exact unescape_plain other
  | last => simp [unescape]
  | escape other => exact unescape_escaped other
  | codePoint read =>
    rw [unescape, codePoint?_eq_some_iff.2 read]
    rfl
  | kept none => exact unescape_kept none

theorem Scans.unescape_eq (h : Scans ReadCode t out rest) :
    unescape t = out ++ unescape rest := by
  induction h with
  | here t => rfl
  | step first _ ih => rw [first.unescape_eq, ih, List.append_assoc]

theorem Step.length_lt (h : Step spells t more r) : r.length < t.length := by
  cases h <;> simp only [List.length_cons, List.length_nil] <;> omega

/-- The scan goes on until nothing is left. -/
theorem exists_step (some : t ≠ []) : ∃ more r, Step spells t more r := by
  obtain ⟨c, r, rfl⟩ := List.exists_cons_of_ne_nil some
  by_cases slash : c = '\\'
  · subst slash
    match r with
    | [] => exact ⟨_, _, .last⟩
    | c :: r =>
      by_cases letter : c = 'u'
      · subst letter
        by_cases read : ∃ a b c d x rest, r = a :: b :: c :: d :: rest ∧ spells a b c d x
        · obtain ⟨a, b, c, d, x, rest, rfl, spelled⟩ := read
          exact ⟨_, _, .codePoint spelled⟩
        · exact ⟨_, _, .kept fun a b c d x rest same spelled =>
            read ⟨a, b, c, d, x, rest, same, spelled⟩⟩
      · exact ⟨_, _, .escape letter⟩
  · exact ⟨_, _, .plain slash⟩

theorem exists_scans (t : List Char) : ∃ ds, Scans spells t ds [] := by
  induction length : t.length using Nat.strong_induction_on generalizing t with
  | _ n ih =>
    by_cases empty : t = []
    · subst empty
      exact ⟨[], .here []⟩
    · obtain ⟨more, r, first⟩ := exists_step empty
      obtain ⟨ds, others⟩ := ih _ (length ▸ first.length_lt) r rfl
      exact ⟨_, .step first others⟩

theorem Step.unique (functional : Functional spells)
    (h : Step spells t more r) (h' : Step spells t more' r') : more = more' ∧ r = r' := by
  cases h with
  | plain other =>
    cases h' with
    | plain => exact ⟨rfl, rfl⟩
    | _ => exact absurd rfl other
  | last =>
    cases h' with
    | plain other => exact absurd rfl other
    | last => exact ⟨rfl, rfl⟩
  | escape other =>
    cases h' with
    | plain other => exact absurd rfl other
    | escape => exact ⟨rfl, rfl⟩
    | _ => exact absurd rfl other
  | codePoint spelled =>
    cases h' with
    | plain other | escape other => exact absurd rfl other
    | codePoint spelled' =>
      exact ⟨congrArg (fun x => [x]) (functional _ _ _ _ _ _ spelled spelled'), rfl⟩
    | kept none => exact absurd spelled (none _ _ _ _ _ _ rfl)
  | kept none =>
    cases h' with
    | plain other | escape other => exact absurd rfl other
    | codePoint spelled => exact absurd spelled (none _ _ _ _ _ _ rfl)
    | kept => exact ⟨rfl, rfl⟩

/-- Where no plus sign stands for a digit, a step is one over digits. -/
theorem Step.digits (h : Step ReadCode t more r) (unsigned : ¬ Signed t) :
    Step HexCode t more r := by
  cases h with
  | plain other => exact .plain other
  | last => exact .last
  | escape other => exact .escape other
  | codePoint read =>
    rcases read with digits | ⟨rfl, digits, _⟩
    · exact .codePoint digits
    · exact absurd ⟨_, _, _, _, rfl, digits⟩ unsigned
  | kept none =>
    exact .kept fun a b c d x rest same digits => none a b c d x rest same (.inl digits)

theorem reachesSign_iff (h : Step ReadCode t more r) :
    ReachesSign t ↔ Signed t ∨ ReachesSign r := by
  constructor
  · rintro ⟨out, rest, scan, signed⟩
    cases scan with
    | here => exact .inl signed
    | step first others =>
      obtain ⟨_, rfl⟩ := h.unique functional_readCode first
      exact .inr ⟨_, rest, others, signed⟩
  · rintro (signed | ⟨out, rest, scan, signed⟩)
    · exact ⟨[], t, .here t, signed⟩
    · exact ⟨_, rest, .step h scan, signed⟩

theorem scans_nil (h : Scans spells [] ds []) : ds = [] := by
  cases h with
  | here => rfl
  | step first _ => cases first

theorem Scans.first (functional : Functional spells)
    (first : Step spells t more r) (h : Scans spells t ds []) :
    ∃ es, ds = more ++ es ∧ Scans spells r es [] := by
  cases h with
  | here => cases first
  | step first' others =>
    obtain ⟨rfl, rfl⟩ := first.unique functional first'
    exact ⟨_, rfl, others⟩

/-- Three digits behind a plus sign spell a character. -/
theorem exists_readCode (digits : AreHexDigits [b, c, d]) : ∃ x, ReadCode '+' b c d x := by
  have small : hexValue [b, c, d] < 16 ^ 3 := Number.hexValue_lt _
  refine ⟨Char.ofNat (hexValue [b, c, d]), .inr ⟨rfl, digits, ?_⟩⟩
  exact (Char.toNat_ofNat _).trans (if_pos (.inl (by omega)))

/-- Where a plus sign is read as a digit, one character is put out in place of five. -/
theorem signed_step (signed : Signed t) (first : Step ReadCode t more r)
    (h : Scans HexCode t ds []) :
    ∃ es, Scans HexCode r es [] ∧ ds.length = es.length + 5 ∧ more.length = 1 := by
  obtain ⟨b, c, d, rest, rfl, digits⟩ := signed
  have other {e : Char} (member : e ∈ [b, c, d]) : e ≠ '\\' := by
    rintro rfl
    exact absurd (digits.2 _ member) (by decide)
  have keeps : Step HexCode ('\\' :: 'u' :: '+' :: b :: c :: d :: rest) ['u']
      ('+' :: b :: c :: d :: rest) := by
    refine .kept fun a' b' c' d' x rest' same spelled => ?_
    obtain rfl := (List.cons.inj same).1
    exact Number.not_areHexDigits_plus spelled.1
  obtain ⟨x, read⟩ := exists_readCode digits
  obtain ⟨rfl, rfl⟩ := first.unique functional_readCode (.codePoint read)
  obtain ⟨ds₁, rfl, h₁⟩ := h.first functional_hexCode keeps
  obtain ⟨ds₂, rfl, h₂⟩ := h₁.first functional_hexCode (.plain (by decide))
  obtain ⟨ds₃, rfl, h₃⟩ := h₂.first functional_hexCode (.plain (other (by simp)))
  obtain ⟨ds₄, rfl, h₄⟩ := h₃.first functional_hexCode (.plain (other (by simp)))
  obtain ⟨ds₅, rfl, h₅⟩ := h₄.first functional_hexCode (.plain (other (by simp)))
  exact ⟨ds₅, h₅, by simp, rfl⟩

/-- Beside a scan over digits alone, the scan puts out the same if it comes to no sign, and less if
it does. -/
theorem scans_compare (h : Scans ReadCode t es rest) (ends : rest = [])
    (h' : Scans HexCode t ds []) :
    ds = es ∧ ¬ ReachesSign t ∨ es.length < ds.length ∧ ReachesSign t := by
  induction h generalizing ds with
  | here t =>
    subst ends
    refine .inl ⟨scans_nil h', ?_⟩
    rintro ⟨out, rest, scan, _, _, _, _, rfl, _⟩
    cases scan with
    | step first _ => cases first
  | @step t more r out rest first others ih =>
    rw [reachesSign_iff first, List.length_append]
    by_cases signed : Signed t
    · obtain ⟨ds', behind, length, one⟩ := signed_step signed first h'
      have le : out.length ≤ ds'.length :=
        (ih ends behind).elim (fun h => h.1 ▸ le_rfl) fun h => h.1.le
      exact .inr ⟨by omega, .inl signed⟩
    · obtain ⟨ds', rfl, behind⟩ := h'.first functional_hexCode (first.digits signed)
      rw [or_iff_right signed, List.length_append]
      exact (ih ends behind).imp (And.imp_left (congrArg _))
        (And.imp_left (Nat.add_lt_add_left · _))

/-- What is put out before any place that the scan comes to is the front of the unescaped text, and
the rest is unescaped as if the text started there. The scan over the whole text puts out the
unescaped text. It is a scan that takes nothing but four digits for a code point if and only if it
comes to no sign. -/
theorem unescape_scans (t : List Char) :
    (∀ out rest, Scans ReadCode t out rest → unescape t = out ++ unescape rest) ∧
    (∀ ds, Scans ReadCode t ds [] ↔ ds = unescape t) ∧
    ((∀ ds, Scans HexCode t ds [] ↔ ds = unescape t) ↔ ¬ ReachesSign t) := by
  have read {ds : List Char} (h : Scans ReadCode t ds []) : ds = unescape t := by
    rw [h.unescape_eq, unescape_nil, List.append_nil]
  obtain ⟨es, scan⟩ : ∃ es, Scans ReadCode t es [] := exists_scans t
  obtain rfl := read scan
  refine ⟨fun out rest h => h.unescape_eq, fun ds => ⟨read, fun same => same ▸ scan⟩, ?_, ?_⟩
  · intro digits
    exact (scans_compare scan rfl ((digits _).2 rfl)).elim And.right
      fun h => absurd h.1 (lt_irrefl _)
  · intro unsigned
    have same {ds : List Char} (h : Scans HexCode t ds []) : ds = unescape t :=
      (scans_compare scan rfl h).elim And.left fun h => absurd h.2 unsigned
    obtain ⟨ds, digits⟩ : ∃ ds, Scans HexCode t ds [] := exists_scans t
    obtain rfl := same digits
    exact fun ds => ⟨same, fun same => same ▸ digits⟩

/-- A plus sign and three digits are no four digits, and yet they are taken for a code point. -/
theorem unescape_takes_sign :
    unescape "\\u+0041".toList = "\x041".toList ∧ ReachesSign "\\u+0041".toList ∧
    Scans HexCode "\\u+0041".toList "u+0041".toList [] := by
  have digits : AreHexDigits ['0', '0', '4'] := ⟨by simp, by simp [Number.IsHexDigit]⟩
  refine ⟨by decide, ⟨[], _, .here _, '0', '0', '4', ['1'], by decide, digits⟩, ?_⟩
  have plain {c : Char} {r ds : List Char} (other : c ≠ '\\') (h : Scans HexCode r ds []) :
      Scans HexCode (c :: r) (c :: ds) [] := .step (.plain other) h
  refine .step (.kept fun a b c d x rest same spelled => ?_) (plain (by decide)
    (plain (by decide) (plain (by decide) (plain (by decide) (plain (by decide) (.here []))))))
  obtain rfl := (List.cons.inj same).1
  exact Number.not_areHexDigits_plus spelled.1

end TemplateFormula.Text
