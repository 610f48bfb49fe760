import TemplateFormula.Proofs.Number.Whole
import TemplateFormula.Value.Member

/-!
# Segments of paths

A path is a name with segments behind it, each a name or an index behind a dot, or an index or a
text in brackets. It is taken apart into the keys that the segments stand for, and following these
from a value goes from member to member. In brackets and double quotes every key can stand that does
not hold the two characters that close it, also a key with dots, brackets or blanks in it, and the
empty one, so every member of every value is reached by a path.
-/

namespace TemplateFormula

namespace Scan

/-- Names that are read as one word, keywords among them. -/
def IsWord (name : String) : Prop :=
  ∃ c cs, name.toList = c :: cs ∧ isIdentifierStart c ∧ ∀ d ∈ cs, isIdentifierPart d

def blanks : List Nat :=
  [0x9, 0xA, 0xB, 0xC, 0xD, 0x20, 0x85, 0xA0, 0x1680, 0x2000, 0x2001, 0x2002, 0x2003, 0x2004,
   0x2005, 0x2006, 0x2007, 0x2008, 0x2009, 0x200A, 0x2028, 0x2029, 0x202F, 0x205F, 0x3000]

theorem mem_blanks {c : Char} (h : Text.isBlank c = true) : c.toNat ∈ blanks := by
  simp only [Text.isBlank, Bool.or_eq_true, Bool.and_eq_true, beq_iff_eq, decide_eq_true_eq,
    or_assoc] at h
  generalize c.toNat = n at h ⊢
  rcases h with ⟨low, high⟩ | rfl | rfl | rfl | rfl | ⟨low, high⟩ | rfl | rfl | rfl | rfl | rfl
  case inl | inr.inr.inr.inr.inr.inl => interval_cases n <;> decide
  all_goals decide

theorem blank_of_no_word {c : Char} (h : Text.isBlank c = true) :
    isIdentifierStart c = false ∧ isIdentifierPart c = false := by
  have apart : ∀ n ∈ blanks, isIdentifierPart (.ofNat n) = false ∧
      ((Char.ofNat n == '$') || Char.ofNat n == '@') = false := by
    decide +kernel
  obtain ⟨part, sign⟩ := apart _ (mem_blanks h)
  rw [Char.ofNat_toNat] at part sign
  refine ⟨?_, part⟩
  simp only [isIdentifierPart, Text.isLetterOrNumeral, Bool.or_eq_false_iff] at part sign
  rw [isIdentifierStart, part.1.1, part.2, sign.1, sign.2]
  rfl

end Scan

namespace Path

open Scan

inductive Segment where
  /-- A name behind a dot. -/
  | name (s : String)
  /-- An index behind a dot. -/
  | number (n : Nat)
  /-- An index in brackets. -/
  | index (n : Nat)
  /-- A text in brackets and double quotes. -/
  | key (k : String)

namespace Segment

def chars : Segment → List Char
  | name s => '.' :: s.toList
  | number n => '.' :: Number.natChars n
  | index n => '[' :: (Number.natChars n ++ [']'])
  | key k => '[' :: '"' :: (k.toList ++ ['"', ']'])

/-- The key of the member that the segment leads to. -/
def keyChars : Segment → List Char
  | name s => s.toList
  | number n | index n => Number.natChars n
  | key k => k.toList

/-- Names are words, indices are exact as doubles, and texts hold nothing to escape. -/
def Valid : Segment → Prop
  | name s => IsWord s
  | number n | index n => n < 2 ^ 53
  | key k => ∀ c ∈ k.toList, c ≠ '"' ∧ c ≠ '\\'

def isNumber : Segment → Bool
  | number _ => true
  | _ => false

end Segment

/-- The text of a path. -/
def written (root : String) (segments : List Segment) : List Char :=
  root.toList ++ segments.flatMap Segment.chars

section Keys

/-- No dot and no bracket. -/
def Plain (cs : List Char) : Prop := ∀ c ∈ cs, c ≠ '.' ∧ c ≠ '['

variable {cs rest current : List Char} {n : Nat}

theorem plain_word {s : String} (h : IsWord s) : Plain s.toList ∧ s.toList ≠ [] := by
  obtain ⟨d, ds, split, first, others⟩ := h
  refine ⟨fun c member => ?_, by rw [split]; exact List.cons_ne_nil _ _⟩
  have word : isIdentifierStart c = true ∨ isIdentifierPart c = true := by
    rw [split] at member
    rcases List.mem_cons.1 member with rfl | member
    · exact .inl first
    · exact .inr (others c member)
  constructor <;>
    · rintro rfl
      revert word
      decide

theorem plain_digits (h : AreDigits cs) : Plain cs := by
  intro c member
  have digit := h.2 c member
  constructor <;>
    · rintro rfl
      cases digit

theorem scanKeys_plain (plain : Plain cs) :
    scanKeys (cs.length + n) current (cs ++ rest) = scanKeys n (current ++ cs) rest := by
  induction cs generalizing current with
  | nil => rw [List.append_nil, List.length_nil, Nat.zero_add, List.nil_append]
  | cons c cs ih =>
    obtain ⟨dot, bracket⟩ := plain c List.mem_cons_self
    have step : scanKeys (cs.length + n + 1) current (c :: (cs ++ rest)) =
        scanKeys (cs.length + n) (current ++ [c]) (cs ++ rest) := by
      rw [scanKeys.eq_def]
      split <;> simp_all
    rw [List.length_cons, Nat.add_right_comm, List.cons_append, step,
      ih fun d member => plain d (List.mem_cons_of_mem _ member), List.append_assoc,
      List.singleton_append]

/-- The key in brackets behind an opening one. -/
def bracketKey (cs : List Char) : List Char × List Char :=
  takeBracketKey (takeQuote cs).1 (takeQuote cs).2

theorem scanKeys_bracket :
    scanKeys (n + 1) current ('[' :: cs) =
      (if current.isEmpty then [] else [current]) ++
        (bracketKey cs).1 :: scanKeys n [] (dropDot (bracketKey cs).2) := rfl

theorem bracketKey_index (digits : AreDigits cs) :
    bracketKey (cs ++ ']' :: rest) = (cs, rest) := by
  obtain ⟨d, ds, rfl⟩ := List.exists_cons_of_ne_nil digits.1
  have unquoted : takeQuote (d :: ds ++ ']' :: rest) = (none, d :: ds ++ ']' :: rest) := by
    have first := digits.2 d List.mem_cons_self
    rw [takeQuote.eq_def]
    split
    · next h => rw [(List.cons.inj h).1] at first; cases first
    · next h => rw [(List.cons.inj h).1] at first; cases first
    · rfl
  have stops (c : Char) (digit : c.isDigit = true) : c ≠ ']' := by
    rintro rfl
    cases digit
  rw [bracketKey, unquoted]
  clear unquoted
  have all := digits.2
  generalize d :: ds = us at all
  induction us with
  | nil => simp [takeBracketKey]
  | cons c us ih =>
    have rest := ih fun c member => all c (List.mem_cons_of_mem _ member)
    simp only at rest
    simp [takeBracketKey, stops c (all c List.mem_cons_self), rest]

/-- A quote inside the key is no end of it, unless a closing bracket stands behind it. -/
theorem bracketKey_key (unclosed : ¬ ['"', ']'] <:+: cs) :
    bracketKey ('"' :: cs ++ '"' :: ']' :: rest) = (cs, rest) := by
  have quoted : takeQuote ('"' :: cs ++ '"' :: ']' :: rest) =
      (some '"', cs ++ '"' :: ']' :: rest) := rfl
  rw [bracketKey, quoted]
  induction cs with
  | nil => simp [takeBracketKey]
  | cons c cs ih =>
    have goesOn : ¬ (some c = some '"' ∧ (cs ++ '"' :: ']' :: rest).head? = some ']') := by
      rintro ⟨quote, closing⟩
      obtain rfl := Option.some.inj quote
      cases cs with
      | nil => cases closing
      | cons d cs =>
        obtain rfl := Option.some.inj closing
        exact unclosed ⟨[], cs, rfl⟩
    have rest := ih (fun inside => unclosed (inside.trans (List.suffix_cons c cs).isInfix)) rfl
    dsimp only at rest ⊢
    rw [List.cons_append, takeBracketKey, if_neg goesOn, if_neg (by simp), rest]

/-- Behind a dot the key goes on until the next segment; in brackets it ends with them. -/
def Segment.Parted (s : Segment) : Prop :=
  (s.chars = '.' :: s.keyChars ∧ Plain s.keyChars ∧ s.keyChars ≠ []) ∨
    ∃ body, s.chars = '[' :: body ∧ ∀ rest, bracketKey (body ++ rest) = (s.keyChars, rest)

theorem Segment.parted_key {k : String} (unclosed : ¬ ['"', ']'] <:+: k.toList) :
    (key k).Parted := by
  refine .inr ⟨_, rfl, fun rest => ?_⟩
  rw [List.cons_append, List.append_assoc]
  exact bracketKey_key unclosed

theorem Segment.Valid.parted {s : Segment} (h : s.Valid) : s.Parted := by
  cases s with
  | name s => exact .inl ⟨rfl, plain_word h⟩
  | number n =>
    have digits := Number.natChars_areDigits n
    exact .inl ⟨rfl, plain_digits digits, digits.1⟩
  | index n =>
    refine .inr ⟨_, rfl, fun rest => ?_⟩
    rw [List.append_assoc]
    exact bracketKey_index (Number.natChars_areDigits n)
  | key k =>
    exact parted_key fun inside => (h '"' (inside.subset List.mem_cons_self)).1 rfl

/-- The keys of segments, behind a name that is being read and behind a closing bracket. -/
theorem scanKeys_segments {segments : List Segment} (parted : ∀ s ∈ segments, s.Parted)
    (enough : (segments.flatMap Segment.chars).length ≤ n) :
    (current ≠ [] → scanKeys n current (segments.flatMap Segment.chars) =
      current :: segments.map Segment.keyChars) ∧
    scanKeys n [] (dropDot (segments.flatMap Segment.chars)) = segments.map Segment.keyChars := by
  induction segments generalizing n current with
  | nil =>
    have empty (current : List Char) :
        scanKeys n current [] = if current.isEmpty then [] else [current] := by
      cases n <;> rfl
    refine ⟨fun started => ?_, empty []⟩
    rw [List.flatMap_nil, empty, if_neg (by simpa using started)]
    rfl
  | cons s segments ih =>
    obtain ⟨first, others⟩ := List.forall_mem_cons.1 parted
    rw [List.flatMap_cons, List.length_append] at enough
    rw [List.flatMap_cons, List.map_cons]
    rcases first with ⟨chars, plain, some_⟩ | ⟨body, chars, closes⟩
    · -- a key behind a dot is read on as a name
      rw [chars, List.length_cons] at enough
      obtain ⟨m, rfl⟩ : ∃ m, n = s.keyChars.length + m + 1 :=
        ⟨n - s.keyChars.length - 1, by omega⟩
      have more := (@ih s.keyChars m others (by omega)).1 some_
      have spare := (@ih s.keyChars (m + 1) others (by omega)).1 some_
      rw [chars, List.cons_append]
      refine ⟨fun started => ?_, ?_⟩
      · have step : scanKeys (s.keyChars.length + m + 1) current
            ('.' :: (s.keyChars ++ segments.flatMap Segment.chars)) =
          current :: scanKeys (s.keyChars.length + m) []
            (s.keyChars ++ segments.flatMap Segment.chars) := rfl
        rw [step, scanKeys_plain plain, List.nil_append, more]
      · rw [dropDot, Nat.add_assoc, scanKeys_plain plain, List.nil_append, spare]
    · rw [chars, List.length_cons] at enough
      obtain ⟨m, rfl⟩ : ∃ m, n = m + 1 := ⟨n - 1, by omega⟩
      have more := (@ih [] m others (by omega)).2
      rw [chars, List.cons_append]
      refine ⟨fun started => ?_, ?_⟩
      · rw [scanKeys_bracket, closes, more, if_neg (by simpa using started)]
        rfl
      · rw [dropDot, scanKeys_bracket, closes, more]
        rfl
        rintro _ ⟨⟩

/-- A path is taken apart into its root and the keys of its segments. -/
theorem keys_written {root : String} (word : IsWord root) {segments : List Segment}
    (valid : ∀ s ∈ segments, s.Valid) :
    keys (written root segments) = root.toList :: segments.map Segment.keyChars := by
  obtain ⟨plain, some_⟩ := plain_word word
  rw [keys, written, List.length_append, scanKeys_plain plain, List.nil_append]
  exact (scanKeys_segments (fun s member => (valid s member).parted) (Nat.le_refl _)).1 some_

end Keys

section Trimming

/-- The text ends in a character that is not blank. -/
def EndsInked (cs : List Char) : Prop := ∃ us c, cs = us ++ [c] ∧ Text.isBlank c = false

theorem EndsInked.append {vs : List Char} (h : EndsInked vs) (us : List Char) :
    EndsInked (us ++ vs) := by
  obtain ⟨ws, c, rfl, inked⟩ := h
  exact ⟨us ++ ws, c, (List.append_assoc us ws [c]).symm, inked⟩

theorem EndsInked.trim_eq {c : Char} {cs : List Char} (h : EndsInked (c :: cs))
    (first : Text.isBlank c = false) : Text.trim (c :: cs) = c :: cs := by
  obtain ⟨us, d, split, inked⟩ := h
  have start : Text.trimStart (c :: cs) = c :: cs := by
    rw [Text.trimStart_cons, first, if_neg Bool.false_ne_true]
  rw [Text.trim, start, split, Text.trimEnd, List.reverse_append]
  simp [inked]

theorem endsInked_of_forall {cs : List Char} (some_ : cs ≠ [])
    (inked : ∀ c ∈ cs, Text.isBlank c = false) : EndsInked cs :=
  ⟨cs.dropLast, cs.getLast some_, (List.dropLast_concat_getLast some_).symm,
    inked _ (List.getLast_mem some_)⟩

theorem word_inked {s : String} (h : IsWord s) : ∀ c ∈ s.toList, Text.isBlank c = false := by
  obtain ⟨d, ds, split, first, others⟩ := h
  intro c member
  rw [Bool.eq_false_iff]
  intro blank
  obtain ⟨noStart, noPart⟩ := blank_of_no_word blank
  rw [split] at member
  rcases List.mem_cons.1 member with rfl | member
  · exact absurd first (by simp [noStart])
  · exact absurd (others c member) (by simp [noPart])

theorem digits_inked {cs : List Char} (h : AreDigits cs) : ∀ c ∈ cs, Text.isBlank c = false := by
  intro c member
  rw [Bool.eq_false_iff]
  intro blank
  have apart : ∀ n ∈ blanks, (Char.ofNat n).isDigit = false := by decide
  have other := apart _ (mem_blanks blank)
  rw [Char.ofNat_toNat, h.2 c member] at other
  cases other

theorem Segment.Valid.endsInked {s : Segment} (h : s.Valid) : EndsInked s.chars := by
  cases s with
  | name s => exact (endsInked_of_forall (plain_word h).2 (word_inked h)).append ['.']
  | number n =>
    have digits := Number.natChars_areDigits n
    exact (endsInked_of_forall digits.1 (digits_inked digits)).append ['.']
  | index n => exact ⟨'[' :: Number.natChars n, ']', rfl, rfl⟩
  | key k => exact ⟨'[' :: '"' :: (k.toList ++ ['"']), ']', by simp [chars], rfl⟩

theorem endsInked_written {root : String} (word : IsWord root) {segments : List Segment}
    (valid : ∀ s ∈ segments, s.Valid) : EndsInked (written root segments) := by
  have behind (us : List Char) (h : EndsInked us) :
      EndsInked (us ++ segments.flatMap Segment.chars) := by
    induction segments generalizing us with
    | nil => rwa [List.flatMap_nil, List.append_nil]
    | cons s segments ih =>
      obtain ⟨first, others⟩ := List.forall_mem_cons.1 valid
      rw [List.flatMap_cons, ← List.append_assoc]
      exact ih others _ (first.endsInked.append us)
  exact behind _ (endsInked_of_forall (plain_word word).2 (word_inked word))

end Trimming

section Following

/-- The member at a list of keys. -/
def walk (v : Value) (keys : List (List Char)) : Value :=
  keys.foldl (fun v key => v.memberAt (String.ofList key)) v

theorem walk_undefined (keys : List (List Char)) : walk .undefined keys = .undefined := by
  induction keys with
  | nil => rfl
  | cons key keys ih => exact ih

theorem follow_eq (v : Value) (keys : List (List Char)) : follow v keys = walk v keys := by
  induction keys generalizing v with
  | nil => rfl
  | cons key keys ih =>
    have step : walk v (key :: keys) = walk (v.memberAt (String.ofList key)) keys := rfl
    rw [follow, step]
    split
    · next missing => rw [missing, walk_undefined]
    · exact ih _

/-- Where no member is spelled like the whole path, its keys are followed. -/
theorem resolve_eq_walk {path : List Char} (trimmed : Text.trim path = path) (other : path ≠ ['&'])
    (some_ : path ≠ []) {data : Value}
    (fresh : ∀ ms, data = .object ms → ms.lookup (String.ofList path) = none) :
    resolve path data = walk data (keys path) := by
  unfold resolve
  dsimp only
  rw [trimmed, if_neg other, if_neg (by simpa using some_)]
  split
  · next ms => rw [fresh ms rfl, follow_eq]
  · exact follow_eq _ _

theorem resolve_written {root : String} (word : IsWord root) {segments : List Segment}
    (valid : ∀ s ∈ segments, s.Valid) {data : Value}
    (fresh : ∀ ms, data = .object ms → ms.lookup (String.ofList (written root segments)) = none) :
    resolve (written root segments) data =
      walk data (root.toList :: segments.map Segment.keyChars) := by
  obtain ⟨d, ds, split, first, _⟩ := id word
  have starts : written root segments = d :: (ds ++ segments.flatMap Segment.chars) := by
    rw [written, split, List.cons_append]
  have inked : Text.isBlank d = false := word_inked word d (by rw [split]; exact List.mem_cons_self)
  have trimmed : Text.trim (written root segments) = written root segments := by
    have ends := endsInked_written word valid
    rw [starts] at ends ⊢
    exact ends.trim_eq inked
  have other : written root segments ≠ ['&'] := by
    rw [starts]
    intro whole
    rw [(List.cons.inj whole).1] at first
    cases first
  have some_ : written root segments ≠ [] := by
    rw [starts]
    exact List.cons_ne_nil _ _
  rw [resolve_eq_walk trimmed other some_ fresh, keys_written word valid]

end Following

section Enclosed

/-- The path of these keys, each in brackets and double quotes. -/
def enclosed (ks : List String) : List Char :=
  ks.flatMap fun k => '[' :: '"' :: (k.toList ++ ['"', ']'])

theorem enclosed_eq (ks : List String) :
    enclosed ks = (ks.map Segment.key).flatMap Segment.chars := by
  rw [List.flatMap_map]
  rfl

theorem enclosed_cons (k : String) (ks : List String) :
    enclosed (k :: ks) = '[' :: '"' :: (k.toList ++ '"' :: ']' :: enclosed ks) := by
  simp [enclosed]

theorem enclosed_endsInked {ks : List String} (some_ : ks ≠ []) : EndsInked (enclosed ks) := by
  rcases List.eq_nil_or_concat ks with rfl | ⟨init, last, rfl⟩
  · exact absurd rfl some_
  · refine ⟨enclosed init ++ '[' :: '"' :: (last.toList ++ ['"']), ']', ?_, rfl⟩
    simp [enclosed]

theorem trim_enclosed {ks : List String} (some_ : ks ≠ []) :
    Text.trim (enclosed ks) = enclosed ks := by
  have ends := enclosed_endsInked some_
  obtain ⟨k, ks, rfl⟩ := List.exists_cons_of_ne_nil some_
  rw [enclosed_cons] at ends ⊢
  exact ends.trim_eq rfl

theorem keys_enclosed {ks : List String} (unclosed : ∀ k ∈ ks, ¬ ['"', ']'] <:+: k.toList) :
    keys (enclosed ks) = ks.map String.toList := by
  have parted : ∀ s ∈ ks.map Segment.key, s.Parted :=
    List.forall_mem_map.2 fun k member => Segment.parted_key (unclosed k member)
  have bare : dropDot (enclosed ks) = enclosed ks := by
    cases ks with
    | nil => rfl
    | cons k ks =>
      rw [enclosed_cons]
      rfl
  have scanned := (@scanKeys_segments [] (enclosed ks).length _ parted
    (Nat.le_of_eq (congrArg List.length (enclosed_eq ks).symm))).2
  rw [← enclosed_eq, bare, List.map_map] at scanned
  exact scanned

theorem walk_eq_members (zone : Calendar.Zone) (v : Value) (ks : List String) :
    walk v (ks.map String.toList) = ks.foldl (fun v k => v.member zone (.text k)) v := by
  rw [walk, List.foldl_map]
  simp only [String.ofList_toList, Value.member_text]

/-- A path of keys in brackets is taken apart into these keys, and leads from member to member. -/
theorem enclosed_reaches {ks : List String} (some_ : ks ≠ [])
    (unclosed : ∀ k ∈ ks, ¬ ['"', ']'] <:+: k.toList) :
    keys (enclosed ks) = ks.map String.toList ∧
    ∀ (zone : Calendar.Zone) (data : Value),
      (∀ ms, data = .object ms → ms.lookup (String.ofList (enclosed ks)) = none) →
      resolve (enclosed ks) data = ks.foldl (fun v k => v.member zone (.text k)) data := by
  have split := keys_enclosed unclosed
  refine ⟨split, fun zone data fresh => ?_⟩
  have trimmed := trim_enclosed some_
  obtain ⟨k, ks, rfl⟩ := List.exists_cons_of_ne_nil some_
  have other : enclosed (k :: ks) ≠ ['&'] := by
    rw [enclosed_cons]
    nofun
  have some_ : enclosed (k :: ks) ≠ [] := by
    rw [enclosed_cons]
    exact List.cons_ne_nil _ _
  rw [resolve_eq_walk trimmed other some_ fresh, split, walk_eq_members]

/-- Keys with dots, brackets and quotes in them, and an empty one. -/
def awkward : List String := ["a.b", "", "x\"", "]['", " "]

def awkwardData : Value :=
  .object [("a.b", .object [("", .object [("x\"",
    .object [("]['", .object [(" ", .text "t")])])])])]

theorem enclosed_reaches_awkward :
    awkward ≠ [] ∧ (∀ k ∈ awkward, ¬ ['"', ']'] <:+: k.toList) ∧
    enclosed awkward = "[\"a.b\"][\"\"][\"x\"\"][\"]['\"][\" \"]".toList ∧
    keys (enclosed awkward) = awkward.map String.toList ∧
    resolve (enclosed awkward) awkwardData = .text "t" := by
  have some_ : awkward ≠ [] := by decide
  have unclosed : ∀ k ∈ awkward, ¬ ['"', ']'] <:+: k.toList := by decide
  have fresh : ∀ ms, awkwardData = .object ms →
      ms.lookup (String.ofList (enclosed awkward)) = none := by
    intro ms members
    cases members
    rfl
  obtain ⟨split, reaches⟩ := enclosed_reaches some_ unclosed
  exact ⟨some_, unclosed, rfl, split, reaches ⟨0⟩ awkwardData fresh⟩

end Enclosed

end Path

end TemplateFormula
