import TemplateFormula.Text.Case

/-!
# Searching, splitting and replacing

Occurrences are found from the left and do not overlap. All positions count characters, and texts
are ordered by code point.
-/

namespace TemplateFormula.Text

/-- The first position at which the pattern stands. -/
def find? (pattern : List Char) : List Char → Option Nat
  | [] => if pattern.isEmpty then some 0 else none
  | c :: cs => if pattern.isPrefixOf (c :: cs) then some 0 else (find? pattern cs).map (· + 1)

def contains (pattern cs : List Char) : Bool := (find? pattern cs).isSome

/-- Puts a character in front of the first part. -/
def consFirst (c : Char) : List (List Char) → List (List Char)
  | [] => [[c]]
  | p :: ps => (c :: p) :: ps

/-- The parts between occurrences of a separator, after passing over some characters. -/
def splitFrom (separator : List Char) : Nat → List Char → List (List Char)
  | _, [] => [[]]
  | skip + 1, _ :: cs => splitFrom separator skip cs
  | 0, c :: cs =>
    if separator.isPrefixOf (c :: cs) then [] :: splitFrom separator (separator.length - 1) cs
    else consFirst c (splitFrom separator 0 cs)

/-- The parts between occurrences of a separator; the empty separator stands nowhere. -/
def splitOn (separator cs : List Char) : List (List Char) :=
  if separator.isEmpty then [cs] else splitFrom separator 0 cs

/-- The parts between occurrences of a separator, where the empty separator stands between all
characters. -/
def parts (separator cs : List Char) : List (List Char) :=
  if separator.isEmpty then cs.map fun c => [c] else splitOn separator cs

def join (glue : List Char) : List (List Char) → List Char
  | [] => []
  | [p] => p
  | p :: q :: ps => p ++ glue ++ join glue (q :: ps)

/-- Replaces occurrences of a pattern, after passing over some characters. -/
def replaceFrom (search replacement : List Char) : Nat → List Char → List Char
  | _, [] => []
  | skip + 1, _ :: cs => replaceFrom search replacement skip cs
  | 0, c :: cs =>
    if search.isPrefixOf (c :: cs) then
      replacement ++ replaceFrom search replacement (search.length - 1) cs
    else c :: replaceFrom search replacement 0 cs

def replace (search replacement cs : List Char) : List Char :=
  if search.isEmpty then cs else replaceFrom search replacement 0 cs

/-- The trimmed parts between commas, without the empty ones. -/
def commaList (cs : List Char) : List (List Char) :=
  ((splitOn [','] cs).map trim).filter (!·.isEmpty)

/-- The text before and after the first occurrence of a character. -/
def splitOnce? (c : Char) : List Char → Option (List Char × List Char)
  | [] => none
  | d :: cs => if d = c then some ([], cs) else (splitOnce? c cs).map fun p => (d :: p.1, p.2)

/-- Occurrence up to letter case, character by character. -/
def containsFolded (pattern cs : List Char) : Bool :=
  contains (pattern.map foldChar) (cs.map foldChar)

def order : List Char → List Char → Ordering
  | [], [] => .eq
  | [], _ :: _ => .lt
  | _ :: _, [] => .gt
  | c :: cs, d :: ds => if c < d then .lt else if d < c then .gt else order cs ds

@[simp] theorem join_nil (glue : List Char) : join glue [] = [] := rfl

@[simp] theorem join_singleton (glue p : List Char) : join glue [p] = p := rfl

theorem join_cons_cons (glue p q : List Char) (ps : List (List Char)) :
    join glue (p :: q :: ps) = p ++ glue ++ join glue (q :: ps) := rfl

end TemplateFormula.Text
