import Mathlib
import TemplateFormula.Builtin.Money

/-!
# What the words for an amount say

Words for an amount are read from left to right: a digit waits for its mark, a mark of a place adds
it to the group, a mark of a group adds the group to the total. A zero with its mark changes nothing
where it stands, so neither leaving it out nor speaking a run of zeros as one changes what is read:
the last twelve digits of the amount.
-/

namespace TemplateFormula.Builtin.Money

/-- What has been read: the groups that are complete, the places of the present one, and a digit. -/
structure Reading where
  total : Nat
  group : Nat
  digit : Nat

namespace Reading

def step (r : Reading) (c : Char) : Reading :=
  match digits.idxOf? c, places.idxOf? [c], groups.idxOf? c with
  | some d, _, _ => { r with digit := d }
  | none, some p, _ => ⟨r.total, r.group + r.digit * 10 ^ p, 0⟩
  | none, none, some g => ⟨r.total + (r.group + r.digit) * 10 ^ (4 * g), 0, 0⟩
  | none, none, none => r

def start : Reading := ⟨0, 0, 0⟩

variable {r r' r'' : Reading} {c : Char} {a b : List Char}

theorem step_digit (r : Reading) {d : Nat} (hd : d < 10) :
    r.step (digitChar d) = { r with digit := d } := by
  interval_cases d <;> rfl

theorem step_place {k : Nat} (hk : places[k]? = some [c]) :
    c ≠ zero ∧ ∀ r : Reading, r.step c = ⟨r.total, r.group + r.digit * 10 ^ k, 0⟩ := by
  have lt : k < places.length := (List.getElem?_eq_some_iff.1 hk).1
  change k < 4 at lt
  interval_cases k
  · cases hk
  all_goals
    cases hk
    exact ⟨by decide, fun _ => rfl⟩

theorem step_group {g : Nat} (hg : groups[g]? = some c) :
    c ≠ zero ∧ ∀ r : Reading, r.step c = ⟨r.total + (r.group + r.digit) * 10 ^ (4 * g), 0, 0⟩ := by
  have lt : g < groups.length := (List.getElem?_eq_some_iff.1 hg).1
  change g < 3 at lt
  interval_cases g
  all_goals
    cases hg
    exact ⟨by decide, fun _ => rfl⟩

/-- A text leads from one reading to another, and each zero in it stands before a mark where
neither changes the reading. -/
inductive Leads : Reading → List Char → Reading → Prop where
  | nil (r : Reading) : Leads r [] r
  | idle {r r' : Reading} {c : Char} {cs : List Char} (ne : c ≠ zero) (still : r.step zero = r)
      (still' : r.step c = r) (rest : Leads r cs r') : Leads r (zero :: c :: cs) r'
  | char {r r' : Reading} {c : Char} {cs : List Char} (ne : c ≠ zero)
      (rest : Leads (r.step c) cs r') : Leads r (c :: cs) r'

theorem Leads.append (first : Leads r a r') (second : Leads r' b r'') : Leads r (a ++ b) r'' := by
  induction first with
  | nil => exact second
  | idle ne still still' _ ih => exact .idle ne still still' (ih second)
  | char ne _ ih => exact .char ne (ih second)

theorem zerosToUnit?_of_ne {cs : List Char} (ne : c ≠ zero) : zerosToUnit? (c :: cs) = none := by
  unfold zerosToUnit?
  split
  · next same =>
    cases same
    exact absurd rfl ne
  · next same =>
    cases same
    exact absurd rfl ne
  · rfl

theorem dropZerosAtUnit_of_ne {cs : List Char} (ne : c ≠ zero) :
    dropZerosAtUnit (c :: cs) = c :: dropZerosAtUnit cs := by
  rw [Money.dropZerosAtUnit, zerosToUnit?_of_ne ne]

/-- Zeros up to the unit, and the unit, change nothing. -/
theorem Leads.zerosToUnit (h : Leads r a r') {rest : List Char}
    (found : zerosToUnit? a = some rest) :
    r.step '元' = r ∧ Leads r rest r' := by
  induction h with
  | nil => cases found
  | char ne _ _ =>
    rw [zerosToUnit?_of_ne ne] at found
    cases found
  | @idle r _ c cs ne still still' rest' ih =>
    by_cases unit : c = '元'
    · subst unit
      exact ⟨still', Option.some.inj found ▸ rest'⟩
    · have further : zerosToUnit? (zero :: c :: cs) = zerosToUnit? cs := by
        rw [zero, zerosToUnit?]
        exact fun same => absurd same unit
      exact ih (further ▸ found)

theorem Leads.dropZerosAtUnit (h : Leads r a r') : Leads r (dropZerosAtUnit a) r' := by
  induction h with
  | nil => exact .nil _
  | char ne _ ih =>
    rw [dropZerosAtUnit_of_ne ne]
    exact .char ne ih
  | @idle r _ c cs ne still still' rest' ih =>
    rw [Money.dropZerosAtUnit]
    split
    · next rest found =>
      obtain ⟨unit, led⟩ := (Leads.idle ne still still' rest').zerosToUnit found
      exact .char (by decide) (unit.symm ▸ led)
    · rw [dropZerosAtUnit_of_ne ne]
      exact .idle ne still still' ih

theorem squeezeZeros_of_ne {inRun : Bool} {cs : List Char} (ne : c ≠ zero) :
    squeezeZeros inRun (c :: cs) = c :: squeezeZeros false cs := by
  rw [Money.squeezeZeros]
  exact fun _ _ same => absurd same ne

/-- What is read does not tell a run of zeros from one. -/
theorem Leads.squeezeZeros (h : Leads r a r') (inRun : Bool) :
    (squeezeZeros inRun a).foldl step r = r' := by
  induction h generalizing inRun with
  | nil => rfl
  | char ne _ ih =>
    rw [squeezeZeros_of_ne ne]
    exact ih false
  | @idle r _ c cs ne still still' rest' ih =>
    have run : Money.squeezeZeros inRun (zero :: c :: cs) =
        (if inRun then [] else [zero]) ++ Money.squeezeZeros true cs := rfl
    rw [run, List.foldl_append]
    cases inRun with
    | true => exact ih true
    | false =>
      exact (congrArg (List.foldl step · _) still).trans (ih true)

end Reading

open Reading (Leads)

variable {n v : Nat} {ds : List Nat} {text : List Char}

/-- A digit of a group with its mark. -/
def spokenDigit (p : Nat × List Char) : List Char := digitChar p.1 :: p.2

/-- Digits with their marks, last one first. -/
def spokenDigits (ps : List (Nat × List Char)) : List Char := ps.reverse.flatMap spokenDigit

theorem spokenDigits_cons (p : Nat × List Char) (ps : List (Nat × List Char)) :
    spokenDigits (p :: ps) = spokenDigits ps ++ spokenDigit p := by
  simp [spokenDigits]

/-- The places of a group but the last have marks. -/
theorem places_drop {k : Nat} (pos : 0 < k) (lt : k < 4) :
    ∃ c, places[k]? = some [c] ∧ places.drop k = [c] :: places.drop (k + 1) := by
  interval_cases k <;> exact ⟨_, rfl, rfl⟩

theorem digitChar_ne_zero {d : Nat} (pos : 0 < d) (lt : d < 10) : digitChar d ≠ zero := by
  interval_cases d <;> decide

theorem leads_digit {c : Char} {d k : Nat} (hd : d < 10) (mark : places[k]? = some [c])
    (t g : Nat) : Leads ⟨t, g, 0⟩ (spokenDigit (d, [c])) ⟨t, g + d * 10 ^ k, 0⟩ := by
  obtain ⟨ne, step⟩ := Reading.step_place mark
  rcases Nat.eq_zero_or_pos d with rfl | pos
  · rw [Nat.zero_mul, Nat.add_zero]
    have still : Reading.step ⟨t, g, 0⟩ c = ⟨t, g, 0⟩ := by
      rw [step, Nat.zero_mul, Nat.add_zero]
    exact .idle ne rfl still (.nil _)
  · refine .char (digitChar_ne_zero pos hd) (.char ne ?_)
    rw [Reading.step_digit _ hd, step]
    exact .nil _

theorem ofDigits_place (d : Nat) (ds : List Nat) (k : Nat) :
    Nat.ofDigits 10 (d :: ds) * 10 ^ k = Nat.ofDigits 10 ds * 10 ^ (k + 1) + d * 10 ^ k := by
  rw [Nat.ofDigits_cons]
  ring

/-- The digits from a place on, of which each has a mark. -/
theorem leads_digits (small : ∀ d ∈ ds, d < 10) {k : Nat} (pos : 0 < k) (short : k + ds.length ≤ 4)
    (t : Nat) : Leads ⟨t, 0, 0⟩ (spokenDigits (ds.zip (places.drop k)))
      ⟨t, Nat.ofDigits 10 ds * 10 ^ k, 0⟩ := by
  induction ds generalizing k with
  | nil =>
    rw [Nat.ofDigits_nil, Nat.zero_mul]
    exact .nil _
  | cons d ds ih =>
    rw [List.length_cons] at short
    obtain ⟨c, mark, place⟩ := places_drop pos (by omega)
    rw [place, List.zip_cons_cons, spokenDigits_cons]
    have before := ih (fun d h => small d (List.mem_cons_of_mem _ h)) (Nat.succ_pos k) (by omega)
    rw [ofDigits_place]
    exact before.append (leads_digit (small d List.mem_cons_self) mark t _)

/-- Digits without the zeros at their end. -/
def kept (ps : List (Nat × List Char)) : List (Nat × List Char) := ps.dropWhile (·.1 == 0)

theorem kept_zero (p : List Char) (ps : List (Nat × List Char)) : kept ((0, p) :: ps) = kept ps :=
  rfl

theorem kept_of_pos {d : Nat} (pos : 0 < d) (p : List Char) (ps : List (Nat × List Char)) :
    kept ((d, p) :: ps) = (d, p) :: ps :=
  List.dropWhile_cons_of_neg (by simpa using Nat.ne_of_gt pos)

theorem leads_kept (small : ∀ d ∈ ds, d < 10) {k : Nat} (pos : 0 < k) (short : k + ds.length ≤ 4)
    (t : Nat) : Leads ⟨t, 0, 0⟩ (spokenDigits (kept (ds.zip (places.drop k))))
      ⟨t, Nat.ofDigits 10 ds * 10 ^ k, 0⟩ := by
  induction ds generalizing k with
  | nil => exact leads_digits small pos short t
  | cons d ds ih =>
    have shorter : k + 1 + ds.length ≤ 4 := by
      rw [List.length_cons] at short
      omega
    obtain ⟨c, -, place⟩ := places_drop pos (by omega)
    rcases Nat.eq_zero_or_pos d with rfl | nonzero
    · rw [place, List.zip_cons_cons, kept_zero, ofDigits_place, Nat.zero_mul, Nat.add_zero]
      exact ih (fun d h => small d (List.mem_cons_of_mem _ h)) (Nat.succ_pos k) shorter
    · have all : kept ((d :: ds).zip (places.drop k)) = (d :: ds).zip (places.drop k) := by
        rw [place, List.zip_cons_cons, kept_of_pos nonzero]
      rw [all]
      exact leads_digits small pos short t

/-- The digits of a group, of which the last has no mark. -/
theorem leads_group (small : ∀ d ∈ ds, d < 10) (short : ds.length ≤ 4) (t : Nat) :
    ∃ g d, Leads ⟨t, 0, 0⟩ (spokenDigits (kept (ds.zip places))) ⟨t, g, d⟩ ∧
      g + d = Nat.ofDigits 10 ds := by
  cases ds with
  | nil => exact ⟨0, 0, .nil _, rfl⟩
  | cons d ds =>
    have first : (d :: ds).zip places = (d, []) :: ds.zip (places.drop 1) := rfl
    have small' : ∀ d ∈ ds, d < 10 := fun d h => small d (List.mem_cons_of_mem _ h)
    have short' : 1 + ds.length ≤ 4 := by
      rw [List.length_cons] at short
      omega
    have value : Nat.ofDigits 10 ds * 10 ^ 1 + d = Nat.ofDigits 10 (d :: ds) := by
      rw [Nat.ofDigits_cons]
      ring
    rw [first]
    rcases Nat.eq_zero_or_pos d with rfl | pos
    · exact ⟨_, 0, leads_kept small' Nat.one_pos short' t, value⟩
    · rw [kept_of_pos pos, spokenDigits_cons]
      have lt := small d List.mem_cons_self
      refine ⟨_, d, (leads_digits small' Nat.one_pos short' t).append ?_, value⟩
      refine .char (digitChar_ne_zero pos lt) ?_
      rw [Reading.step_digit _ lt]
      exact .nil _

theorem groupChars_eq (ds : List Nat) : groupChars ds =
    if kept (ds.zip places) = [] then [zero] else spokenDigits (kept (ds.zip places)) := by
  rw [groupChars, kept]
  split
  · next none => rw [none, if_pos rfl]
  · next some => rw [if_neg some, spokenDigits]; rfl

/-- The words of a text add so much to the total. -/
def Speaks (text : List Char) (v : Nat) : Prop := ∀ t, Leads ⟨t, 0, 0⟩ text ⟨t + v, 0, 0⟩

theorem speaks_even : Speaks even 0 := fun t => .char (by decide) (.nil ⟨t, 0, 0⟩)

/-- A group and its mark in front of words. -/
theorem speaks_group (small : ∀ d ∈ ds, d < 10) (short : ds.length ≤ 4) {c : Char} {i : Nat}
    (mark : groups[i]? = some c) (speaks : Speaks text v) :
    Speaks (groupChars ds ++ c :: text) (Nat.ofDigits 10 ds * 10 ^ (4 * i) + v) := by
  intro t
  obtain ⟨ne, step⟩ := Reading.step_group mark
  obtain ⟨g, d, leads, value⟩ := leads_group small short t
  rw [groupChars_eq]
  split
  · next none =>
    -- a group of zeros
    rw [none] at leads
    cases leads
    have still : Reading.step ⟨t, 0, 0⟩ c = ⟨t, 0, 0⟩ := by simp [step]
    rw [← value, Nat.zero_mul, Nat.zero_add]
    exact .idle ne rfl still (speaks t)
  · refine leads.append (.char ne ?_)
    rw [step, value, ← Nat.add_assoc]
    exact speaks _

/-- The groups of a whole amount in front of a text. -/
def spoken (n : Nat) (text : List Char) : List Char → List Char
  | [] => text
  | mark :: marks =>
    if n = 0 then text
    else spoken (n / 10 ^ 4) (groupChars ((Nat.digits 10 n).take 4) ++ mark :: text) marks

theorem speaks_spoken (earlier : List Char) {marks : List Char} (all : groups = earlier ++ marks)
    (speaks : Speaks text v) : Speaks (spoken n text marks)
      (n % 10 ^ (4 * marks.length) * 10 ^ (4 * earlier.length) + v) := by
  induction marks generalizing earlier n text v with
  | nil =>
    rw [List.length_nil, Nat.mul_zero, Nat.pow_zero, Nat.mod_one, Nat.zero_mul, Nat.zero_add]
    exact speaks
  | cons mark marks ih =>
    rw [spoken]
    split
    · next zero =>
      rw [zero, Nat.zero_mod, Nat.zero_mul, Nat.zero_add]
      exact speaks
    · have place : groups[earlier.length]? = some mark := by
        rw [all, List.getElem?_append_right le_rfl, Nat.sub_self]
        rfl
      have small : ∀ d ∈ (Nat.digits 10 n).take 4, d < 10 := fun d h =>
        Nat.digits_lt_base (by decide) (List.mem_of_mem_take h)
      have group := speaks_group small (List.length_take_le 4 _) place speaks
      have rest := ih (n := n / 10 ^ 4) (earlier ++ [mark]) (by simpa using all) group
      rw [← Nat.self_mod_pow_eq_ofDigits_take 4 n (by decide)] at rest
      have value : n % 10 ^ (4 * (mark :: marks).length) * 10 ^ (4 * earlier.length) =
          n / 10 ^ 4 % 10 ^ (4 * marks.length) * 10 ^ (4 * (earlier ++ [mark]).length) +
            n % 10 ^ 4 * 10 ^ (4 * earlier.length) := by
        rw [List.length_cons, Nat.mul_succ, Nat.pow_add, Nat.mul_comm (10 ^ _), Nat.mod_mul,
          List.length_append, List.length_singleton, Nat.mul_succ, Nat.pow_add]
        ring
      rw [value, Nat.add_assoc]
      exact rest

/-- Words that say nothing but that there is no fraction. -/
def orZero (text : List Char) : List Char := if text = even then zero :: '元' :: even else text

/-- What the words of an amount say. -/
def amount (text : List Char) : Nat := (text.foldl Reading.step .start).total

theorem amount_orZero (text : List Char) : amount (orZero text) = amount text := by
  rw [orZero]
  split
  · next none =>
    rw [none]
    rfl
  · rfl

/-- The words for a whole amount say its last twelve digits. -/
theorem amount_spoken (n : Nat) :
    amount (orZero (squeezeZeros false (dropZerosAtUnit (spoken n even groups)))) = n % 10 ^ 12 := by
  have speaks : Speaks (spoken n even groups) (n % 10 ^ 12 * 1 + 0) :=
    speaks_spoken [] rfl speaks_even
  have total := congrArg Reading.total ((speaks 0).dropZerosAtUnit.squeezeZeros false)
  rw [Nat.mul_one, Nat.add_zero, Nat.zero_add] at total
  rw [amount_orZero]
  exact total

end TemplateFormula.Builtin.Money
