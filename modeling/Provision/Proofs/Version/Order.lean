import Mathlib.Algebra.Group.Nat.Defs
import Mathlib.Data.List.Lex
import Mathlib.Data.Prod.Lex
import Mathlib.Order.Compare
import Mathlib.Order.PiLex
import Provision.Version.Order

/-!
# The ranks of versions

The order of versions reads two texts side by side and stops at the first difference.  Here it
is told without that: every version has a `rank` of its own, its epoch and then its runs as a
sequence without end, since a text that is exhausted goes on with empty runs.  Ranks are
compared lexicographically, and so are the words in them, by characters of which letters are
the first.  All of these orders are Mathlib's, and linear.

`compares_rank` says that comparing versions is comparing ranks.  Each part of the comparison
compares its part of the rank: characters (`compares_charRank`), words (`compares_words`),
numerals of any length (`compares_numerals`) and texts (`compares_textRank`).
-/
namespace Provision.Version

/-! ## Ranks -/

/-- The number that digits write. -/
abbrev numeral (digits : List Char) : ℕ := Nat.ofDigitChars 10 digits 0

/-- The runs of a text, cut from the left: what stands before the next digits, and the number
that these digits write. -/
def runs (text : List Char) : List (List Char × ℕ) :=
  if text = [] then []
  else
    (word text, numeral ((afterWord text).takeWhile Char.isDigit)) :: runs (afterRuns text)
termination_by text.length
decreasing_by exact length_afterRuns_lt (by assumption)

/-- Letters come first, then code points decide. -/
def charRank (c : Char) : Bool ×ₗ ℕ :=
  toLex (!c.isAlpha, c.toNat)

/-- The rank of a run: its word, then its number. -/
abbrev RunRank := List (Bool ×ₗ ℕ) ×ₗ ℕ

def runRank (run : List Char × ℕ) : RunRank :=
  toLex (run.1.map charRank, run.2)

/-- The ranks of a text's runs, in order.  An exhausted text goes on with an empty word and the
number zero. -/
def textRank (text : List Char) : Lex (ℕ → RunRank) :=
  toLex fun i => runRank ((runs text).getD i ([], 0))

/-- The rank of a version: its epoch, then its runs. -/
abbrev Rank := ℕ ×ₗ Lex (ℕ → RunRank)

def rank (v : Version) : Rank :=
  toLex (v.epoch.toNat, textRank v.text.toList)

/-! ## Comparing lexicographically -/

section Lexicographic

variable {α β γ : Type} [LT α] [LT β] {o o' : Ordering}

/-- What respects an order respects comparisons. -/
theorem compares_image {f : α → β} (hf : ∀ {a a'}, a < a' → f a < f a') {a a' : α}
    (h : o.Compares a a') : o.Compares (f a) (f a') := by
  cases o with
  | lt => exact hf h
  | eq => exact congrArg f h
  | gt => exact hf h

/-- What is compared by a first part, and only then by the rest. -/
theorem compares_then {a a' : α} {b b' : β} (h : o.Compares a a') (hlt : a < a' → b < b')
    (hgt : a' < a → b' < b) (heq : a = a' → o'.Compares b b') : (o.then o').Compares b b' := by
  cases o with
  | lt => exact hlt h
  | eq => exact heq h
  | gt => exact hgt h

theorem compares_pair {a a' : α} {b b' : β} (h : o.Compares a a') (h' : o'.Compares b b') :
    (o.then o').Compares (toLex (a, b)) (toLex (a', b')) := by
  refine compares_then h (fun hlt => ?_) (fun hgt => ?_) fun heq => ?_
  · exact Prod.Lex.toLex_lt_toLex.mpr (Or.inl hlt)
  · exact Prod.Lex.toLex_lt_toLex.mpr (Or.inl hgt)
  · subst heq
    exact compares_image (f := fun b => toLex (a, b))
      (fun hlt => Prod.Lex.toLex_lt_toLex.mpr (Or.inr ⟨rfl, hlt⟩)) h'

/-- Lists are compared entry by entry, and one that ends first is smaller. -/
theorem compares_map {cmp : γ → γ → Ordering} {f : γ → α}
    (h : ∀ x y, (cmp x y).Compares (f x) (f y)) (l l' : List γ) :
    (List.compareLex cmp l l').Compares (l.map f) (l'.map f) := by
  induction l generalizing l' with
  | nil =>
    cases l' with
    | nil => rfl
    | cons y l' =>
      rw [List.compareLex_nil_cons]
      exact List.nil_lt_cons ..
  | cons x l ih =>
    cases l' with
    | nil =>
      rw [List.compareLex_cons_nil]
      exact List.nil_lt_cons ..
    | cons y l' =>
      rw [List.compareLex_cons_cons, List.map_cons, List.map_cons]
      refine compares_then (h x y) List.Lex.rel List.Lex.rel fun heq => ?_
      rw [heq]
      exact compares_image List.Lex.cons (ih l')

/-- A sequence is compared by its first entry, then by those that follow. -/
theorem compares_sequence {f g : ℕ → α} (h : o.Compares (f 0) (g 0))
    (h' : o'.Compares (toLex fun i => f (i + 1)) (toLex fun i => g (i + 1))) :
    (o.then o').Compares (toLex f) (toLex g) := by
  have hhead {f g : ℕ → α} (hlt : f 0 < g 0) : toLex f < toLex g :=
    ⟨0, fun j hj => absurd hj (Nat.not_lt_zero j), hlt⟩
  have htail {f g : ℕ → α} (heq : f 0 = g 0)
      (hlt : toLex (fun i => f (i + 1)) < toLex fun i => g (i + 1)) : toLex f < toLex g := by
    obtain ⟨i, hsame, hi⟩ := hlt
    refine ⟨i + 1, fun j hj => ?_, hi⟩
    cases j with
    | zero => exact heq
    | succ j => exact hsame j (Nat.lt_of_succ_lt_succ hj)
  refine compares_then h hhead hhead fun heq => ?_
  cases o' with
  | lt => exact htail heq h'
  | gt => exact htail heq.symm h'
  | eq =>
    refine congrArg toLex (funext fun i => ?_)
    cases i with
    | zero => exact heq
    | succ i => exact congrFun (toLex_inj.mp h') i

end Lexicographic

/-! ## Words -/

theorem compares_nat (m n : ℕ) : (Ord.compare m n).Compares m n :=
  (compare_iff m n).mp rfl

theorem compares_charRank (c d : Char) : (compareChars c d).Compares (charRank c) (charRank d) :=
  compares_pair ((compare_iff _ _).mp rfl) (compares_nat ..)

theorem compares_words (l l' : List Char) :
    (compareWords l l').Compares (l.map charRank) (l'.map charRank) :=
  compares_map compares_charRank l l'

/-! ## Numerals -/

/-- Only digits. -/
def Digits (l : List Char) : Prop := ∀ c ∈ l, c.isDigit = true

variable {l l' : List Char} {c d : Char}

theorem numeral_cons (c : Char) (l : List Char) :
    numeral (c :: l) = 10 ^ l.length * (c.toNat - '0'.toNat) + numeral l := by
  rw [numeral, Nat.ofDigitChars_cons, Nat.ofDigitChars_eq_ofDigitChars_zero, Nat.mul_zero,
    Nat.zero_add]

/-- Zeros in front do not count. -/
theorem numeral_dropWhile (l : List Char) : numeral (l.dropWhile (· == '0')) = numeral l := by
  induction l with
  | nil => rfl
  | cons c l ih =>
    rw [List.dropWhile_cons]
    split
    · rename_i hzero
      rw [ih, numeral_cons, beq_iff_eq.mp hzero, Nat.sub_self, Nat.mul_zero, Nat.zero_add]
    · rfl

/-- A digit more outweighs whatever digits follow. -/
theorem numeral_cons_lt {n : ℕ} (hl : numeral l < 10 ^ l.length) (h : c.toNat - '0'.toNat < n) :
    numeral (c :: l) < 10 ^ l.length * n :=
  calc numeral (c :: l)
    _ = 10 ^ l.length * (c.toNat - '0'.toNat) + numeral l := numeral_cons c l
    _ < 10 ^ l.length * (c.toNat - '0'.toNat) + 10 ^ l.length := Nat.add_lt_add_left hl _
    _ = 10 ^ l.length * (c.toNat - '0'.toNat + 1) := (Nat.mul_succ ..).symm
    _ ≤ 10 ^ l.length * n := Nat.mul_le_mul_left _ h

theorem numeral_lt (h : Digits l) : numeral l < 10 ^ l.length := by
  induction l with
  | nil => exact Nat.one_pos
  | cons c l ih =>
    obtain ⟨hc, hl⟩ := List.forall_mem_cons.mp h
    obtain ⟨hle, hge⟩ := Char.isDigit_iff_toNat.mp hc
    exact numeral_cons_lt (ih hl) (Nat.sub_lt_left_of_lt_add hle (Nat.lt_succ_of_le hge))

/-- A numeral is no less than its first digit counts. -/
theorem le_numeral_cons {n : ℕ} (h : n ≤ c.toNat - '0'.toNat) :
    10 ^ l.length * n ≤ numeral (c :: l) := by
  rw [numeral_cons]
  exact Nat.le_trans (Nat.mul_le_mul_left _ h) (Nat.le_add_right ..)

/-- Of two numerals of one length, the first digit that differs decides. -/
theorem compares_numeral_of_length_eq (h : Digits l) (h' : Digits l')
    (hlength : l.length = l'.length) :
    (List.compareLex (compareOn Char.toNat) l l').Compares (numeral l) (numeral l') := by
  induction l generalizing l' with
  | nil =>
    obtain rfl := List.length_eq_zero_iff.mp hlength.symm
    rfl
  | cons c l ih =>
    cases l' with
    | nil => cases hlength
    | cons d l' =>
      obtain ⟨hc, hl⟩ := List.forall_mem_cons.mp h
      obtain ⟨hd, hl'⟩ := List.forall_mem_cons.mp h'
      have hlength' : l.length = l'.length := Nat.succ_inj.mp hlength
      have hfirst {c d : Char} {l l' : List Char} (hc : c.isDigit = true) (hl : Digits l)
          (hlength : l.length = l'.length) (hlt : c.toNat < d.toNat) :
          numeral (c :: l) < numeral (d :: l') :=
        Nat.lt_of_lt_of_le
          (numeral_cons_lt (numeral_lt hl)
            (Nat.sub_lt_sub_right (Char.isDigit_iff_toNat.mp hc).1 hlt))
          (hlength ▸ le_numeral_cons (Nat.le_refl _))
      rw [List.compareLex_cons_cons]
      refine compares_then (compares_nat c.toNat d.toNat) (hfirst hc hl hlength')
        (hfirst hd hl' hlength'.symm) fun heq => ?_
      rw [numeral_cons, numeral_cons, hlength', heq]
      exact compares_image (Nat.add_lt_add_left · _) (ih hl hl' hlength')

/-- Without zeros in front, a longer numeral is larger. -/
theorem numeral_lt_of_length_lt (h : Digits l) (h' : Digits l')
    (hlength : l.length < (l'.dropWhile (· == '0')).length) : numeral l < numeral l' := by
  rw [← numeral_dropWhile l']
  cases hrest : l'.dropWhile (· == '0') with
  | nil =>
    rw [hrest] at hlength
    exact absurd hlength (Nat.not_lt_zero _)
  | cons d rest =>
    have hd : d.isDigit = true :=
      h' d ((List.dropWhile_sublist _).mem (hrest ▸ List.mem_cons_self ..))
    have hzero : d ≠ '0' := by
      have hhead := List.head?_dropWhile_not (· == '0') l'
      rw [hrest] at hhead
      simpa using hhead
    have hpos : 1 ≤ d.toNat - '0'.toNat := by
      refine Nat.sub_pos_of_lt (Nat.lt_of_le_of_ne (Char.isDigit_iff_toNat.mp hd).1 fun heq => ?_)
      exact hzero (Char.toNat_inj.mp heq.symm)
    rw [hrest] at hlength
    calc numeral l
      _ < 10 ^ l.length := numeral_lt h
      _ ≤ 10 ^ rest.length :=
        Nat.pow_le_pow_right (by decide) (Nat.le_of_lt_succ hlength)
      _ = 10 ^ rest.length * 1 := (Nat.mul_one _).symm
      _ ≤ numeral (d :: rest) := le_numeral_cons hpos

/-- **Comparing numerals** is comparing the numbers they write. -/
theorem compares_numerals (h : Digits l) (h' : Digits l') :
    (compareNumerals l l').Compares (numeral l) (numeral l') := by
  have hdigits {l : List Char} (h : Digits l) : Digits (l.dropWhile (· == '0')) :=
    fun c hc => h c ((List.dropWhile_sublist _).mem hc)
  rw [compareNumerals]
  refine compares_then
    (compares_nat (l.dropWhile (· == '0')).length (l'.dropWhile (· == '0')).length)
    (fun hlt => ?_) (fun hgt => ?_) fun heq => ?_
  · rw [← numeral_dropWhile l]
    exact numeral_lt_of_length_lt (hdigits h) h' hlt
  · rw [← numeral_dropWhile l']
    exact numeral_lt_of_length_lt (hdigits h') h hgt
  · rw [← numeral_dropWhile l, ← numeral_dropWhile l']
    exact compares_numeral_of_length_eq (hdigits h) (hdigits h') heq

/-! ## Texts -/

theorem runs_of_ne_nil {text : List Char} (h : text ≠ []) : runs text =
    (word text, numeral ((afterWord text).takeWhile Char.isDigit)) :: runs (afterRuns text) := by
  rw [runs, if_neg h]

/-- The first run of a text, empty if there is none. -/
theorem getD_runs_zero (text : List Char) : (runs text).getD 0 ([], 0) =
    (word text, numeral ((afterWord text).takeWhile Char.isDigit)) := by
  by_cases h : text = []
  · subst h
    rw [runs, if_pos rfl]
    rfl
  · rw [runs_of_ne_nil h, List.getD_cons_zero]

theorem getD_runs_succ (text : List Char) (i : ℕ) :
    (runs text).getD (i + 1) ([], 0) = (runs (afterRuns text)).getD i ([], 0) := by
  by_cases h : text = []
  · subst h
    rw [show afterRuns [] = [] from rfl, runs, if_pos rfl]
    rfl
  · rw [runs_of_ne_nil h, List.getD_cons_succ]

theorem digits_takeWhile (text : List Char) : Digits (text.takeWhile Char.isDigit) :=
  List.all_eq_true.mp List.all_takeWhile

theorem compareTexts_eq (a b : List Char) : compareTexts a b =
    ((compareWords (word a) (word b)).then
      (compareNumerals ((afterWord a).takeWhile Char.isDigit)
        ((afterWord b).takeWhile Char.isDigit))).then
      (compareTexts (afterRuns a) (afterRuns b)) := by
  rw [compareTexts]
  split
  · rename_i hempty
    obtain ⟨rfl, rfl⟩ := hempty
    rw [show afterRuns [] = [] from rfl, compareTexts, if_pos ⟨rfl, rfl⟩]
    rfl
  · cases compareWords (word a) (word b) with
    | lt => rfl
    | gt => rfl
    | eq =>
      cases compareNumerals ((afterWord a).takeWhile Char.isDigit)
        ((afterWord b).takeWhile Char.isDigit) <;> rfl

/-- The comparison gets on as long as one of the texts is not exhausted. -/
theorem length_afterRuns_add_lt {a b : List Char} (h : ¬ (a = [] ∧ b = [])) :
    (afterRuns a).length + (afterRuns b).length < a.length + b.length := by
  by_cases ha : a = []
  · exact Nat.add_lt_add_of_le_of_lt (length_afterRuns_le a)
      (length_afterRuns_lt fun hb => h ⟨ha, hb⟩)
  · exact Nat.add_lt_add_of_lt_of_le (length_afterRuns_lt ha) (length_afterRuns_le b)

/-- **Comparing texts** is comparing the sequences of their runs. -/
theorem compares_textRank (a b : List Char) :
    (compareTexts a b).Compares (textRank a) (textRank b) := by
  induction hlength : a.length + b.length using Nat.strong_induction_on generalizing a b with
  | _ n ih =>
    by_cases hempty : a = [] ∧ b = []
    · obtain ⟨rfl, rfl⟩ := hempty
      rw [compareTexts, if_pos ⟨rfl, rfl⟩]
      rfl
    · have hrest := ih _ (hlength ▸ length_afterRuns_add_lt hempty) _ _ rfl
      rw [textRank, textRank] at hrest
      rw [compareTexts_eq]
      refine compares_sequence ?_ ?_
      · rw [getD_runs_zero, getD_runs_zero]
        exact compares_pair (compares_words ..)
          (compares_numerals (digits_takeWhile _) (digits_takeWhile _))
      · simpa only [getD_runs_succ] using hrest

/-! ## Versions -/

theorem compares_epoch (m n : UInt32) : (Ord.compare m n).Compares m.toNat n.toNat := by
  have hnat : Ord.compare m n = Ord.compare m.toNat n.toNat := by
    simp only [Ord.compare, compareOfLessAndEq, UInt32.lt_iff_toNat_lt, UInt32.toNat_inj]
  rw [hnat]
  exact compares_nat ..

/-- **Versions are compared by their ranks**, and these stand in a linear order.  So comparing
the other way round gives the reverse, what is no later than a version is no later than what
that is no later than, and versions that are equivalent compare alike with every other one. -/
theorem compares_rank (a b c : Version) :
    (compare a b).Compares (rank a) (rank b) ∧ compare b a = (compare a b).swap ∧
      (compare a b ≠ .gt → compare b c ≠ .gt → compare a c ≠ .gt) ∧
      (compare a b = .eq → compare a c = compare b c) := by
  have hrank (a b : Version) : (compare a b).Compares (rank a) (rank b) :=
    compares_pair (compares_epoch ..) (compares_textRank ..)
  refine ⟨hrank a b, ?_, fun hab hbc => ?_, fun hab => ?_⟩
  · exact (hrank b a).inj (hrank a b).swap
  · exact (hrank a c).ne_gt.mpr (((hrank a b).ne_gt.mp hab).trans ((hrank b c).ne_gt.mp hbc))
  · have hsame := (hrank a b).eq_eq.mp hab
    have hac := hrank a c
    rw [hsame] at hac
    exact hac.inj (hrank b c)

end Provision.Version
