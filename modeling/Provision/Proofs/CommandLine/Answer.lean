import Mathlib.Data.List.DropRight
import Provision.CommandLine.Prompt
import Provision.Proofs.Text.LowerCase

/-!
# What a line says

`Reads` says what a line reads: the word between the blanks of its text, in lower case.  The word
alone decides what the line says (`ofLine?_eq_some_iff`).  A line is `Recognizable` if its word is
empty, `y` or `n`; any other line of text is unclear (`ofLine?_eq_unclear_iff`).

The word is `y` for a Y between blanks, small or capital, and for nothing else, and likewise with
`n` (`reads_letter_iff`).
-/
namespace Provision.CommandLine.Answer
open Text

/-- **A text that neither begins nor ends with a blank.** -/
structure Bare (text : List Char) : Prop where
  first : ∀ c ∈ text.head?, isBlank c = false
  last : ∀ c ∈ text.getLast?, isBlank c = false

/-- **What a line reads**: its text between the blanks, in lower case. -/
def Reads (line : Bytes) (word : List Char) : Prop :=
  ∃ front text back, line = Utf8.encode (front ++ text ++ back) ∧
    (∀ c ∈ front ++ back, isBlank c = true) ∧ Bare text ∧ lowerCase text = word

/-- **A line of text.** -/
def IsText (line : Bytes) : Prop :=
  ∃ text, line = Utf8.encode text

/-- **A line that can be understood.** -/
def Recognizable (line : Bytes) : Prop :=
  Reads line [] ∨ Reads line ['y'] ∨ Reads line ['n']

variable {line : Bytes} {word word' text : List Char} {answer : Answer}

/-! ## Blanks -/

theorem trim_eq_rdropWhile : trim text = (text.dropWhile isBlank).rdropWhile isBlank :=
  rfl

theorem bare_trim (text : List Char) : Bare (trim text) := by
  constructor
  · intro c hc
    -- What is left of the text without the blanks in front is the beginning of it.
    obtain ⟨back, hback⟩ := List.rdropWhile_prefix isBlank (l := text.dropWhile isBlank)
    rw [trim_eq_rdropWhile] at hc
    have hhead := List.head?_dropWhile_not isBlank text
    rw [← hback, List.head?_append, hc] at hhead
    simpa using hhead
  · intro c hc
    rw [trim, List.getLast?_reverse] at hc
    have hhead := List.head?_dropWhile_not isBlank (text.dropWhile isBlank).reverse
    rw [hc] at hhead
    simpa using hhead

/-- **What is trimmed away is blank.** -/
theorem exists_trim (text : List Char) : ∃ front back, text = front ++ trim text ++ back ∧
    ∀ c ∈ front ++ back, isBlank c = true := by
  refine ⟨text.takeWhile isBlank, (text.dropWhile isBlank).rtakeWhile isBlank, ?_, ?_⟩
  · rw [trim_eq_rdropWhile, List.append_assoc, List.rdropWhile_append_rtakeWhile,
      List.takeWhile_append_dropWhile]
  · intro c hc
    rcases List.mem_append.mp hc with hc | hc
    · exact List.mem_takeWhile_imp hc
    · exact List.mem_rtakeWhile_imp hc

/-- **A text is found again between blanks.** -/
theorem trim_eq_of_bare {front back : List Char} (hbare : Bare text)
    (hblank : ∀ c ∈ front ++ back, isBlank c = true) : trim (front ++ text ++ back) = text := by
  have hfront : ∀ c ∈ front, isBlank c = true := fun c hc => hblank c (List.mem_append_left _ hc)
  have hback : ∀ c ∈ back.reverse, isBlank c = true := fun c hc =>
    hblank c (List.mem_append_right _ (List.mem_reverse.mp hc))
  rw [trim, List.append_assoc, List.dropWhile_append_of_pos hfront]
  rcases text.eq_nil_or_concat with rfl | ⟨init, d, htext⟩
  · have hnil := List.dropWhile_eq_nil_iff.mpr fun c hc => hback c (List.mem_reverse.mpr hc)
    rw [List.nil_append, hnil]
    rfl
  · rw [List.concat_eq_append] at htext
    have hd : isBlank d = false := hbare.last d (by simp [htext])
    have hstart : (text ++ back).dropWhile isBlank = text ++ back := by
      cases text with
      | nil => simp at htext
      | cons c rest => exact List.dropWhile_cons_of_neg (by simp [hbare.first c rfl])
    rw [hstart, List.reverse_append, List.dropWhile_append_of_pos hback, htext,
      List.reverse_append]
    simp [hd]

/-! ## Words -/

theorem reads_iff : Reads line word ↔ ∃ text, line = Utf8.encode text ∧
    lowerCase (trim text) = word := by
  constructor
  · rintro ⟨front, text, back, rfl, hblank, hbare, rfl⟩
    exact ⟨_, rfl, by rw [trim_eq_of_bare hbare hblank]⟩
  · rintro ⟨text, rfl, rfl⟩
    obtain ⟨front, back, htext, hblank⟩ := exists_trim text
    exact ⟨front, trim text, back, by rw [← htext], hblank, bare_trim text, rfl⟩

theorem Reads.isText (h : Reads line word) : IsText line := by
  obtain ⟨text, hline, -⟩ := reads_iff.mp h
  exact ⟨text, hline⟩

theorem IsText.exists_reads (h : IsText line) : ∃ word, Reads line word := by
  obtain ⟨text, hline⟩ := h
  exact ⟨_, reads_iff.mpr ⟨text, hline, rfl⟩⟩

/-- **A line reads one word only.** -/
theorem Reads.unique (h : Reads line word) (h' : Reads line word') : word = word' := by
  obtain ⟨text, hline, rfl⟩ := reads_iff.mp h
  obtain ⟨text', hline', rfl⟩ := reads_iff.mp h'
  have htext := Utf8.decode?_eq_some_iff.mpr hline
  rw [Utf8.decode?_eq_some_iff.mpr hline'] at htext
  rw [Option.some.inj htext]

/-- **Blank lines** are those that read nothing. -/
theorem reads_nil_iff : Reads line [] ↔
    ∃ text, line = Utf8.encode text ∧ ∀ c ∈ text, isBlank c = true := by
  simp only [reads_iff, lowerCase_eq_nil_iff]
  refine exists_congr fun text => and_congr_right fun _ => ?_
  rw [trim_eq_rdropWhile, List.rdropWhile_eq_nil_iff]
  constructor
  · intro h c hc
    rw [← List.takeWhile_append_dropWhile (p := isBlank) (l := text), List.mem_append] at hc
    exact hc.elim List.mem_takeWhile_imp (h c)
  · exact fun h c hc => h c ((List.dropWhile_suffix _).subset hc)

/-- What a small letter of ASCII was before: the letter, or the capital one 32 places below. -/
theorem eq_or_of_toLower {c d : Char} (h : c.toLower = d) : c = d ∨ c.toNat + 32 = d.toNat := by
  by_cases hcapital : c.val ≥ 'A'.val ∧ c.val ≤ 'Z'.val
  · have hlower : c.toLower.val = c.val + 32 := congrArg Char.val (dif_pos hcapital)
    have hval : (c.val + 32).toNat = d.toNat := by rw [← hlower, h]; rfl
    have hz : c.val.toNat ≤ 'Z'.val.toNat := UInt32.le_iff_toNat_le.mp hcapital.2
    rw [UInt32.toNat_add, Nat.mod_eq_of_lt] at hval
    · exact Or.inr hval
    · exact Nat.lt_of_le_of_lt (Nat.add_le_add_right hz 32) (by decide)
  · exact Or.inl ((dif_neg hcapital).symm.trans h)

theorem toLower_eq_iff {c d : Char} (hd : d = 'y' ∨ d = 'n') :
    c.toNat < 0x80 ∧ c.toLower = d ↔ c = d ∨ c = d.toUpper := by
  constructor
  · rintro ⟨-, hlower⟩
    refine (eq_or_of_toLower hlower).imp_right fun hcapital => ?_
    rw [← Char.ofNat_toNat c, Nat.eq_sub_of_add_eq hcapital]
    rcases hd with rfl | rfl <;> rfl
  · rcases hd with rfl | rfl <;> rintro (rfl | rfl) <;> decide

/-- **The letters of an answer** are read from a small or a capital one between blanks. -/
theorem reads_letter_iff {d : Char} (hd : d = 'y' ∨ d = 'n') : Reads line [d] ↔
    ∃ front c back, line = Utf8.encode (front ++ [c] ++ back) ∧
      (∀ b ∈ front ++ back, isBlank b = true) ∧ (c = d ∨ c = d.toUpper) := by
  have hlower {text : List Char} : lowerCase text = [d] ↔
      ∃ c, text = [c] ∧ (c = d ∨ c = d.toUpper) := by
    rw [lowerCase_eq_singleton_iff (by rcases hd with rfl | rfl <;> decide)
      (by rcases hd with rfl | rfl <;> decide)]
    exact exists_congr fun c => and_congr_right fun _ => toLower_eq_iff hd
  constructor
  · rintro ⟨front, text, back, rfl, hblank, -, hword⟩
    obtain ⟨c, rfl, hc⟩ := hlower.mp hword
    exact ⟨front, c, back, rfl, hblank, hc⟩
  · rintro ⟨front, c, back, rfl, hblank, hc⟩
    have hbare : isBlank c = false := by
      rcases hd with rfl | rfl <;> rcases hc with rfl | rfl <;> decide
    exact ⟨front, [c], back, rfl, hblank, ⟨by simpa using hbare, by simpa using hbare⟩,
      hlower.mpr ⟨c, rfl, hc⟩⟩

/-! ## Answers -/

theorem ofLine?_of_reads (h : Reads line word) : ofLine? line = some (ofWord word) := by
  obtain ⟨text, hline, rfl⟩ := reads_iff.mp h
  rw [ofLine?, Utf8.decode?_eq_some_iff.mpr hline]
  rfl

/-- **A line that is no text says nothing.** -/
theorem ofLine?_eq_none_iff : ofLine? line = none ↔ ¬ IsText line := by
  constructor
  · intro h htext
    obtain ⟨word, hword⟩ := htext.exists_reads
    rw [ofLine?_of_reads hword] at h
    cases h
  · intro h
    rw [ofLine?, Option.map_eq_none_iff, Option.eq_none_iff_forall_ne_some]
    exact fun text htext => h ⟨text, Utf8.decode?_eq_some_iff.mp htext⟩

/-- **What a line says depends on the word that it reads.** -/
theorem ofLine?_eq_some_iff :
    ofLine? line = some answer ↔ ∃ word, Reads line word ∧ ofWord word = answer := by
  constructor
  · intro h
    have htext : IsText line := by
      by_contra hnone
      rw [ofLine?_eq_none_iff.mpr hnone] at h
      cases h
    obtain ⟨word, hword⟩ := htext.exists_reads
    rw [ofLine?_of_reads hword] at h
    exact ⟨word, hword, Option.some.inj h⟩
  · rintro ⟨word, hword, rfl⟩
    exact ofLine?_of_reads hword

theorem ofWord_eq_yes_iff : ofWord word = yes ↔ word = [] ∨ word = ['y'] := by
  unfold ofWord
  split <;> simp_all

theorem ofWord_eq_no_iff : ofWord word = no ↔ word = ['n'] := by
  unfold ofWord
  split <;> simp_all

theorem ofWord_eq_unclear_iff :
    ofWord word = unclear ↔ ¬ (word = [] ∨ word = ['y'] ∨ word = ['n']) := by
  unfold ofWord
  split <;> simp_all

theorem ofLine?_eq_yes_iff : ofLine? line = some yes ↔ Reads line [] ∨ Reads line ['y'] := by
  simp only [ofLine?_eq_some_iff, ofWord_eq_yes_iff, and_or_left, exists_or, exists_eq_right]

theorem ofLine?_eq_no_iff : ofLine? line = some no ↔ Reads line ['n'] := by
  simp only [ofLine?_eq_some_iff, ofWord_eq_no_iff, exists_eq_right]

/-- **An unclear line** is a text that cannot be understood. -/
theorem ofLine?_eq_unclear_iff :
    ofLine? line = some unclear ↔ IsText line ∧ ¬ Recognizable line := by
  rw [ofLine?_eq_some_iff]
  constructor
  · rintro ⟨word, hword, hunclear⟩
    refine ⟨hword.isText, fun hrec => ofWord_eq_unclear_iff.mp hunclear ?_⟩
    exact hrec.imp hword.unique (Or.imp hword.unique hword.unique)
  · rintro ⟨htext, hrec⟩
    obtain ⟨word, hword⟩ := htext.exists_reads
    refine ⟨word, hword, ofWord_eq_unclear_iff.mpr fun hclear => hrec ?_⟩
    rcases hclear with rfl | rfl | rfl
    · exact Or.inl hword
    · exact Or.inr (Or.inl hword)
    · exact Or.inr (Or.inr hword)

end Provision.CommandLine.Answer
