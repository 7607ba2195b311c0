import Mathlib.Data.List.DropRight
import Provision.Text

/-!
# Cuts lose nothing

Each cut of `Provision.Text` gives back the text that was cut, and is made where it says: at
the first separator (`splitFirst?_eq_some_iff`), at the last word
(`splitLast?_append_of_notMem`), before the last run of a character (`trimEnd_trimEnd`).
-/
namespace Provision.Text

variable {sep c : Char} {word text before after : List Char}

theorem splitFirst?_eq_some_iff :
    splitFirst? sep text = some (before, after) ↔ text = before ++ sep :: after ∧ sep ∉ before := by
  induction text generalizing before with
  | nil => simp [splitFirst?]
  | cons d rest ih =>
    rw [splitFirst?]
    split
    · rename_i h
      subst h
      cases before <;> simp_all
    · rename_i h
      cases before with
      | nil => simp [h]
      | cons e before =>
        rw [Option.map_eq_some_iff]
        constructor
        · rintro ⟨⟨before', after'⟩, hcut, heq⟩
          cases heq
          obtain ⟨rfl, hnotMem⟩ := ih.mp hcut
          exact ⟨rfl, by simpa [Ne.symm h] using hnotMem⟩
        · rintro ⟨heq, hnotMem⟩
          cases heq
          exact ⟨_, ih.mpr ⟨rfl, fun hmem => hnotMem (List.mem_cons_of_mem _ hmem)⟩, rfl⟩

theorem splitFirst?_eq_none_iff : splitFirst? sep text = none ↔ sep ∉ text := by
  induction text with
  | nil => simp [splitFirst?]
  | cons d rest ih =>
    rw [splitFirst?]
    split
    · rename_i h
      simp [h]
    · rename_i h
      simp [ih, Ne.symm h]

theorem isPrefixOf?_eq_some_iff : word.isPrefixOf? text = some after ↔ text = word ++ after := by
  induction word generalizing text with
  | nil => simp [List.isPrefixOf?, eq_comm]
  | cons d word ih =>
    cases text with
    | nil => simp [List.isPrefixOf?]
    | cons e text =>
      rw [List.isPrefixOf?]
      split
      · rename_i h
        simp [ih, beq_iff_eq.mp h]
      · rename_i h
        simp [Ne.symm (fun heq => h (beq_iff_eq.mpr heq))]

theorem eq_of_splitLast? (h : splitLast? word text = some (before, after)) :
    text = before ++ word ++ after := by
  induction text generalizing before with
  | nil =>
    rw [splitLast?] at h
    split at h
    · rename_i hword
      cases h
      simp [hword]
    · cases h
  | cons d rest ih =>
    rw [splitLast?] at h
    split at h
    · rename_i cut hcut
      cases h
      simpa using ih hcut
    · obtain ⟨after', hprefix, heq⟩ := Option.map_eq_some_iff.mp h
      cases heq
      exact isPrefixOf?_eq_some_iff.mp hprefix

/-- Where the word stands, the last place at which it stands is found. -/
theorem exists_splitLast?_append (word before after : List Char) : ∃ before' after',
    splitLast? word (before ++ word ++ after) = some (before', after') ∧
      after'.length ≤ after.length := by
  induction before with
  | nil =>
    cases hword : word ++ after with
    | nil =>
      obtain ⟨rfl, rfl⟩ := List.append_eq_nil_iff.mp hword
      exact ⟨[], [], rfl, Nat.le_refl _⟩
    | cons d rest =>
      rw [List.nil_append, hword, splitLast?]
      cases hcut : splitLast? word rest with
      | none => exact ⟨[], after, by simp [isPrefixOf?_eq_some_iff.mpr hword.symm], Nat.le_refl _⟩
      | some cut =>
        refine ⟨d :: cut.1, cut.2, rfl, ?_⟩
        have hlength := congrArg List.length (eq_of_splitLast? hcut)
        have hwhole := congrArg List.length hword
        simp only [List.length_append, List.length_cons] at hlength hwhole
        omega
  | cons d before ih =>
    obtain ⟨before', after', hcut, hle⟩ := ih
    exact ⟨d :: before', after', by simp only [List.cons_append, splitLast?, hcut], hle⟩

/-- A word is cut at its last place when what follows does not hold its last character. -/
theorem splitLast?_append_of_notMem (hlast : word.getLast? = some c) (hnotMem : c ∉ after) :
    splitLast? word (before ++ word ++ after) = some (before, after) := by
  obtain ⟨before', after', hcut, hle⟩ := exists_splitLast?_append word before after
  have heq := eq_of_splitLast? hcut
  obtain ⟨front, rfl⟩ := List.getLast?_eq_some_iff.mp hlast
  -- A later place would put the last character of the word into what follows.
  rcases List.append_eq_append_iff.mp heq with ⟨mid, hmid, hafter⟩ | ⟨mid, hmid, hafter⟩
  · rcases List.eq_nil_or_concat mid with rfl | ⟨mid, d, rfl⟩
    · rw [List.append_nil] at hmid
      rw [hcut, (List.append_inj' hmid rfl).1, hafter, List.nil_append]
    · rw [List.concat_eq_append, ← List.append_assoc, ← List.append_assoc, ← List.append_assoc]
        at hmid
      obtain ⟨-, hd⟩ := List.append_inj' hmid rfl
      cases hd
      exact absurd (by simp [hafter]) hnotMem
  · have hlength := congrArg List.length hafter
    rw [List.length_append] at hlength
    obtain rfl := List.length_eq_zero_iff.mp (show mid.length = 0 by omega)
    rw [List.append_nil] at hmid
    rw [hcut, (List.append_inj' hmid rfl).1, hafter, List.nil_append]

theorem holds_iff : holds word text = true ↔ word <:+: text := by
  rw [holds]
  constructor
  · intro h
    obtain ⟨⟨before, after⟩, hcut⟩ := Option.isSome_iff_exists.mp h
    exact ⟨before, after, (eq_of_splitLast? hcut).symm⟩
  · rintro ⟨before, after, rfl⟩
    obtain ⟨before', after', hcut, -⟩ := exists_splitLast?_append word before after
    rw [hcut]
    rfl

/-- A word without `c` does not reach over it. -/
theorem infix_append_cons_iff (h : c ∉ word) :
    word <:+: before ++ c :: after ↔ word <:+: before ∨ word <:+: after := by
  induction before with
  | nil =>
    rw [List.nil_append, List.infix_cons_iff, List.infix_nil]
    refine or_congr_left ⟨fun hprefix => ?_, fun hnil => hnil ▸ List.nil_prefix⟩
    cases word with
    | nil => rfl
    | cons d word =>
      obtain ⟨rfl, -⟩ := List.cons_prefix_cons.mp hprefix
      exact absurd List.mem_cons_self h
  | cons d before ih =>
    rw [List.cons_append, List.infix_cons_iff, List.infix_cons_iff, ih, or_assoc]
    refine or_congr_left ⟨fun hprefix => ?_, fun hprefix => hprefix.trans (List.prefix_append _ _)⟩
    rcases List.prefix_or_prefix_of_prefix hprefix (List.prefix_append (d :: before) (c :: after))
      with hshort | ⟨rest, rfl⟩
    · exact hshort
    · -- What is left of the word starts with `c`, unless nothing is left.
      rw [← List.cons_append, List.prefix_append_right_inj] at hprefix
      cases rest with
      | nil => exact List.append_nil _ ▸ List.prefix_refl _
      | cons e rest =>
        obtain ⟨rfl, -⟩ := List.cons_prefix_cons.mp hprefix
        exact absurd (List.mem_append_right _ List.mem_cons_self) h

theorem getLast?_trimEnd : (trimEnd c text).getLast? ≠ some c := by
  intro hlast
  rw [trimEnd, List.getLast?_reverse] at hlast
  have hhead := List.head?_dropWhile_not (· == c) text.reverse
  rw [hlast] at hhead
  simp at hhead

theorem trimEnd_eq_nil_iff : trimEnd c text = [] ↔ ∀ d ∈ text, d = c := by
  simp [trimEnd]

theorem mem_of_mem_trimEnd {d : Char} (h : d ∈ trimEnd c text) : d ∈ text :=
  List.mem_reverse.mp ((List.dropWhile_suffix _).subset (List.mem_reverse.mp h))

theorem trimEnd_trimEnd : trimEnd c (trimEnd c text) = trimEnd c text := by
  simp [trimEnd, List.dropWhile_idempotent]

end Provision.Text
