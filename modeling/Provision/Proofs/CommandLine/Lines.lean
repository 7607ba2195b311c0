import Mathlib.Data.List.Basic
import Provision.CommandLine.Prompt

/-!
# The lines of an input

`lines` cuts an input at its line breaks.  `FallsInto` says what such a cut is: nothing is lost, a
line break ends every line but perhaps the last, and stands nowhere else.  There is one cut only
(`lines_eq_iff`).

Reading a line gives the first of the lines and leaves the others (`readLine?_of_lines_cons`), which
are the lines of what is left (`lines_flatten`).
-/
namespace Provision.CommandLine.Prompt

/-- A byte before the lines of what follows it. -/
def consLine (b : UInt8) (lines : List Bytes) : List Bytes :=
  if b = lineBreak then [b] :: lines
  else
    match lines with
    | [] => [[b]]
    | line :: rest => (b :: line) :: rest

/-- The lines of an input, each with the line break that ends it. -/
def lines : Bytes → List Bytes
  | [] => []
  | b :: rest => consLine b (lines rest)

/-- **An input falls into lines.** -/
structure FallsInto (input : Bytes) (ls : List Bytes) : Prop where
  /-- Nothing is lost and nothing is added. -/
  flatten : ls.flatten = input
  /-- No line is empty, and a line break stands at most at the end of one. -/
  single : ∀ line ∈ ls, line ≠ [] ∧ lineBreak ∉ line.dropLast
  /-- Only the last line may lack its line break. -/
  ended : ∀ line ∈ ls.dropLast, line.getLast? = some lineBreak

variable {input : Bytes} {b : UInt8} {line : Bytes} {ls before after : List Bytes}

theorem lines_cons : lines (b :: input) = consLine b (lines input) :=
  rfl

theorem consLine_lineBreak : consLine lineBreak ls = [lineBreak] :: ls :=
  if_pos rfl

theorem consLine_nil : consLine b [] = [[b]] := by
  rw [consLine]
  split <;> rfl

theorem consLine_cons (hb : b ≠ lineBreak) : consLine b (line :: ls) = (b :: line) :: ls :=
  if_neg hb

theorem flatten_consLine : (consLine b ls).flatten = b :: ls.flatten := by
  by_cases hb : b = lineBreak
  · rw [hb, consLine_lineBreak]
    rfl
  · cases ls with
    | nil => rw [consLine_nil]; rfl
    | cons line ls => rw [consLine_cons hb]; rfl

theorem flatten_lines (input : Bytes) : (lines input).flatten = input := by
  induction input with
  | nil => rfl
  | cons b input ih => rw [lines_cons, flatten_consLine, ih]

/-- A line of its own, and the lines of what follows it. -/
theorem lines_append (hline : lineBreak ∉ line) :
    lines (line ++ lineBreak :: input) = (line ++ [lineBreak]) :: lines input := by
  induction line with
  | nil => exact consLine_lineBreak
  | cons b line ih =>
    rw [List.mem_cons, not_or] at hline
    rw [List.cons_append, lines_cons, ih hline.2, consLine_cons (Ne.symm hline.1)]
    rfl

/-- A last line without a line break. -/
theorem lines_of_notMem (hne : line ≠ []) (hline : lineBreak ∉ line) : lines line = [line] := by
  induction line with
  | nil => exact absurd rfl hne
  | cons b line ih =>
    rw [List.mem_cons, not_or] at hline
    cases line with
    | nil => exact consLine_nil
    | cons b' line =>
      rw [lines_cons, ih (List.cons_ne_nil _ _) hline.2, consLine_cons (Ne.symm hline.1)]

/-- One more byte in front. -/
theorem FallsInto.cons (h : FallsInto input ls) : FallsInto (b :: input) (consLine b ls) := by
  by_cases hb : b = lineBreak
  · rw [hb, consLine_lineBreak]
    refine ⟨congrArg _ h.flatten, ?_, ?_⟩
    · simpa using h.single
    · cases ls with
      | nil => simp
      | cons line ls => simpa using h.ended
  · cases ls with
    | nil =>
      rw [consLine_nil, ← h.flatten]
      exact ⟨rfl, by simp, by simp⟩
    | cons line ls =>
      rw [consLine_cons hb]
      obtain ⟨hline, hrest⟩ := List.forall_mem_cons.mp h.single
      refine ⟨congrArg _ h.flatten,
        List.forall_mem_cons.mpr ⟨⟨List.cons_ne_nil _ _, ?_⟩, hrest⟩, ?_⟩
      · rw [List.dropLast_cons_of_ne_nil hline.1, List.mem_cons, not_or]
        exact ⟨Ne.symm hb, hline.2⟩
      · cases ls with
        | nil => simp
        | cons next ls =>
          obtain ⟨hended, hlater⟩ := List.forall_mem_cons.mp h.ended
          refine List.forall_mem_cons.mpr ⟨?_, hlater⟩
          rw [List.getLast?_cons, hended]
          rfl

theorem fallsInto_lines (input : Bytes) : FallsInto input (lines input) := by
  induction input with
  | nil => exact ⟨rfl, by simp [lines], by simp [lines]⟩
  | cons b input ih => exact ih.cons

/-- **There is one way to cut an input into lines.** -/
theorem lines_eq_iff : lines input = ls ↔ FallsInto input ls := by
  refine ⟨fun h => h ▸ fallsInto_lines input, fun h => ?_⟩
  induction ls generalizing input with
  | nil => rw [← h.flatten]; rfl
  | cons line rest ih =>
    obtain ⟨⟨hne, hsingle⟩, hrest⟩ := List.forall_mem_cons.mp h.single
    obtain ⟨init, last, rfl⟩ := List.eq_nil_or_concat' line |>.resolve_left hne
    rw [List.dropLast_concat] at hsingle
    rw [← h.flatten, List.flatten_cons]
    by_cases hlast : last = lineBreak
    · have hlater : FallsInto rest.flatten rest := by
        refine ⟨rfl, hrest, fun l hl => h.ended l ?_⟩
        cases rest with
        | nil => cases hl
        | cons next rest => exact List.mem_cons_of_mem _ hl
      rw [hlast, List.append_assoc, List.singleton_append, lines_append hsingle, ih hlater]
    · -- A line without its line break is the last one.
      cases rest with
      | nil =>
        rw [List.flatten_nil, List.append_nil]
        exact lines_of_notMem hne (by simp [hsingle, Ne.symm hlast])
      | cons next rest =>
        have hended := h.ended _ List.mem_cons_self
        rw [List.getLast?_concat] at hended
        exact absurd (Option.some.inj hended) hlast

/-! ## Reading lines -/

/-- What is left of an input after some of its lines falls into the other lines. -/
theorem lines_flatten (h : lines input = before ++ after) : lines after.flatten = after := by
  have hfalls := lines_eq_iff.mp h
  refine lines_eq_iff.mpr ⟨rfl, fun l hl => hfalls.single l (List.mem_append_right _ hl), ?_⟩
  intro l hl
  have hne : after ≠ [] := by
    rintro rfl
    cases hl
  refine hfalls.ended l ?_
  rw [List.dropLast_append_of_ne_nil hne]
  exact List.mem_append_right _ hl

/-- At the end of the input there is no line to read. -/
theorem readLine?_of_lines_nil (h : lines input = []) : readLine? input = none := by
  rw [← flatten_lines input, h]
  rfl

/-- **The next line is read, and the others are left.** -/
theorem readLine?_of_lines_cons (h : lines input = line :: after) :
    readLine? input = some (line, after.flatten) := by
  induction input generalizing line after with
  | nil => cases h
  | cons b input ih =>
    rw [lines_cons] at h
    rw [readLine?]
    by_cases hb : b = lineBreak
    · rw [hb, consLine_lineBreak] at h
      cases h
      rw [if_pos hb, hb, flatten_lines]
    · rw [if_neg hb]
      cases hlines : lines input with
      | nil =>
        rw [hlines, consLine_nil] at h
        cases h
        rw [readLine?_of_lines_nil hlines]
        rfl
      | cons next rest =>
        rw [hlines, consLine_cons hb] at h
        cases h
        rw [ih hlines]

end Provision.CommandLine.Prompt
