import Provision.CommandLine.Program
import Provision.Proofs.CommandLine.Answer
import Provision.Proofs.CommandLine.Lines
import Provision.Proofs.Loop

/-!
# The first line that can be understood decides

A line that is no text, or that can be understood, is `Deciding`.  A turn of asking reads the next
line (`turn_of_lines_cons`), so asking passes over lines that do not decide (`turns_over`), and ends
at the first that does (`ends_of_first`) or at the end of the input (`ends_of_none`).

`Settled` puts this together: asking ends; it goes ahead if the first line that can be understood is
empty or `y` and all lines before it are texts, and in no other case; and the lines after the one
that decides are left unread and make no difference.
-/
namespace Provision.CommandLine.Prompt
open Answer

variable {input : Bytes} {line : Bytes} {ls before after : List Bytes}

/-! ## Lines that decide -/

/-- **The first line of a kind**, with the lines before and after it. -/
structure First (kind : Bytes → Prop) (ls before : List Bytes) (line : Bytes)
    (after : List Bytes) : Prop where
  split : ls = before ++ line :: after
  here : kind line
  earlier : ∀ l ∈ before, ¬ kind l

/-- **A line that ends the asking**: it is no text, or can be understood. -/
def Deciding (line : Bytes) : Prop :=
  ¬ IsText line ∨ Recognizable line

variable {kind : Bytes → Prop} {before' after' : List Bytes} {line' : Bytes}

theorem exists_first_or_forall_not (kind : Bytes → Prop) (ls : List Bytes) :
    (∃ before line after, First kind ls before line after) ∨ ∀ l ∈ ls, ¬ kind l := by
  induction ls with
  | nil => exact Or.inr (by simp)
  | cons l rest ih =>
    by_cases hl : kind l
    · exact Or.inl ⟨[], l, rest, rfl, hl, by simp⟩
    · rcases ih with ⟨before, line, after, hfirst⟩ | hnone
      · exact Or.inl ⟨l :: before, line, after, congrArg _ hfirst.split, hfirst.here,
          List.forall_mem_cons.mpr ⟨hl, hfirst.earlier⟩⟩
      · exact Or.inr (List.forall_mem_cons.mpr ⟨hl, hnone⟩)

/-- **There is one first line of a kind.** -/
theorem First.unique (h : First kind ls before line after)
    (h' : First kind ls before' line' after') :
    before = before' ∧ line = line' ∧ after = after' := by
  obtain ⟨rfl, hline, hbefore⟩ := h
  obtain ⟨hsplit, hline', hbefore'⟩ := h'
  induction before generalizing before' with
  | nil =>
    cases before' with
    | nil => exact ⟨rfl, List.cons.inj hsplit⟩
    | cons l' before' =>
      rw [(List.cons.inj hsplit).1] at hline
      exact absurd hline (hbefore' l' List.mem_cons_self)
  | cons l before ih =>
    obtain ⟨hl, hbefore⟩ := List.forall_mem_cons.mp hbefore
    cases before' with
    | nil =>
      rw [← (List.cons.inj hsplit).1] at hline'
      exact absurd hline' hl
    | cons l' before' =>
      obtain ⟨rfl, htail⟩ := List.cons.inj hsplit
      obtain ⟨rfl, hrest⟩ := ih hbefore htail (List.forall_mem_cons.mp hbefore').2
      exact ⟨rfl, hrest⟩

theorem deciding_iff : Deciding line ↔ ofLine? line ≠ some .unclear := by
  rw [Ne, ofLine?_eq_unclear_iff, not_and_or, not_not]
  rfl

/-! ## Asking -/

/-- What is shown when so many lines are unclear. -/
def complaints : Nat → String
  | 0 => ""
  | n + 1 => complaint ++ complaints n

/-- **What a deciding line decides**, when so much has been shown before and so much is left
unread. -/
def decision (shown : String) (line unread : Bytes) : Decision :=
  ⟨ofLine? line = some .yes, if ofLine? line = none then shown ++ farewell else shown, unread⟩

variable {s : Asking}

theorem turn_of_lines_nil (h : lines s.unread = []) :
    s.turn = .inr ⟨false, s.shown ++ farewell, []⟩ := by
  have hunread : s.unread = [] := by
    rw [← flatten_lines s.unread, h]
    rfl
  rw [Asking.turn, readLine?_of_lines_nil h]
  exact congrArg _ (congrArg _ hunread)

theorem turn_of_lines_cons (h : lines s.unread = line :: after) :
    s.turn = Asking.hear ⟨s.shown, after.flatten⟩ (ofLine? line) := by
  rw [Asking.turn, readLine?_of_lines_cons h]

theorem hear_of_deciding (h : Deciding line) :
    s.hear (ofLine? line) = .inr (decision s.shown line s.unread) := by
  rw [deciding_iff] at h
  rw [decision]
  match ofLine? line, h with
  | none, _ => rfl
  | some .yes, _ => rfl
  | some .no, _ => rfl

theorem hear_of_not_deciding (h : ¬ Deciding line) :
    s.hear (ofLine? line) = .inl { s with shown := s.shown ++ complaint } := by
  rw [deciding_iff, not_not] at h
  rw [h]
  rfl

/-- **Lines that do not decide are passed over**, one at a turn. -/
theorem turns_over (h : lines s.unread = before ++ after) (hbefore : ∀ l ∈ before, ¬ Deciding l) :
    Turns Asking.turn before.length s ⟨s.shown ++ complaints before.length, after.flatten⟩ := by
  induction before generalizing s with
  | nil =>
    have hs : s = ⟨s.shown ++ complaints 0, after.flatten⟩ := by
      rw [complaints, String.append_empty, ← List.nil_append after, ← h, flatten_lines]
    rw [List.length_nil, ← hs]
    exact .none
  | cons l before ih =>
    obtain ⟨hl, hbefore⟩ := List.forall_mem_cons.mp hbefore
    have hturn := turn_of_lines_cons h
    rw [hear_of_not_deciding hl] at hturn
    have hlines : lines s.unread = [l] ++ (before ++ after) := h
    have hrest := ih (s := ⟨s.shown ++ complaint, (before ++ after).flatten⟩)
      (lines_flatten hlines) hbefore
    rw [String.append_assoc] at hrest
    exact .more hturn hrest

/-- **The first line that decides ends the asking.** -/
theorem ends_of_first (h : First Deciding (lines s.unread) before line after) :
    Ends Asking.turn before.length s
      (decision (s.shown ++ complaints before.length) line after.flatten) := by
  refine (turns_over h.split h.earlier).ends (m := 0) (.now ?_)
  rw [turn_of_lines_cons (lines_flatten h.split)]
  exact hear_of_deciding h.here

/-- **Nothing is changed if no line decides.** -/
theorem ends_of_none (h : ∀ l ∈ lines s.unread, ¬ Deciding l) :
    Ends Asking.turn (lines s.unread).length s
      ⟨false, s.shown ++ complaints (lines s.unread).length ++ farewell, []⟩ :=
  (turns_over (List.append_nil _).symm h).ends (m := 0) (.now (turn_of_lines_nil rfl))

theorem settle_eq (s : Asking) : s.settle =
    match s.turn with
    | .inl s' => s'.settle
    | .inr d => d := by
  rw [Asking.settle]
  split <;> rename_i hturn <;> rw [hturn]

theorem settle_of_ends {n : Nat} {d : Decision} (h : Ends Asking.turn n s d) : s.settle = d := by
  induction h with
  | now hturn => rw [settle_eq, hturn]
  | more hturn _ ih =>
    rw [settle_eq, hturn]
    exact ih

theorem confirm_of_ends {n : Nat} {d : Decision} (h : Ends Asking.turn n (.begin input) d) :
    Ends Asking.turn n (.begin input) (confirm input) ∧ confirm input = d := by
  have hconfirm : confirm input = d := settle_of_ends h
  exact ⟨hconfirm ▸ h, hconfirm⟩

/-- **The first line that decides ends the asking**, and the lines after it are left unread. -/
theorem confirm_of_first (h : First Deciding (lines input) before line after) :
    Ends Asking.turn before.length (.begin input) (confirm input) ∧
      confirm input = decision (complaints before.length) line after.flatten := by
  have hends := ends_of_first (s := .begin input) h
  rw [Asking.begin, String.empty_append] at hends
  exact confirm_of_ends hends

/-- **Nothing is changed if no line decides.** -/
theorem confirm_of_none (h : ∀ l ∈ lines input, ¬ Deciding l) :
    Ends Asking.turn (lines input).length (.begin input) (confirm input) ∧
      confirm input = ⟨false, complaints (lines input).length ++ farewell, []⟩ := by
  have hends := ends_of_none (s := .begin input) h
  rw [Asking.begin, String.empty_append] at hends
  exact confirm_of_ends hends

/-- **Asking ends**, and each turn but the last takes a line. -/
theorem exists_ends_confirm (input : Bytes) :
    ∃ n ≤ (lines input).length, Ends Asking.turn n (.begin input) (confirm input) := by
  rcases exists_first_or_forall_not Deciding (lines input) with
    ⟨before, line, after, hfirst⟩ | hnone
  · refine ⟨before.length, ?_, (confirm_of_first hfirst).1⟩
    rw [hfirst.split, List.length_append]
    exact Nat.le_add_right _ _
  · exact ⟨_, Nat.le_refl _, (confirm_of_none hnone).1⟩

/-- Where all lines before it are texts, the first line that can be understood is the one that
decides. -/
theorem First.deciding (h : First Recognizable ls before line after)
    (htext : ∀ l ∈ before, IsText l) : First Deciding ls before line after where
  split := h.split
  here := Or.inr h.here
  earlier l hl hdeciding := hdeciding.elim (· (htext l hl)) (h.earlier l hl)

theorem First.recognizable (h : First Deciding ls before line after) (hline : Recognizable line) :
    First Recognizable ls before line after where
  split := h.split
  here := hline
  earlier l hl hrec := h.earlier l hl (Or.inr hrec)

theorem goesAhead_confirm_iff : (confirm input).goesAhead = true ↔
    ∃ before line after, First Recognizable (lines input) before line after ∧
      (∀ l ∈ before, IsText l) ∧ (Reads line [] ∨ Reads line ['y']) := by
  constructor
  · intro hahead
    rcases exists_first_or_forall_not Deciding (lines input) with
      ⟨before, line, after, hfirst⟩ | hnone
    · rw [(confirm_of_first hfirst).2, decision, decide_eq_true_eq, ofLine?_eq_yes_iff] at hahead
      have hline : Recognizable line := hahead.imp_right Or.inl
      refine ⟨before, line, after, hfirst.recognizable hline, fun l hl => ?_, hahead⟩
      exact not_not.mp fun htext => hfirst.earlier l hl (Or.inl htext)
    · rw [(confirm_of_none hnone).2] at hahead
      cases hahead
  · rintro ⟨before, line, after, hfirst, htext, hyes⟩
    rw [(confirm_of_first (hfirst.deciding htext)).2, decision, decide_eq_true_eq,
      ofLine?_eq_yes_iff]
    exact hyes

theorem not_goesAhead_confirm_iff : (confirm input).goesAhead = false ↔
    (∃ before line after, First Recognizable (lines input) before line after ∧
      Reads line ['n']) ∨
    (∀ l ∈ lines input, ¬ Recognizable l) ∨
    ∃ before line after, First Recognizable (lines input) before line after ∧
      ∃ l ∈ before, ¬ IsText l := by
  rw [← Bool.not_eq_true, goesAhead_confirm_iff]
  constructor
  · intro hnot
    rcases exists_first_or_forall_not Recognizable (lines input) with
      ⟨before, line, after, hfirst⟩ | hnone
    · by_cases htext : ∀ l ∈ before, IsText l
      · rcases hfirst.here with hyes | hyes | hno
        · exact absurd ⟨before, line, after, hfirst, htext, Or.inl hyes⟩ hnot
        · exact absurd ⟨before, line, after, hfirst, htext, Or.inr hyes⟩ hnot
        · exact Or.inl ⟨before, line, after, hfirst, hno⟩
      · exact Or.inr (Or.inr ⟨before, line, after, hfirst, by simpa using htext⟩)
    · exact Or.inr (Or.inl hnone)
  · rintro hcases ⟨before, line, after, hfirst, htext, hyes⟩
    rcases hcases with ⟨before', line', after', hfirst', hno⟩ | hnone |
      ⟨before', line', after', hfirst', l, hl, hl'⟩
    · obtain ⟨-, rfl, -⟩ := hfirst.unique hfirst'
      rcases hyes with hyes | hyes <;> cases hyes.unique hno
    · refine hnone line ?_ hfirst.here
      rw [hfirst.split]
      exact List.mem_append_right _ List.mem_cons_self
    · obtain ⟨rfl, -, -⟩ := hfirst.unique hfirst'
      exact hl' (htext l hl)

/-- **How asking comes out** for an input. -/
structure Settled (input : Bytes) (d : Decision) : Prop where
  /-- The lines are the one way to cut the input. -/
  cut : ∀ ls, FallsInto input ls ↔ ls = lines input
  /-- Asking ends, and each turn but the last takes a line. -/
  ends : ∃ n ≤ (lines input).length, Ends Asking.turn n (.begin input) d
  /-- It goes ahead if the first line that can be understood is empty or `y`, and every line before
  it is a text. -/
  goesAhead : d.goesAhead = true ↔
    ∃ before line after, First Recognizable (lines input) before line after ∧
      (∀ l ∈ before, IsText l) ∧ (Reads line [] ∨ Reads line ['y'])
  /-- It does not if that line is `n`, if there is no such line, or if a line before it is no
  text. -/
  cancelled : d.goesAhead = false ↔
    (∃ before line after, First Recognizable (lines input) before line after ∧
      Reads line ['n']) ∨
    (∀ l ∈ lines input, ¬ Recognizable l) ∨
    ∃ before line after, First Recognizable (lines input) before line after ∧
      ∃ l ∈ before, ¬ IsText l
  /-- What stands after the line that decides is left unread, and nothing changes if other lines
  stand there. -/
  unread : ∀ before line after, First Deciding (lines input) before line after →
    Ends Asking.turn before.length (.begin input) d ∧ d.unread = after.flatten ∧
    ∀ input' after', lines input' = before ++ line :: after' →
      Ends Asking.turn before.length (.begin input') { d with unread := after'.flatten }
  /-- The program goes on with what it has planned, or ends as cancelled by the user. -/
  outcome : ∀ env arguments files planned console,
    start env arguments files = .asking planned console →
    run env arguments input files =
      if d.goesAhead then goOn planned (console.print d.shown)
      else .ofError (console.print d.shown) .cancelledByUser

/-- **The first line that can be understood decides**, for every input: asking ends, it goes ahead
on an empty line or `y` and only then, and it reads no further. -/
theorem settled_confirm (input : Bytes) : Settled input (confirm input) where
  cut ls := lines_eq_iff.symm.trans eq_comm
  ends := exists_ends_confirm input
  goesAhead := goesAhead_confirm_iff
  cancelled := not_goesAhead_confirm_iff
  unread before line after h := by
    obtain ⟨hends, hconfirm⟩ := confirm_of_first h
    refine ⟨hends, by rw [hconfirm, decision], fun input' after' hinput' => ?_⟩
    obtain ⟨hends', hconfirm'⟩ := confirm_of_first ⟨hinput', h.here, h.earlier⟩
    rw [hconfirm'] at hends'
    rwa [hconfirm]
  outcome env arguments files planned console h := by
    rw [run, h]
    rfl

/-- An unclear line, one that is blank but for its line break, and one that nobody reads. -/
example : confirm (Utf8.ofString "maybe\n \nn\n") = ⟨true, complaint, Utf8.ofString "n\n"⟩ := by
  decide +kernel

end Provision.CommandLine.Prompt
