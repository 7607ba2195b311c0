import Provision.Proofs.Execution.Course
import Provision.Proofs.Plan.Feasible
import Provision.Proofs.Store.Scripted

/-!
# The account of a run in order

A run that takes one step at a time leaves a simple account (`Account`).  The steps before some
place have been applied, each with all its calls and events before those of the next one, and
nothing else has happened but the failing course of the step at that place, if the run has
failed.  Where the run was cancelled, the step at that place has not begun.

The account is kept step by step (`Taken.next`) and closed when the run ends, so it holds for
every store, whatever its calls lead to, and for every moment of cancellation
(`account_of_run`).
-/
namespace Provision.Execution

variable {σ : Type} {id : UInt32} {steps : List Step} {cancelled : Cancellation}
  {parts front : List Part} {last : Option Part} {part : Part} {step : Step}
  {stage : Stage} {outcome : Outcome TransactionError Unit} {events more : List Event}
  {calls moreCalls : List Call}

/-- **Steps that have been taken in order.** -/
structure Taken (id : UInt32) (steps : List Step) (cancelled : Cancellation) (parts : List Part)
    (events : List Event) (calls : List Call) : Prop where
  /-- They are the first ones of the plan, at their places. -/
  begun : parts.map Part.placed <+: steps.zipIdx
  sound : ∀ part ∈ parts, part.Sound id
  /-- Before each of them it was looked up that the run was not cancelled. -/
  asked : ∀ earlier part later, parts = earlier ++ part :: later →
    cancelled (earlier.flatMap Part.events) = false
  /-- One step's events come after another's, and there are no others. -/
  events_eq : events = parts.flatMap Part.events
  /-- The same goes for calls. -/
  calls_eq : calls = parts.flatMap Part.calls

namespace Taken

theorem nil (id : UInt32) (steps : List Step) (cancelled : Cancellation) :
    Taken id steps cancelled [] [] [] where
  begun := List.nil_prefix
  sound _ h := absurd h List.not_mem_nil
  asked earlier _ _ h := absurd h.symm (by simp)
  events_eq := rfl
  calls_eq := rfl

/-- **The next step is taken.** -/
theorem next (h : Taken id steps cancelled parts events calls)
    (hstep : steps[parts.length]? = some step) (hgo : cancelled events = false)
    (hcourse : Course id step stage moreCalls more) :
    Taken id steps cancelled (parts ++ [⟨step, parts.length, stage, moreCalls, more⟩])
      (events ++ more) (calls ++ moreCalls) := by
  constructor
  case begun =>
    rw [List.map_append]
    refine concat_isPrefix h.begun ?_
    rw [List.length_map, List.getElem?_zipIdx, hstep, Nat.zero_add]
    rfl
  case sound => exact List.forall_mem_append.mpr ⟨h.sound, List.forall_mem_singleton.mpr hcourse⟩
  case asked => exact forall_front_concat h.asked (by rwa [← h.events_eq])
  case events_eq => rw [List.flatMap_append, List.flatMap_singleton, h.events_eq]
  case calls_eq => rw [List.flatMap_append, List.flatMap_singleton, h.calls_eq]

/-- The parts are the first steps of the plan. -/
theorem map_step (h : Taken id steps cancelled parts events calls) :
    parts.map Part.step = steps.take parts.length := by
  have hsteps := (List.prefix_iff_eq_take.mp h.begun).symm
  rw [List.length_map] at hsteps
  have hfirst := congrArg (List.map Prod.fst) hsteps
  rw [List.map_take, List.zipIdx_map_fst, List.map_map] at hfirst
  exact hfirst.symm

theorem length_le (h : Taken id steps cancelled parts events calls) :
    parts.length ≤ steps.length := by
  simpa using h.begun.length_le

theorem append_none (h : Taken id steps cancelled front events calls) :
    Taken id steps cancelled (front ++ (none : Option Part).toList) events calls := by
  rwa [Option.toList_none, List.append_nil]

/-- **The steps that have been applied are reported**, in order. -/
theorem reports_eq (h : Taken id steps cancelled (front ++ last.toList) events calls)
    (happlied : ∀ part ∈ front, part.Applied) (hlast : ∀ part ∈ last, ¬ part.Applied) :
    reports events = (steps.take front.length).map (report id) := by
  have hfront : front.map Part.step = steps.take front.length := by
    have hsteps := congrArg (List.take front.length) h.map_step
    rw [List.take_take, Nat.min_eq_left (by simp), List.map_append,
      List.take_left' (List.length_map _)] at hsteps
    exact hsteps
  have hfilter : (front ++ last.toList).filter (fun part => part.Applied) = front := by
    rw [List.filter_append, List.filter_eq_self.mpr fun part hpart => by simp [happlied part hpart],
      List.filter_eq_nil_iff.mpr fun part hpart => by simp [hlast part (by simpa using hpart)],
      List.append_nil]
  rw [h.events_eq, Part.reports_flatMap h.sound, hfilter, ← hfront, List.map_map]
  rfl

end Taken

/-- **The account of a run in order.**  The steps of `front`, and no others, have been applied;
`last` is the step that the run has stopped at, if it has failed. -/
structure Account (id : UInt32) (steps : List Step) (cancelled : Cancellation)
    (front : List Part) (last : Option Part) (outcome : Outcome TransactionError Unit)
    (events : List Event) (calls : List Call) : Prop where
  taken : Taken id steps cancelled (front ++ last.toList) events calls
  applied : ∀ part ∈ front, part.Applied
  /-- Each applied step is reported once, in order, and no other step is. -/
  reported : reports events = (steps.take front.length).map (report id)
  /-- A run succeeds with all steps applied. -/
  done : outcome = .done () → front.length = steps.length ∧ last = none
  /-- A cancelled run tells how many steps have been applied, and has not begun the next. -/
  cancelled : ∀ n, outcome = .failed (.cancelled n) →
    n = front.length ∧ n < steps.length ∧ last = none ∧ cancelled events = true
  /-- Otherwise a run ends as the step does that it has stopped at. -/
  stopped : outcome ≠ .done () → (∀ n, outcome ≠ .failed (.cancelled n)) →
    ∃ part, last = some part ∧ part.place = front.length ∧ part.stage = .ended outcome

namespace Account

theorem of_complete (h : Taken id steps cancelled front events calls)
    (happlied : ∀ part ∈ front, part.Applied) (hall : front.length = steps.length) :
    Account id steps cancelled front none (.done ()) events calls where
  taken := h.append_none
  applied := happlied
  reported := h.append_none.reports_eq happlied (by simp)
  done _ := ⟨hall, rfl⟩
  cancelled _ heq := by cases heq
  stopped hne := absurd rfl hne

theorem of_cancelled (h : Taken id steps cancelled front events calls)
    (happlied : ∀ part ∈ front, part.Applied) (hlt : front.length < steps.length)
    (hcancelled : cancelled events = true) :
    Account id steps cancelled front none (.failed (.cancelled front.length)) events calls where
  taken := h.append_none
  applied := happlied
  reported := h.append_none.reports_eq happlied (by simp)
  done heq := by cases heq
  cancelled n heq := by
    cases heq
    exact ⟨rfl, hlt, rfl, hcancelled⟩
  stopped _ hne := absurd rfl (hne _)

theorem of_stopped (h : Taken id steps cancelled (front ++ [part]) events calls)
    (happlied : ∀ part ∈ front, part.Applied) (hplace : part.place = front.length)
    (hstage : part.stage = .ended outcome) (hne : outcome ≠ .done ()) :
    Account id steps cancelled front (some part) outcome events calls where
  taken := h
  applied := happlied
  reported := by
    have hlast : ∀ part' ∈ some part, ¬ part'.Applied := by
      intro part' hpart' heq
      cases hpart'
      exact hne (Stage.ended.inj (hstage.symm.trans heq))
    exact h.reports_eq happlied hlast
  done heq := absurd heq hne
  cancelled n heq := by
    have hsound := h.sound part (by simp)
    rw [Part.Sound, hstage, heq] at hsound
    exact absurd rfl (hsound.ne_cancelled n)
  stopped _ _ := ⟨part, rfl, hplace, hstage⟩

end Account

/-- **Steps that are taken in order** carry the account on to the end of the run. -/
theorem runInOrder_account_from (c : Context σ) (cancelled : Cancellation) (rest : List Step) :
    ∀ (parts : List Part) (events : List Event) (s : Logged σ),
      Taken c.id steps cancelled parts events s.calls → (∀ part ∈ parts, part.Applied) →
      steps.drop parts.length = rest →
      ∃ front last, Account c.id steps cancelled front last
        (runInOrder c.logged cancelled parts.length events rest s).outcome
        (runInOrder c.logged cancelled parts.length events rest s).events
        (runInOrder c.logged cancelled parts.length events rest s).state.calls := by
  induction rest with
  | nil =>
    intro parts events s h happlied hrest
    have hall := Nat.le_antisymm h.length_le (List.drop_eq_nil_iff.mp hrest)
    exact ⟨parts, none, .of_complete h happlied hall⟩
  | cons step rest ih =>
    intro parts events s h happlied hrest
    have hstep : steps[parts.length]? = some step := by
      rw [← List.head?_drop, hrest, List.head?_cons]
    rw [runInOrder]
    split
    · rename_i hcancelled
      have hlt := (List.getElem?_eq_some_iff.mp hstep).1
      exact ⟨parts, none, .of_cancelled h happlied hlt hcancelled⟩
    · rename_i hgo
      have hcourse := Course.of_applyStep c step s.state
      rw [applyStep_logged]
      rcases happly : applyStep c step s.state with ⟨outcome, more, state⟩
      rw [happly] at hcourse
      have hnext := h.next hstep (by simpa using hgo) hcourse
      dsimp only at hnext ⊢
      cases outcome with
      | failed cause =>
        have haccount := Account.of_stopped hnext happlied rfl rfl (by simp)
        exact ⟨parts, _, haccount⟩
      | crashed =>
        have haccount := Account.of_stopped hnext happlied rfl rfl (by simp)
        exact ⟨parts, _, haccount⟩
      | done value =>
        have hfound := ih _ _ ⟨state, _⟩ hnext ?_ ?_
        · simpa only [List.length_append, List.length_singleton] using hfound
        · exact List.forall_mem_append.mpr ⟨happlied, List.forall_mem_singleton.mpr rfl⟩
        · rw [List.length_append, List.length_singleton, ← List.tail_drop, hrest, List.tail_cons]

/-- **The account of a run that takes one step at a time.**  A transaction that has been run
before is left alone; any other leaves an account, whatever the store does and whenever the
run is cancelled. -/
theorem account_of_run (c : Context σ) (mode : Mode) (hlimit : mode.limit ≤ 1)
    (cancelled : Cancellation) (transaction : Transaction) (start : σ) :
    (transaction.hasRun = true →
      (run c mode cancelled transaction start).1 =
          ⟨.failed (.alreadyRun transaction.id), [], start⟩ ∧
        callsOf c mode cancelled transaction start = []) ∧
      (transaction.hasRun = false →
        ∃ front last, Account c.id transaction.steps cancelled front last
          (run c mode cancelled transaction start).1.outcome
          (run c mode cancelled transaction start).1.events
          (callsOf c mode cancelled transaction start)) := by
  constructor
  · intro hrun
    simp only [callsOf, run, hrun, if_true, Context.logged, and_self]
  · intro hrun
    have hforget := forget_run c ⟨start, []⟩ mode cancelled transaction
    have hlogged : (run c.logged mode cancelled transaction ⟨start, []⟩).1 =
        runInOrder c.logged cancelled 0 [] transaction.steps ⟨start, []⟩ := by
      simp only [run, hrun, Bool.false_eq_true, if_false, runSteps, if_neg (Nat.not_lt.mpr hlimit)]
    rw [callsOf, ← hforget, Applied.forget, hlogged]
    exact runInOrder_account_from c cancelled transaction.steps [] [] ⟨start, []⟩ (.nil ..)
      (fun _ h => absurd h List.not_mem_nil) rfl

namespace Sample

open Plan.Sample (named)

def context : Context ScriptedStore := ScriptedStore.context Plan.Sample.snapshot 7

def transaction : Transaction := .ofSteps 7 Plan.Sample.steps

/-- The tool cannot be removed. -/
def jammed : ScriptedStore :=
  { Plan.Sample.store with failUninstall := [named "tool"], downloadSize := some 9 }

/-- Cancelled as soon as three steps have been applied. -/
def impatient : Cancellation := fun events => decide (3 ≤ (reports events).length)

/-- What comes of it, one step at a time. -/
def stopped : Applied ScriptedStore Unit :=
  (run context ⟨1, fun _ => []⟩ impatient transaction jammed).1

def callsMade : List Call := callsOf context ⟨1, fun _ => []⟩ impatient transaction jammed

end Sample

/-- The base and the application are installed, the tool is not removed, and the base below it
is not even tried. -/
theorem sample_account : 1 ≤ 1 ∧ Sample.transaction.hasRun = false ∧
    Sample.stopped.outcome =
      .failed (.uninstall (Plan.Sample.named "tool") (.store "scripted failure")) ∧
    Sample.callsMade.length = 5 ∧
    ∃ front last, Account 7 Plan.Sample.steps Sample.impatient front last
      Sample.stopped.outcome Sample.stopped.events Sample.callsMade :=
  ⟨Nat.le_refl 1, rfl, by decide +kernel, by decide +kernel,
    (account_of_run Sample.context ⟨1, fun _ => []⟩ (Nat.le_refl 1) Sample.impatient
      Sample.transaction Sample.jammed).2 rfl⟩

end Provision.Execution
