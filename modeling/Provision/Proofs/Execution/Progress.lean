import Mathlib.Logic.Function.Basic
import Provision.Execution.Run

/-!
# Steps under way

Whatever order a run goes by, it makes one call after the other, each for some step of the
transaction.  `Underway` describes all states that a run can pass through: every step has
come to a stage of its own, and a step may make a call once the earlier steps that it
requires have been applied.  It says nothing of chunks or turns, so what follows from it holds
for every way of running a transaction, and for every store.

Each step reports itself by one event, once it has been applied (`reports_applyStep`).

A run ends in a state of that kind (`Conclusion`): no step is left between its calls, and the
outcome tells whether all steps have been applied.  Here this is shown for runs that take one
step at a time (`runInOrder_concludes`).
-/
namespace Provision.Execution

variable {σ : Type} (c : Context σ)

/-! ## Jobs -/

namespace Job

variable (job : Job) (step : Step) (state : σ)

theorem advance_ended (outcome : Outcome TransactionError Unit) :
    advance c ⟨step, .ended outcome⟩ state = (⟨step, .ended outcome⟩, [], state) := rfl

theorem step_advance : (advance c job state).1.step = job.step := by
  obtain ⟨step, stage⟩ := job
  cases stage with
  | waiting =>
    simp only [advance]
    cases step.kind <;> rfl
  | fetched artifact => rfl
  | ended outcome => rfl

theorem stage_advance_ne_waiting : (advance c job state).1.stage ≠ .waiting := by
  obtain ⟨step, stage⟩ := job
  cases stage with
  | waiting =>
    simp only [advance]
    cases step.kind with
    | uninstall => exact Stage.noConfusion
    | install =>
      dsimp only
      cases (fetch c step state).outcome <;> exact Stage.noConfusion
  | fetched artifact => exact Stage.noConfusion
  | ended outcome => exact Stage.noConfusion

/-- A step makes at most two calls. -/
theorem exists_ended_advance : ∃ outcome,
    (advance c (advance c job state).1 (advance c job state).2.2).1.stage = .ended outcome := by
  obtain ⟨step, stage⟩ := job
  cases stage with
  | waiting =>
    simp only [advance]
    cases step.kind with
    | uninstall => exact ⟨_, rfl⟩
    | install =>
      dsimp only
      cases (fetch c step state).outcome <;> exact ⟨_, rfl⟩
  | fetched artifact => exact ⟨_, rfl⟩
  | ended outcome => exact ⟨_, rfl⟩

/-- What is left of a job after a call is what is left of it now without that call. -/
theorem conclude_advance : conclude c job state =
    let (job', events, state') := advance c job state
    let rest := conclude c job' state'
    ⟨rest.outcome, events ++ rest.events, rest.state⟩ := by
  obtain ⟨step, stage⟩ := job
  cases stage with
  | waiting =>
    simp only [advance, conclude, applyStep]
    cases step.kind with
    | uninstall => simp only [List.append_nil]
    | install =>
      dsimp only
      cases (fetch c step state).outcome <;> simp only [List.append_nil]
  | fetched artifact => simp only [advance, conclude, List.append_nil]
  | ended outcome => rfl

end Job

/-! ## What steps report -/

/-- The events that report steps as applied. -/
def reports (events : List Event) : List Event :=
  events.filter fun event =>
    match event with
    | .step .. => true
    | .download .. => false

/-- What an applied step is reported by. -/
def report (id : UInt32) (step : Step) : Event :=
  .step id step.key step.kind

theorem reports_append (events more : List Event) :
    reports (events ++ more) = reports events ++ reports more :=
  List.filter_append ..

theorem reports_fetch (step : Step) (state : σ) :
    reports (fetch c step state).events = [] := by
  refine List.filter_eq_nil_iff.mpr fun event hevent => ?_
  obtain ⟨progress, -, rfl⟩ := List.mem_map.mp hevent
  exact Bool.false_ne_true

/-- What has been applied reports the event, and nothing else but downloads. -/
def Reports (event : Event) (applied : Applied σ Unit) : Prop :=
  reports applied.events = if applied.outcome = .done () then [event] else []

theorem reports_remove (step : Step) (state : σ) :
    Reports (.step c.id step.key .uninstall) (remove c step state) := by
  rw [remove]
  rcases c.store.uninstall c.snapshot step.key step.target state with ⟨outcome, state'⟩
  cases outcome <;> rfl

theorem reports_place (step : Step) (artifact : Artifact) (state : σ) :
    Reports (.step c.id step.key .install) (place c step artifact state) := by
  rw [place]
  rcases c.store.install c.snapshot artifact step.target state with ⟨outcome, state'⟩
  cases outcome <;> rfl

/-- **A step reports itself once it has been applied.** -/
theorem reports_applyStep (step : Step) (state : σ) :
    Reports (report c.id step) (applyStep c step state) := by
  rw [applyStep, report]
  cases step.kind with
  | uninstall => exact reports_remove c step state
  | install =>
    have hfetch := reports_fetch c step state
    rcases hfetched : fetch c step state with ⟨outcome, events, state'⟩
    rw [hfetched] at hfetch
    cases outcome with
    | failed cause => exact hfetch
    | crashed => exact hfetch
    | done artifact =>
      have hplace := reports_place c step artifact state'
      dsimp only at hfetch ⊢
      rw [Reports, reports_append, hfetch, List.nil_append]
      exact hplace

/-! ## States of a run -/

/-- Whether the earlier steps that the step at place `i` requires have been applied. -/
def Ready (stages : Nat → Stage) (i : Nat) (step : Step) : Prop :=
  ∀ j ∈ step.requires, j < i → stages j = .ended (.done ())

/-- **The states that a run passes through.**  The stages of the steps are given by their
places. -/
inductive Underway (steps : List Step) (start : σ) : (Nat → Stage) → List Event → σ → Prop
  | initially : Underway steps start (fun _ => .waiting) [] start
  | advanced {stages : Nat → Stage} {events more : List Event} {state state' : σ} {i : Nat}
      {step : Step} {job : Job} : Underway steps start stages events state →
      steps[i]? = some step → Ready stages i step →
      Job.advance c ⟨step, stages i⟩ state = (job, more, state') →
      Underway steps start (Function.update stages i job.stage) (events ++ more) state'

variable {c} {steps : List Step} {start state : σ} {stages : Nat → Stage}
  {events : List Event} {i : Nat} {step : Step}

theorem Ready.update (h : Ready stages i step) (stage : Stage) :
    Ready (Function.update stages i stage) i step := by
  intro j hj hlt
  rw [Function.update_of_ne (Nat.ne_of_lt hlt)]
  exact h j hj hlt

namespace Underway

/-- **A step that has begun has what it requires.** -/
theorem ready (h : Underway c steps start stages events state) (hi : steps[i]? = some step)
    (hbegun : stages i ≠ .waiting) : Ready stages i step := by
  induction h with
  | initially => exact absurd rfl hbegun
  | @advanced stages _ _ _ _ k step' job _ hk hready hadvance ih =>
    intro j hj hlt
    have hstage : stages j = .ended (.done ()) := by
      by_cases hik : i = k
      · subst hik
        rw [hi] at hk
        cases hk
        exact hready j hj hlt
      · rw [Function.update_of_ne hik] at hbegun
        exact ih hbegun j hj hlt
    by_cases hjk : j = k
    · subst hjk
      rw [hstage, Job.advance_ended] at hadvance
      cases hadvance
      exact Function.update_self ..
    · rw [Function.update_of_ne hjk]
      exact hstage

/-- Making all calls of a step that are left. -/
theorem conclude (h : Underway c steps start stages events state) (hi : steps[i]? = some step)
    (hready : Ready stages i step) {concluded : Applied σ Unit}
    (hconcluded : Job.conclude c ⟨step, stages i⟩ state = concluded) :
    Underway c steps start (Function.update stages i (.ended concluded.outcome))
      (events ++ concluded.events) concluded.state := by
  subst hconcluded
  obtain ⟨outcome, hended⟩ := Job.exists_ended_advance c ⟨step, stages i⟩ state
  rcases hfirst : Job.advance c ⟨step, stages i⟩ state with ⟨⟨step₁, stage₁⟩, events₁, state₁⟩
  have hstep₁ : step₁ = step := by
    have hstep := Job.step_advance c ⟨step, stages i⟩ state
    rwa [hfirst] at hstep
  subst hstep₁
  rw [hfirst] at hended
  rcases hsecond : Job.advance c ⟨step₁, stage₁⟩ state₁ with ⟨⟨step₂, stage₂⟩, events₂, state₂⟩
  rw [hsecond] at hended
  dsimp only at hended
  subst hended
  -- Two calls are enough, and the second finds the stage that the first has led to.
  have hnext : Job.advance c ⟨step₁, Function.update stages i stage₁ i⟩ state₁ =
      (⟨step₂, .ended outcome⟩, events₂, state₂) := by
    rw [Function.update_self]
    exact hsecond
  have hunderway := (h.advanced hi hready hfirst).advanced hi (hready.update stage₁) hnext
  rw [Function.update_idem, List.append_assoc] at hunderway
  rw [Job.conclude_advance, hfirst]
  dsimp only
  rw [Job.conclude_advance, hsecond]
  simpa only [Job.conclude, List.append_nil] using hunderway

end Underway

/-! ## How runs end -/

/-- No step is between its calls. -/
def Settled (stages : Nat → Stage) : Prop :=
  ∀ i artifact, stages i ≠ .fetched artifact

theorem Settled.update (h : Settled stages) (k : Nat)
    (outcome : Outcome TransactionError Unit) :
    Settled (Function.update stages k (.ended outcome)) := by
  intro i artifact
  by_cases hik : i = k
  · subst hik
    rw [Function.update_self]
    exact Stage.noConfusion
  · rw [Function.update_of_ne hik]
    exact h i artifact

/-- **How a run ends** that has led to the given stages. -/
structure Conclusion (steps : List Step) (cancelled : Cancellation) (stages : Nat → Stage)
    (outcome : Outcome TransactionError Unit) : Prop where
  settled : Settled stages
  /-- A run succeeds if it has applied all steps. -/
  done_iff : outcome = .done () ↔ ∀ i < steps.length, stages i = .ended (.done ())
  /-- Without a cancellation it is for a failing step that a run stops. -/
  stopped : outcome ≠ .done () → (∃ events, cancelled events = true) ∨
    ∃ i < steps.length, ∃ outcome', outcome' ≠ .done () ∧ stages i = .ended outcome'

namespace Conclusion

variable {cancelled : Cancellation} {outcome : Outcome TransactionError Unit}

theorem of_complete (hsettled : Settled stages)
    (h : ∀ i < steps.length, stages i = .ended (.done ())) :
    Conclusion steps cancelled stages (.done ()) where
  settled := hsettled
  done_iff := ⟨fun _ => h, fun _ => rfl⟩
  stopped := fun hne => absurd rfl hne

theorem of_cancelled (hsettled : Settled stages)
    (hi : i < steps.length) (hwaiting : stages i = .waiting) (hcancelled : cancelled events = true)
    {cause : TransactionError} : Conclusion steps cancelled stages (.failed cause) where
  settled := hsettled
  done_iff := by
    refine ⟨fun h => by simp at h, fun h => ?_⟩
    have hstage := h i hi
    rw [hwaiting] at hstage
    cases hstage
  stopped := fun _ => Or.inl ⟨events, hcancelled⟩

theorem of_failed (hsettled : Settled stages)
    (hi : i < steps.length) {outcome' : Outcome TransactionError Unit}
    (hended : stages i = .ended outcome') (hfailed : outcome' ≠ .done ())
    (hne : outcome ≠ .done ()) : Conclusion steps cancelled stages outcome where
  settled := hsettled
  done_iff := by
    refine ⟨fun h => absurd h hne, fun h => ?_⟩
    have hstage := h i hi
    rw [hended] at hstage
    cases hstage
    exact absurd rfl hfailed
  stopped := fun _ => Or.inr ⟨i, hi, outcome', hfailed, hended⟩

end Conclusion

/-- What a run of all steps shows. -/
def Concludes (c : Context σ) (steps : List Step) (start : σ) (cancelled : Cancellation)
    (applied : Applied σ Unit) : Prop :=
  ∃ stages, Underway c steps start stages applied.events applied.state ∧
    Conclusion steps cancelled stages applied.outcome

/-- Between two steps that are taken in order. -/
theorem Settled.of_prefix {completed : Nat}
    (hdone : ∀ i < completed, stages i = .ended (.done ()))
    (hwaiting : ∀ i ≥ completed, stages i = .waiting) : Settled stages := by
  intro i artifact
  rcases Nat.lt_or_ge i completed with hi | hi
  · rw [hdone i hi]
    exact Stage.noConfusion
  · rw [hwaiting i hi]
    exact Stage.noConfusion

/-- **Steps that are taken in order** end like this, when the first `completed` of them have
been applied. -/
theorem runInOrder_concludes_from (cancelled : Cancellation) (rest : List Step) :
    ∀ (completed : Nat) (stages : Nat → Stage) (events : List Event) (state : σ),
      steps.drop completed = rest → Underway c steps start stages events state →
      (∀ i < completed, stages i = .ended (.done ())) → (∀ i ≥ completed, stages i = .waiting) →
      Concludes c steps start cancelled (runInOrder c cancelled completed events rest state) := by
  induction rest with
  | nil =>
    intro completed stages events state hrest h hdone hwaiting
    have hlength : steps.length ≤ completed := List.drop_eq_nil_iff.mp hrest
    refine ⟨stages, h, .of_complete (Settled.of_prefix hdone hwaiting) fun i hi => ?_⟩
    exact hdone i (Nat.lt_of_lt_of_le hi hlength)
  | cons step rest ih =>
    intro completed stages events state hrest h hdone hwaiting
    have hsettled := Settled.of_prefix hdone hwaiting
    have hplace : steps[completed]? = some step := by
      rw [← List.head?_drop, hrest, List.head?_cons]
    have hlt := (List.getElem?_eq_some_iff.mp hplace).1
    have hnext := hwaiting completed (Nat.le_refl _)
    rw [runInOrder]
    split
    · rename_i hcancelled
      exact ⟨stages, h, .of_cancelled hsettled hlt hnext hcancelled⟩
    · rcases happlied : applyStep c step state with ⟨outcome, more, state'⟩
      have hconclude : Job.conclude c ⟨step, stages completed⟩ state = ⟨outcome, more, state'⟩ := by
        rw [hnext]
        exact happlied
      have hunderway := h.conclude hplace (fun j _ hj => hdone j hj) hconclude
      cases outcome with
      | failed cause =>
        exact ⟨_, hunderway, .of_failed (hsettled.update completed _) hlt
          (Function.update_self ..) (by simp) (by simp)⟩
      | crashed =>
        exact ⟨_, hunderway, .of_failed (hsettled.update completed _) hlt
          (Function.update_self ..) (by simp) (by simp)⟩
      | done value =>
        refine ih (completed + 1) _ _ _ ?_ hunderway ?_ ?_
        · rw [← List.tail_drop, hrest, List.tail_cons]
        · intro i hi
          by_cases heq : i = completed
          · subst heq
            exact Function.update_self ..
          · rw [Function.update_of_ne heq]
            exact hdone i (by omega)
        · intro i hi
          rw [Function.update_of_ne (by omega)]
          exact hwaiting i (by omega)

/-- **A run that takes one step at a time.** -/
theorem runInOrder_concludes (cancelled : Cancellation) :
    Concludes c steps start cancelled (runInOrder c cancelled 0 [] steps start) :=
  runInOrder_concludes_from cancelled steps 0 _ _ _ rfl .initially
    (fun i hi => absurd hi (Nat.not_lt_zero i)) fun _ _ => rfl

end Provision.Execution
