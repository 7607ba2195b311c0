import Provision.Proofs.Store.Logged

/-!
# What a step does

A step makes a few calls and reports a few events, and these tell how far it has come
(`Course`): an installation begins with a download and goes on only if that has succeeded, a
removal is one call, and the step itself is reported once its last call has succeeded.

Every call of a step follows such a course (`Course.advance`), whatever the store and whatever
other steps do in between.  The step reports itself exactly if it has been applied
(`Course.reports_eq`).  A `Part` of a run is one of its steps with the course it has taken.
-/
namespace Provision.Execution

/-- The events that tell what has arrived of a step's package. -/
def arrivals (id : UInt32) (step : Step) (progress : List Progress) : List Event :=
  progress.map fun progress => .download id step.key progress

/-- **The course of a step**: the calls and events by which it comes to a stage. -/
inductive Course (id : UInt32) (step : Step) : Stage → List Call → List Event → Prop
  /-- The step has not begun. -/
  | waiting : Course id step .waiting [] []
  /-- The package has been downloaded and is to be installed. -/
  | fetched {progress : List Progress} {artifact : Artifact} (hkind : step.kind = .install) :
      Course id step (.fetched artifact)
        [.download step.key step.target ⟨progress, .done artifact⟩] (arrivals id step progress)
  /-- The download has failed, and nothing is installed. -/
  | notFetched {progress : List Progress} {cause : DownloadError} (hkind : step.kind = .install) :
      Course id step (.ended (.failed (.download step.key cause)))
        [.download step.key step.target ⟨progress, .failed cause⟩] (arrivals id step progress)
  /-- The download has crashed, and nothing is installed. -/
  | fetchCrashed {progress : List Progress} (hkind : step.kind = .install) :
      Course id step (.ended .crashed)
        [.download step.key step.target ⟨progress, .crashed⟩] (arrivals id step progress)
  /-- The package has been downloaded and installed. -/
  | installed {progress : List Progress} {artifact : Artifact} (hkind : step.kind = .install) :
      Course id step (.ended (.done ()))
        [.download step.key step.target ⟨progress, .done artifact⟩,
          .install artifact step.target (.done ())]
        (arrivals id step progress ++ [report id step])
  /-- The package has been downloaded, but installing it has failed. -/
  | notInstalled {progress : List Progress} {artifact : Artifact} {cause : InstallError}
      (hkind : step.kind = .install) :
      Course id step (.ended (.failed (.install step.key cause)))
        [.download step.key step.target ⟨progress, .done artifact⟩,
          .install artifact step.target (.failed cause)]
        (arrivals id step progress)
  /-- The package has been downloaded, but installing it has crashed. -/
  | installCrashed {progress : List Progress} {artifact : Artifact}
      (hkind : step.kind = .install) :
      Course id step (.ended .crashed)
        [.download step.key step.target ⟨progress, .done artifact⟩,
          .install artifact step.target .crashed]
        (arrivals id step progress)
  /-- The package has been removed. -/
  | removed (hkind : step.kind = .uninstall) :
      Course id step (.ended (.done ()))
        [.uninstall step.key step.target (.done ())] [report id step]
  /-- Removing the package has failed. -/
  | notRemoved {cause : UninstallError} (hkind : step.kind = .uninstall) :
      Course id step (.ended (.failed (.uninstall step.key cause)))
        [.uninstall step.key step.target (.failed cause)] []
  /-- Removing the package has crashed. -/
  | removeCrashed (hkind : step.kind = .uninstall) :
      Course id step (.ended .crashed) [.uninstall step.key step.target .crashed] []

namespace Course

variable {σ : Type} {c : Context σ} {id : UInt32} {step : Step} {stage : Stage}
  {calls : List Call} {events : List Event}

theorem of_remove (hkind : step.kind = .uninstall) (state : σ) :
    Course c.id step (.ended (remove c step state).outcome)
      [.uninstall step.key step.target
        (c.store.uninstall c.snapshot step.key step.target state).1]
      (remove c step state).events := by
  have hreport : report c.id step = .step c.id step.key .uninstall := by rw [report, hkind]
  rw [remove, ← hreport]
  rcases c.store.uninstall c.snapshot step.key step.target state with ⟨outcome, state'⟩
  cases outcome with
  | done value => exact .removed hkind
  | failed cause => exact .notRemoved hkind
  | crashed => exact .removeCrashed hkind

theorem of_place (hkind : step.kind = .install) (progress : List Progress) (artifact : Artifact)
    (state : σ) : Course c.id step (.ended (place c step artifact state).outcome)
      [.download step.key step.target ⟨progress, .done artifact⟩,
        .install artifact step.target (c.store.install c.snapshot artifact step.target state).1]
      (arrivals c.id step progress ++ (place c step artifact state).events) := by
  have hreport : report c.id step = .step c.id step.key .install := by rw [report, hkind]
  rw [place, ← hreport]
  rcases c.store.install c.snapshot artifact step.target state with ⟨outcome, state'⟩
  cases outcome with
  | done value => exact .installed hkind
  | failed cause =>
    dsimp only
    rw [List.append_nil]
    exact .notInstalled hkind
  | crashed =>
    dsimp only
    rw [List.append_nil]
    exact .installCrashed hkind

/-- **A call carries a step's course on.** -/
theorem advance (h : Course c.id step stage calls events) (state : σ) :
    Course c.id step (Job.advance c ⟨step, stage⟩ state).1.stage
      (calls ++ Job.nextCall c ⟨step, stage⟩ state)
      (events ++ (Job.advance c ⟨step, stage⟩ state).2.1) := by
  cases stage with
  | ended outcome => simpa only [Job.advance, Job.nextCall, List.append_nil] using h
  | fetched artifact =>
    cases h with
    | fetched hkind => exact of_place hkind _ artifact state
  | waiting =>
    cases h with
    | waiting =>
      cases hkind : step.kind with
      | uninstall =>
        simp only [Job.advance, Job.nextCall, hkind, List.nil_append]
        exact of_remove hkind state
      | install =>
        rcases hdownload : c.store.download c.snapshot step.key step.target state with
          ⟨⟨progress, outcome⟩, state'⟩
        simp only [Job.advance, Job.nextCall, hkind, List.nil_append, fetch, hdownload]
        cases outcome with
        | done artifact => exact .fetched hkind
        | failed cause => exact .notFetched hkind
        | crashed => exact .fetchCrashed hkind

/-- **The calls that are left bring a step to its end.** -/
theorem conclude (h : Course c.id step stage calls events) (state : σ) :
    Course c.id step (.ended (Job.conclude c ⟨step, stage⟩ state).outcome)
      (calls ++ Job.callsLeft c ⟨step, stage⟩ state)
      (events ++ (Job.conclude c ⟨step, stage⟩ state).events) := by
  obtain ⟨outcome, hended⟩ := Job.exists_ended_advance c ⟨step, stage⟩ state
  have hstep := Job.step_advance c ⟨step, stage⟩ state
  have hfirst := h.advance state
  rw [Job.callsLeft, Job.conclude_advance]
  generalize Job.advance c ⟨step, stage⟩ state = advanced at hended hstep hfirst ⊢
  obtain ⟨⟨step₁, stage₁⟩, events₁, state₁⟩ := advanced
  obtain rfl : step₁ = step := hstep
  have hsecond := hfirst.advance state₁
  dsimp only at hended hsecond ⊢
  rw [Job.conclude_advance]
  generalize Job.advance c ⟨step₁, stage₁⟩ state₁ = advanced at hended hsecond ⊢
  obtain ⟨⟨step₂, stage₂⟩, events₂, state₂⟩ := advanced
  obtain rfl : stage₂ = .ended outcome := hended
  simpa only [Job.conclude, List.append_assoc, List.append_nil] using hsecond

/-- The course of a step that is applied from start to end. -/
theorem of_applyStep (c : Context σ) (step : Step) (state : σ) :
    Course c.id step (.ended (applyStep c step state).outcome)
      (Job.callsLeft c (.ofStep step) state) (applyStep c step state).events :=
  Course.waiting.conclude state

/-- No step ends like a cancelled run. -/
theorem ne_cancelled (h : Course id step stage calls events) (n : Nat) :
    stage ≠ .ended (.failed (.cancelled n)) := by
  rintro rfl
  cases h

theorem reports_arrivals (id : UInt32) (step : Step) (progress : List Progress) :
    Execution.reports (arrivals id step progress) = [] := by
  refine List.filter_eq_nil_iff.mpr fun event hevent => ?_
  obtain ⟨_, -, rfl⟩ := List.mem_map.mp hevent
  exact Bool.false_ne_true

/-- **A step reports itself if it has been applied**, once. -/
theorem reports_eq (h : Course id step stage calls events) :
    reports events = if stage = .ended (.done ()) then [report id step] else [] := by
  cases h with
  | installed hkind =>
    rw [reports_append, reports_arrivals]
    rfl
  | removed hkind => rfl
  | waiting => rfl
  | notRemoved hkind => rfl
  | removeCrashed hkind => rfl
  | _ => exact reports_arrivals ..

end Course

/-! ## Steps of a run -/

/-- A step that a run has begun: its place and stage, and the calls and events so far. -/
structure Part where
  step : Step
  place : Nat
  stage : Stage
  calls : List Call
  events : List Event

namespace Part

/-- The step at its place. -/
def placed (part : Part) : Placed := (part.step, part.place)

/-- The calls and events are those that lead to the stage. -/
def Sound (id : UInt32) (part : Part) : Prop :=
  Course id part.step part.stage part.calls part.events

/-- Whether the step has been applied. -/
def Applied (part : Part) : Prop := part.stage = .ended (.done ())

instance (part : Part) : Decidable part.Applied :=
  inferInstanceAs (Decidable (part.stage = .ended (.done ())))

theorem Sound.reports_eq {id : UInt32} {part : Part} (h : part.Sound id) :
    reports part.events = if part.Applied then [report id part.step] else [] :=
  Course.reports_eq h

/-- **The reports of several steps**, one after the other, are those of the applied ones. -/
theorem reports_flatMap {id : UInt32} {parts : List Part}
    (h : ∀ part ∈ parts, part.Sound id) : reports (parts.flatMap Part.events) =
      (parts.filter fun part => part.Applied).map fun part => report id part.step := by
  induction parts with
  | nil => rfl
  | cons part rest ih =>
    obtain ⟨hpart, hrest⟩ := List.forall_mem_cons.mp h
    rw [List.flatMap_cons, reports_append, ih hrest, hpart.reports_eq, List.filter_cons]
    by_cases happlied : part.Applied <;> simp [happlied]

end Part

end Provision.Execution
