import Provision.Proofs.Execution.SideBySide

/-!
# Calls on record

Any store can be made to write down its calls, each with what came of it (`Store.logged`).
Nothing else changes: a run over the store on record ends alike, reports the same events and
leaves the same state as a run over the store itself (`forget_run`).  So what has been written
down in the end are the calls that a run makes (`callsOf`).
-/
namespace Provision

/-- A call of a store and what came of it. -/
inductive Call
  | download (key : PackageKey) (target : Target) (result : Download)
  | install (artifact : Artifact) (target : Target) (result : Outcome InstallError Unit)
  | uninstall (key : PackageKey) (target : Target) (result : Outcome UninstallError Unit)
deriving DecidableEq, Repr

/-- The state of a store and the calls it has written down. -/
structure Logged (σ : Type) where
  state : σ
  calls : List Call

/-- The store that writes down its calls. -/
def Store.logged {σ : Type} (store : Store σ) : Store (Logged σ) where
  status snapshot key target s := store.status snapshot key target s.state
  download snapshot key target s :=
    let (result, state) := store.download snapshot key target s.state
    (result, ⟨state, s.calls ++ [.download key target result]⟩)
  install snapshot artifact target s :=
    let (result, state) := store.install snapshot artifact target s.state
    (result, ⟨state, s.calls ++ [.install artifact target result]⟩)
  uninstall snapshot key target s :=
    let (result, state) := store.uninstall snapshot key target s.state
    (result, ⟨state, s.calls ++ [.uninstall key target result]⟩)
  discard artifact s := ⟨store.discard artifact s.state, s.calls⟩

/-- The same without the calls that were written down. -/
def Applied.forget {σ α : Type} (applied : Applied (Logged σ) α) : Applied σ α :=
  ⟨applied.outcome, applied.events, applied.state.state⟩

namespace Execution

variable {σ : Type} (c : Context σ)

/-- The same store, snapshot and id, with the calls on record. -/
def Context.logged : Context (Logged σ) :=
  ⟨c.store.logged, c.snapshot, c.id⟩

/-- **The calls that a run makes.** -/
def callsOf (mode : Mode) (cancelled : Cancellation) (transaction : Transaction) (start : σ) :
    List Call :=
  (run c.logged mode cancelled transaction ⟨start, []⟩).1.state.calls

/-! ## Jobs -/

theorem place_logged (step : Step) (artifact : Artifact) (s : Logged σ) :
    place c.logged step artifact s =
      let placed := place c step artifact s.state
      ⟨placed.outcome, placed.events, placed.state, s.calls ++ [.install artifact step.target
        (c.store.install c.snapshot artifact step.target s.state).1]⟩ := by
  rcases hinstall : c.store.install c.snapshot artifact step.target s.state with ⟨outcome, state⟩
  cases outcome <;> simp only [place, Context.logged, Store.logged, hinstall]

theorem remove_logged (step : Step) (s : Logged σ) :
    remove c.logged step s =
      let removed := remove c step s.state
      ⟨removed.outcome, removed.events, removed.state, s.calls ++ [.uninstall step.key step.target
        (c.store.uninstall c.snapshot step.key step.target s.state).1]⟩ := by
  rcases hremove : c.store.uninstall c.snapshot step.key step.target s.state with ⟨outcome, state⟩
  cases outcome <;> simp only [remove, Context.logged, Store.logged, hremove]

namespace Job

/-- The next call of a job, if it is not at its end. -/
def nextCall (job : Job) (state : σ) : List Call :=
  match job.stage with
  | .ended _ => []
  | .fetched artifact =>
    [.install artifact job.step.target
      (c.store.install c.snapshot artifact job.step.target state).1]
  | .waiting =>
    match job.step.kind with
    | .uninstall =>
      [.uninstall job.step.key job.step.target
        (c.store.uninstall c.snapshot job.step.key job.step.target state).1]
    | .install =>
      [.download job.step.key job.step.target
        (c.store.download c.snapshot job.step.key job.step.target state).1]

variable (job : Job) (s : Logged σ)

/-- **A job goes on alike on record**, and its next call is written down. -/
theorem advance_logged : advance c.logged job s =
    let (job', events, state) := advance c job s.state
    (job', events, ⟨state, s.calls ++ nextCall c job s.state⟩) := by
  obtain ⟨step, stage⟩ := job
  cases stage with
  | ended outcome => simp only [advance, nextCall, List.append_nil]
  | fetched artifact => simp only [advance, nextCall, place_logged]
  | waiting =>
    simp only [advance, nextCall]
    cases step.kind with
    | uninstall => simp only [remove_logged]
    | install => rfl

/-- The calls of a job that are left. -/
def callsLeft (state : σ) : List Call :=
  nextCall c job state ++ nextCall c (advance c job state).1 (advance c job state).2.2

/-- A job is at its end after two calls. -/
theorem conclude_logged : conclude c.logged job s =
    let concluded := conclude c job s.state
    ⟨concluded.outcome, concluded.events, concluded.state, s.calls ++ callsLeft c job s.state⟩ := by
  obtain ⟨outcome, hended⟩ := exists_ended_advance c job s.state
  rw [conclude_advance c.logged, conclude_advance c job, advance_logged, callsLeft]
  rcases hfirst : advance c job s.state with ⟨job₁, events₁, state₁⟩
  rw [hfirst] at hended
  dsimp only
  rw [conclude_advance c.logged, conclude_advance c job₁, advance_logged]
  rcases hsecond : advance c job₁ state₁ with ⟨⟨step₂, stage₂⟩, events₂, state₂⟩
  rw [hsecond] at hended
  obtain rfl : stage₂ = .ended outcome := hended
  simp only [conclude, List.append_assoc]

end Job

/-! ## Runs -/

variable (s : Logged σ)

theorem applyStep_logged (step : Step) : applyStep c.logged step s =
    let applied := applyStep c step s.state
    ⟨applied.outcome, applied.events, applied.state,
      s.calls ++ Job.callsLeft c (.ofStep step) s.state⟩ :=
  Job.conclude_logged c (.ofStep step) s

theorem forget_runInOrder (cancelled : Cancellation) (completed : Nat) (events : List Event)
    (steps : List Step) : (runInOrder c.logged cancelled completed events steps s).forget =
      runInOrder c cancelled completed events steps s.state := by
  induction steps generalizing completed events s with
  | nil => rfl
  | cons step rest ih =>
    rw [runInOrder, runInOrder, applyStep_logged]
    split
    · rfl
    · rcases applyStep c step s.state with ⟨outcome, more, state⟩
      cases outcome with
      | done value => exact ih ..
      | failed cause => rfl
      | crashed => rfl

/-- What several jobs have led to, without the calls that were written down. -/
def forgetAll {β : Type} : β × List Event × Logged σ → β × List Event × σ
  | (result, events, s) => (result, events, s.state)

theorem forget_interleave (turns : List Nat) (jobs : List Job) :
    forgetAll (interleave c.logged turns jobs s) = interleave c turns jobs s.state := by
  induction turns using List.reverseRecOn with
  | nil => rfl
  | append_singleton turns k ih =>
    rw [interleave_concat, interleave_concat, ← ih]
    rcases interleave c.logged turns jobs s with ⟨jobs', events, s'⟩
    simp only [forgetAll, Job.advance_logged]
    cases jobs'[k]? <;> rfl

theorem forget_concludeAll (jobs : List Job) :
    forgetAll (concludeAll c.logged jobs s) = concludeAll c jobs s.state := by
  induction jobs generalizing s with
  | nil => rfl
  | cons job rest ih =>
    rw [concludeAll, concludeAll, Job.conclude_logged]
    dsimp only
    have hrest := ih ⟨(Job.conclude c job s.state).state, s.calls ++ Job.callsLeft c job s.state⟩
    rw [← hrest]
    rfl

theorem forget_runChunk (turns : List Nat) (chunk : List Step) :
    forgetAll (runChunk c.logged turns chunk s) = runChunk c turns chunk s.state := by
  rw [runChunk, runChunk, ← forget_interleave]
  rcases interleave c.logged turns (chunk.map Job.ofStep) s with ⟨jobs, events, s'⟩
  simp only [forgetAll, ← forget_concludeAll]

theorem forget_runChunks (cancelled : Cancellation) (turns : Nat → List Nat) (completed : Nat)
    (events : List Event) (chunks : List (List Step)) :
    (runChunks c.logged cancelled turns completed events chunks s).forget =
      runChunks c cancelled turns completed events chunks s.state := by
  induction chunks generalizing turns completed events s with
  | nil => rfl
  | cons chunk rest ih =>
    rw [runChunks, runChunks, ← forget_runChunk]
    rcases runChunk c.logged (turns 0) chunk s with ⟨outcomes, more, s'⟩
    simp only [forgetAll]
    split
    · rfl
    · split
      · rfl
      · exact ih ..

theorem forget_runSteps (mode : Mode) (cancelled : Cancellation) (steps : List Step) :
    (runSteps c.logged mode cancelled steps s).forget =
      runSteps c mode cancelled steps s.state := by
  rw [runSteps, runSteps]
  split
  · exact forget_runChunks ..
  · exact forget_runInOrder ..

/-- **A run goes alike on record.** -/
theorem forget_run (mode : Mode) (cancelled : Cancellation) (transaction : Transaction) :
    (run c.logged mode cancelled transaction s).1.forget =
      (run c mode cancelled transaction s.state).1 := by
  rw [run, run]
  split
  · rfl
  · exact forget_runSteps ..

end Execution

end Provision
