import Provision.Step
import Provision.Store.Basic

/-!
# Applying one step

Installing takes two calls of the store, a download and an installation; removing takes
one.  A step that was applied is reported by one event, after the events of its
download.  `Job` is a step under way between its calls, for steps that run side by side.
-/

namespace Provision

/-- Progress reported while a transaction runs. -/
inductive Event
  /-- Bytes downloaded so far for a package. -/
  | download (transaction : UInt32) (key : PackageKey) (progress : Progress)
  /-- A step has been applied. -/
  | step (transaction : UInt32) (key : PackageKey) (kind : ActionKind)
deriving DecidableEq, Repr

/-- What applying something led to: how it ended, what it reported and the state of the
store afterwards. -/
structure Applied (σ α : Type) where
  outcome : Outcome TransactionError α
  events : List Event
  state : σ

namespace Execution

variable {σ : Type}

/-- What the steps of a run are applied with: a store, the snapshot that is current, and
the id that events are reported under. -/
structure Context (σ : Type) where
  store : Store σ
  snapshot : Snapshot
  id : UInt32

variable (c : Context σ)

/-- Downloads the package of an install step. -/
def fetch (step : Step) (state : σ) : Applied σ Artifact :=
  let (download, state) := c.store.download c.snapshot step.key step.target state
  { outcome :=
      match download.outcome with
      | .done artifact => .done artifact
      | .failed cause => .failed (.download step.key cause)
      | .crashed => .crashed
    events := download.progress.map fun progress => .download c.id step.key progress
    state }

/-- Installs the downloaded package of an install step.  The artifact is given up
afterwards. -/
def place (step : Step) (artifact : Artifact) (state : σ) : Applied σ Unit :=
  let (outcome, state) := c.store.install c.snapshot artifact step.target state
  let state := c.store.discard artifact state
  match outcome with
  | .done _ => ⟨.done (), [.step c.id step.key .install], state⟩
  | .failed cause => ⟨.failed (.install step.key cause), [], state⟩
  | .crashed => ⟨.crashed, [], state⟩

/-- Removes the package of an uninstall step. -/
def remove (step : Step) (state : σ) : Applied σ Unit :=
  let (outcome, state) := c.store.uninstall c.snapshot step.key step.target state
  match outcome with
  | .done _ => ⟨.done (), [.step c.id step.key .uninstall], state⟩
  | .failed cause => ⟨.failed (.uninstall step.key cause), [], state⟩
  | .crashed => ⟨.crashed, [], state⟩

/-- Applies a step from start to end. -/
def applyStep (step : Step) (state : σ) : Applied σ Unit :=
  match step.kind with
  | .uninstall => remove c step state
  | .install =>
    let fetched := fetch c step state
    match fetched.outcome with
    | .failed cause => ⟨.failed cause, fetched.events, fetched.state⟩
    | .crashed => ⟨.crashed, fetched.events, fetched.state⟩
    | .done artifact =>
      let placed := place c step artifact fetched.state
      ⟨placed.outcome, fetched.events ++ placed.events, placed.state⟩

/-- How far a step has come. -/
inductive Stage
  | waiting
  | fetched (artifact : Artifact)
  | ended (outcome : Outcome TransactionError Unit)
deriving DecidableEq, Repr

/-- A step under way. -/
structure Job where
  step : Step
  stage : Stage
deriving DecidableEq, Repr

namespace Job

/-- A step that has not begun. -/
def ofStep (step : Step) : Job := ⟨step, .waiting⟩

/-- Makes the next call of a job. -/
def advance (job : Job) (state : σ) : Job × List Event × σ :=
  match job.stage with
  | .ended _ => (job, [], state)
  | .fetched artifact =>
    let placed := place c job.step artifact state
    ({ job with stage := .ended placed.outcome }, placed.events, placed.state)
  | .waiting =>
    match job.step.kind with
    | .uninstall =>
      let removed := remove c job.step state
      ({ job with stage := .ended removed.outcome }, removed.events, removed.state)
    | .install =>
      let fetched := fetch c job.step state
      let stage :=
        match fetched.outcome with
        | .done artifact => .fetched artifact
        | .failed cause => .ended (.failed cause)
        | .crashed => .ended .crashed
      ({ job with stage }, fetched.events, fetched.state)

/-- Makes all calls of a job that are left. -/
def conclude (job : Job) (state : σ) : Applied σ Unit :=
  match job.stage with
  | .ended outcome => ⟨outcome, [], state⟩
  | .fetched artifact => place c job.step artifact state
  | .waiting => applyStep c job.step state

end Job

end Execution

end Provision
