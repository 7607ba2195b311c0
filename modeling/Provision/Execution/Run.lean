import Provision.Execution.Step

/-!
# Running transactions

A run applies the steps of a transaction and stops at the first failure; what was applied
stays applied.  One step at a time, it goes through the steps in order.  Allowed to run
several at a time, it cuts the steps into chunks (`chunks`): a step comes in a later chunk
than the steps it requires, and a chunk holds no more steps than may run at once.  In
which order the calls of a chunk's steps reach the store is not for the run to decide, so
that order is a parameter.

Whether a run has been cancelled is looked up before every step or chunk.  It may depend
on the events reported so far, which tell these moments apart.
-/

namespace Provision.Execution

variable {σ : Type}

/-- Whether cancellation has been seen once the given events have been reported. -/
abbrev Cancellation := List Event → Bool

/-- Applies steps one at a time.  `completed` steps have been applied before and have
reported `events`. -/
def runInOrder (c : Context σ) (cancelled : Cancellation) (completed : Nat)
    (events : List Event) : List Step → σ → Applied σ Unit
  | [], state => ⟨.done (), events, state⟩
  | step :: rest, state =>
    if cancelled events then ⟨.failed (.cancelled completed), events, state⟩
    else
      let applied := applyStep c step state
      match applied.outcome with
      | .done _ =>
        runInOrder c cancelled (completed + 1) (events ++ applied.events) rest applied.state
      | .failed cause => ⟨.failed cause, events ++ applied.events, applied.state⟩
      | .crashed => ⟨.crashed, events ++ applied.events, applied.state⟩

/-- The wave of the next step: one more than the latest wave of the earlier steps that it
requires.  `waves` holds the waves of the earlier steps. -/
def nextWave (waves : List Nat) (step : Step) : Nat :=
  (((step.requires.filterMap (waves[·]?)).map (· + 1)).max?).getD 0

/-- The waves of the steps. -/
def waves (steps : List Step) : List Nat :=
  steps.foldl (fun waves step => waves ++ [nextWave waves step]) []

/-- Cuts a list into pieces of at most `size + 1`. -/
def pieces {α : Type} (size : Nat) : List α → List (List α)
  | [] => []
  | x :: rest => (x :: rest.take size) :: pieces size (rest.drop size)
termination_by l => l.length
decreasing_by exact Nat.lt_succ_of_le (by rw [List.length_drop]; exact Nat.sub_le ..)

/-- The chunks that steps are run in, when at most `limit` steps may run at once. -/
def chunks (limit : Nat) (steps : List Step) : List (List Step) :=
  let waves := waves steps
  (List.range ((waves.max?.map (· + 1)).getD 0)).flatMap fun wave =>
    pieces (limit - 1)
      ((steps.zip waves).filterMap fun (step, w) => if w = wave then some step else none)

/-- Lets jobs make their calls in turn, a list of places in `jobs` saying whose turn it
is. -/
def interleave (c : Context σ) (turns : List Nat) (jobs : List Job) (state : σ) :
    List Job × List Event × σ :=
  turns.foldl
    (fun (jobs, events, state) i =>
      match jobs[i]? with
      | none => (jobs, events, state)
      | some job =>
        let (job, more, state) := job.advance c state
        (jobs.set i job, events ++ more, state))
    (jobs, [], state)

/-- Concludes jobs one after the other. -/
def concludeAll (c : Context σ) :
    List Job → σ → List (Outcome TransactionError Unit) × List Event × σ
  | [], state => ([], [], state)
  | job :: rest, state =>
    let concluded := job.conclude c state
    let (outcomes, events, state) := concludeAll c rest concluded.state
    (concluded.outcome :: outcomes, concluded.events ++ events, state)

/-- Runs the steps of a chunk side by side.  `turns` says whose call comes next; what it
leaves open is done step by step. -/
def runChunk (c : Context σ) (turns : List Nat) (chunk : List Step) (state : σ) :
    List (Outcome TransactionError Unit) × List Event × σ :=
  let (jobs, events, state) := interleave c turns (chunk.map Job.ofStep) state
  let (outcomes, more, state) := concludeAll c jobs state
  (outcomes, events ++ more, state)

/-- A crash of a step that runs beside others is the failure of its last store call. -/
def crashError (step : Step) : TransactionError :=
  match step.kind with
  | .install => .install step.key (.store "step panicked")
  | .uninstall => .uninstall step.key (.store "step panicked")

/-- The failure of a step that ran beside others. -/
def failure? (step : Step) : Outcome TransactionError Unit → Option TransactionError
  | .done _ => none
  | .failed cause => some cause
  | .crashed => some (crashError step)

/-- Runs chunks one after the other.  `turns` says for each of them in which order the
calls of its steps are made. -/
def runChunks (c : Context σ) (cancelled : Cancellation) (turns : Nat → List Nat)
    (completed : Nat) (events : List Event) : List (List Step) → σ → Applied σ Unit
  | [], state => ⟨.done (), events, state⟩
  | chunk :: rest, state =>
    if cancelled events then ⟨.failed (.cancelled completed), events, state⟩
    else
      let (outcomes, more, state) := runChunk c (turns 0) chunk state
      let events := events ++ more
      match (chunk.zip outcomes).findSome? fun (step, outcome) => failure? step outcome with
      | some cause => ⟨.failed cause, events, state⟩
      | none =>
        runChunks c cancelled (fun n => turns (n + 1)) (completed + chunk.length) events rest state

/-- How a run goes about its steps. -/
structure Mode where
  /-- How many steps may run at once. -/
  limit : Nat
  /-- In which order the calls of steps that run at once reach the store. -/
  turns : Nat → List Nat

/-- Runs the steps of a transaction. -/
def runSteps (c : Context σ) (mode : Mode) (cancelled : Cancellation) (steps : List Step)
    (state : σ) : Applied σ Unit :=
  if mode.limit > 1 then runChunks c cancelled mode.turns 0 [] (chunks mode.limit steps) state
  else runInOrder c cancelled 0 [] steps state

/-- Runs a transaction, which claims it.  A transaction that was claimed before is left
alone. -/
def run (c : Context σ) (mode : Mode) (cancelled : Cancellation) (transaction : Transaction)
    (state : σ) : Applied σ Unit × Transaction :=
  if transaction.hasRun then (⟨.failed (.alreadyRun transaction.id), [], state⟩, transaction)
  else (runSteps c mode cancelled transaction.steps state, { transaction with hasRun := true })

end Provision.Execution
