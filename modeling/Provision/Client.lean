import Provision.Config.Basic
import Provision.Execution.Run
import Provision.Plan.Resolver

/-!
# The client

A client ties settings, repositories and a store together.  A request becomes a
transaction (`createTransaction?`), which the client can run.  Creating a transaction
changes nothing but the next id; only runs and downloads touch the store.
-/

namespace Provision

/-- A client of a store. -/
structure Client (σ : Type) where
  config : Config
  store : Store σ
  index : RepositoryIndex
  builder : TransactionBuilder
  /-- The state of the store. -/
  state : σ

namespace Client

variable {σ : Type}

/-- A client that has made no transaction. -/
def new (config : Config) (store : Store σ) (index : RepositoryIndex) (state : σ) : Client σ :=
  { config, store, index, builder := TransactionBuilder.new, state }

/-- The snapshot that is current. -/
def snapshot (client : Client σ) : Snapshot :=
  client.index.snapshot

/-- Replaces all repositories. -/
def refresh (client : Client σ) (repositories : List Repository) : Client σ :=
  { client with index := client.index.refresh repositories }

/-- The resolver of the current snapshot and the state of the store. -/
def resolver (client : Client σ) : Plan.Resolver where
  snapshot := client.snapshot
  status key target := client.store.status client.snapshot key target client.state
  cascade := client.config.cascadeUninstall

/-- The steps of a request. -/
def plan (client : Client σ) (actions : List Action) : Except TransactionError (List Step) := do
  client.resolver.resolve (← Validation.validate actions)

/-- Makes a transaction of a request. -/
def createTransaction (client : Client σ) (actions : List Action) :
    Except TransactionError Transaction × Client σ :=
  match client.plan actions with
  | .error e => (.error e, client)
  | .ok steps =>
    let (transaction, builder) := client.builder.build steps
    (.ok transaction, { client with builder })

/-- How runs of the client go about their steps. -/
def mode (client : Client σ) (turns : Nat → List Nat) : Execution.Mode where
  limit := client.config.maxConcurrentSteps.toNat
  turns := turns

/-- Runs a transaction.  Events are reported under `id`, or under the transaction's own id
where none is given. -/
def runTransaction (client : Client σ) (transaction : Transaction) (id : Option UInt32)
    (turns : Nat → List Nat) (cancelled : Execution.Cancellation) :
    Applied σ Unit × Transaction × Client σ :=
  let context : Execution.Context σ :=
    { store := client.store
      snapshot := client.snapshot
      id := id.getD transaction.id }
  let (applied, transaction) :=
    Execution.run context (client.mode turns) cancelled transaction client.state
  (applied, transaction, { client with state := applied.state })

/-- The state of a package, unknown where no repository has it. -/
def status (client : Client σ) (key : PackageKey) (target : Target) : InstallStatus :=
  if client.snapshot.contains key then
    client.store.statusAnywhere client.snapshot key target client.state
  else .unknown s!"`{key}` is not in any repository"

/-- Downloads a package outside of any transaction.  Gives the progress reported on the way
and the artifact, which is the caller's to give up. -/
def download (client : Client σ) (key : PackageKey) (target : Target) :
    List Progress × Outcome TransactionError Artifact × Client σ :=
  if client.snapshot.contains key then
    let (download, state) := client.store.download client.snapshot key target client.state
    let outcome :=
      match download.outcome with
      | .done artifact => .done artifact
      | .failed cause => .failed (.download key cause)
      | .crashed => .crashed
    (download.progress, outcome, { client with state })
  else ([], .failed (.unknownPackage key), client)

/-- Gives up an artifact. -/
def discard (client : Client σ) (artifact : Artifact) : Client σ :=
  { client with state := client.store.discard artifact client.state }

end Client

end Provision
