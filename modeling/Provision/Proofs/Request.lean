import Provision.Client
import Provision.Proofs.Plan.Feasible
import Provision.Proofs.Plan.Running

/-!
# From requests to runs

A request is validated, resolved against the state of the store and turned into a transaction
(`createTransaction_eq_ok`).  Running a new transaction runs its steps and changes nothing of the
client but the state of the store (`runTransaction_eq`).
-/
namespace Provision
open Execution

/-! ## Transactions -/

namespace Client

variable {σ : Type} {client client' : Client σ} {actions : List Action} {transaction : Transaction}

/-- What making a transaction amounts to. -/
theorem createTransaction_eq_ok
    (h : client.createTransaction actions = (.ok transaction, client')) :
    (∃ actions', Validation.validate actions = .ok actions' ∧
      client.resolver.resolve actions' = .ok transaction.steps) ∧
      transaction.hasRun = false ∧ ∃ builder, client' = { client with builder } := by
  rw [createTransaction] at h
  cases hplan : client.plan actions with
  | error cause =>
    rw [hplan] at h
    cases h
  | ok steps =>
    rw [hplan] at h
    cases h
    exact ⟨bind_eq_ok.mp hplan, rfl, _, rfl⟩

/-- **Running a new transaction** runs its steps. -/
theorem runTransaction_eq (hnew : transaction.hasRun = false) (id : Option UInt32)
    (turns : Nat → List Nat) (cancelled : Cancellation) :
    client.runTransaction transaction id turns cancelled =
      let applied := runSteps ⟨client.store, client.snapshot, id.getD transaction.id⟩
        (client.mode turns) cancelled transaction.steps client.state
      (applied, { transaction with hasRun := true }, { client with state := applied.state }) := by
  simp only [runTransaction, run, hnew]
  rfl

/-! ### Clients of the scripted store -/

variable {client : Client ScriptedStore}

theorem resolver_eq (hstore : client.store = ScriptedStore.store) :
    client.resolver =
      Plan.Resolver.ofStore client.snapshot client.state client.config.cascadeUninstall := by
  rw [resolver, hstore]
  rfl

theorem runTransaction_of_new (hstore : client.store = ScriptedStore.store)
    (hnew : transaction.hasRun = false) (id : Option UInt32) (turns : Nat → List Nat)
    (cancelled : Cancellation) : client.runTransaction transaction id turns cancelled =
      let applied := runSteps (ScriptedStore.context client.snapshot (id.getD transaction.id))
        (client.mode turns) cancelled transaction.steps client.state
      (applied, { transaction with hasRun := true }, { client with state := applied.state }) := by
  rw [runTransaction_eq hnew, hstore]
  rfl

end Client

/-! ### A client of the sample store -/

namespace Plan.Sample

/-- A client that cascades and may apply two steps at once. -/
def client : Client ScriptedStore :=
  Client.new
    { Config.default ⟨none, none, none, none, none⟩ with
      cascadeUninstall := true, maxConcurrentSteps := 2 }
    ScriptedStore.store ⟨snapshot⟩ store

def transaction : Transaction :=
  (client.builder.build steps).1

/-- The client once it has made the transaction. -/
def clientAfter : Client ScriptedStore :=
  { client with builder := (client.builder.build steps).2 }

theorem createTransaction_request :
    client.createTransaction request = (.ok transaction, clientAfter) := by
  have hplan : client.plan request = .ok steps := by decide +kernel
  rw [Client.createTransaction, hplan]
  rfl

end Plan.Sample

end Provision
