import Provision.Action
import Provision.Version.Basic

/-!
# Steps and transactions

A plan is a list of steps, each of which installs or uninstalls one package at one
target.  A `Transaction` is a plan that got an id; it can be run once.  A
`TransactionBuilder` hands out the ids, one after the other.
-/

namespace Provision

/-- One operation of a plan. -/
structure Step where
  key : PackageKey
  target : Target
  kind : ActionKind
  /-- The version of the package the step acts on. -/
  version : Version
  /-- Whether the step was asked for, and not only added for the sake of another. -/
  explicit : Bool
  /-- The place of the step in its plan. -/
  order : Nat
  /-- The places of the earlier steps that must be applied before this one. -/
  requires : List Nat
deriving DecidableEq, Repr

namespace Step

/-- Writes a step, as in `install <key> 1.0 (user) (dependency)`. -/
def toString (s : Step) : String :=
  s!"{s.kind} {s.key} {s.version} ({s.target})" ++ if s.explicit then "" else " (dependency)"

instance : ToString Step := ⟨toString⟩

end Step

/-- A plan with an id. -/
structure Transaction where
  id : UInt32
  steps : List Step
  /-- Whether a run of the transaction has been started. -/
  hasRun : Bool
deriving DecidableEq, Repr

namespace Transaction

/-- A transaction that has not been run. -/
def ofSteps (id : UInt32) (steps : List Step) : Transaction :=
  ⟨id, steps, false⟩

/-- The number of steps. -/
def size (t : Transaction) : Nat :=
  t.steps.length

def isEmpty (t : Transaction) : Bool :=
  t.steps.isEmpty

end Transaction

/-- Hands out transaction ids. -/
structure TransactionBuilder where
  /-- The last id that was handed out; zero before the first. -/
  lastId : UInt32
deriving DecidableEq, Repr

namespace TransactionBuilder

def new : TransactionBuilder := ⟨0⟩

/-- Makes a transaction with the next id. -/
def build (b : TransactionBuilder) (steps : List Step) : Transaction × TransactionBuilder :=
  (Transaction.ofSteps (b.lastId + 1) steps, ⟨b.lastId + 1⟩)

end TransactionBuilder

end Provision
