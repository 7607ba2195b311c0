import Provision.Client

/-!
# Sessions

A session is a client together with the transactions that were made with it.  A
transaction stays in its slot, so running it again finds it claimed.  Transactions come
from requests, or straight from steps that a caller put together; these get their ids from
a builder of their own.
-/

namespace Provision

/-- A client and the transactions made so far, a slot being empty where making one
failed. -/
structure Session (σ : Type) where
  client : Client σ
  builder : TransactionBuilder
  slots : List (Option Transaction)

namespace Session

variable {σ : Type}

/-- What can be asked of a session. -/
inductive Request (σ : Type)
  /-- Make a transaction of a request. -/
  | create (actions : List Action)
  /-- Make a transaction of given steps, under a given id or the next one. -/
  | build (id : Option UInt32) (steps : List Step)
  /-- Run the transaction of a slot, reporting events under a given id or its own. -/
  | run (slot : Nat) (id : Option UInt32) (turns : Nat → List Nat)
      (cancelled : Execution.Cancellation)
  /-- Replace all repositories. -/
  | refresh (repositories : List Repository)
  /-- Download a package outside of any transaction, and give it up. -/
  | download (key : PackageKey) (target : Target)
  /-- Let the world outside change the state of the store. -/
  | alter (change : σ → σ)

/-- What a session answers. -/
inductive Reply
  | made (transaction : Transaction)
  | refused (cause : TransactionError)
  | noTransaction
  | ran (outcome : Outcome TransactionError Unit) (events : List Event) (transaction : Transaction)
  | refreshed (generation : Nat)
  | downloaded (progress : List Progress) (outcome : Outcome TransactionError Artifact)
  | altered

/-- A session in which nothing has been made. -/
def new (client : Client σ) : Session σ :=
  ⟨client, TransactionBuilder.new, []⟩

/-- The transaction of a slot. -/
def transaction? (s : Session σ) (slot : Nat) : Option Transaction :=
  (s.slots[slot]?).join

/-- Does what is asked. -/
def perform (s : Session σ) : Request σ → Reply × Session σ
  | .create actions =>
    match s.client.createTransaction actions with
    | (.error cause, client) => (.refused cause, { s with client, slots := s.slots ++ [none] })
    | (.ok transaction, client) =>
      (.made transaction, { s with client, slots := s.slots ++ [some transaction] })
  | .build (some id) steps =>
    let transaction := Transaction.ofSteps id steps
    (.made transaction, { s with slots := s.slots ++ [some transaction] })
  | .build none steps =>
    let (transaction, builder) := s.builder.build steps
    (.made transaction, { s with builder, slots := s.slots ++ [some transaction] })
  | .run slot id turns cancelled =>
    match s.transaction? slot with
    | none => (.noTransaction, s)
    | some transaction =>
      let (applied, transaction, client) :=
        s.client.runTransaction transaction id turns cancelled
      (.ran applied.outcome applied.events transaction,
        { s with client, slots := s.slots.set slot (some transaction) })
  | .refresh repositories =>
    let client := s.client.refresh repositories
    (.refreshed client.snapshot.generation, { s with client })
  | .download key target =>
    let (progress, outcome, client) := s.client.download key target
    let client :=
      match outcome with
      | .done artifact => client.discard artifact
      | _ => client
    (.downloaded progress outcome, { s with client })
  | .alter change =>
    (.altered, { s with client := { s.client with state := change s.client.state } })

/-- Does what is asked, one request after the other. -/
def performAll (s : Session σ) : List (Request σ) → List Reply × Session σ
  | [] => ([], s)
  | request :: rest =>
    let (reply, s) := s.perform request
    let (replies, s) := performAll s rest
    (reply :: replies, s)

end Session

end Provision
