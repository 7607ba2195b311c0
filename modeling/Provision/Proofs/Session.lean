import Provision.Proofs.Plan.Fitting
import Provision.Proofs.Request
import Provision.Session

/-!
# Sessions that keep dependencies installed

A session may make several transactions before it runs any of them, so a run may find another
store than the one its plan was made for.  Then a closed store need not stay closed
(`stale_run_not_closed`): a package that an install relies on may have been removed meanwhile.

What is needed is that the plan fits the store when its run starts (`Fits`).  A session in
which every run meets this condition (`Timely`) is consistent all along
(`consistent_of_timely`), whatever fails or is cancelled on the way.  The condition holds of a
transaction that has just been made, and no run that succeeds can do without it.
-/
namespace Provision
open Plan Execution ScriptedStore

/-! ## Transactions of a session -/

namespace Client

variable {σ : Type} {client : Client σ} {transaction : Transaction}

/-- A refused request changes nothing. -/
theorem createTransaction_eq_error {actions : List Action} {cause : TransactionError}
    {client' : Client σ} (h : client.createTransaction actions = (.error cause, client')) :
    client' = client := by
  rw [createTransaction] at h
  cases hplan : client.plan actions with
  | error cause' =>
    rw [hplan] at h
    exact (Prod.mk.inj h).2.symm
  | ok steps =>
    rw [hplan] at h
    cases h

/-- Running a transaction again changes nothing. -/
theorem runTransaction_of_claimed (hclaimed : transaction.hasRun = true) (id : Option UInt32)
    (turns : Nat → List Nat) (cancelled : Cancellation) :
    client.runTransaction transaction id turns cancelled =
      (⟨.failed (.alreadyRun transaction.id), [], client.state⟩, transaction, client) := by
  simp only [runTransaction, run, hclaimed, if_true]

end Client

namespace Session

variable {session : Session ScriptedStore} {snapshot : Snapshot} {transaction : Transaction}
  {slots : List (Option Transaction)} {o : Option Transaction} {slot slot' : Nat}

theorem join_getElem?_concat (h : (slots ++ [o])[slot]?.join = some transaction) :
    slots[slot]?.join = some transaction ∨ o = some transaction := by
  rw [List.getElem?_append] at h
  split at h
  · exact Or.inl h
  · rw [List.getElem?_singleton] at h
    split at h
    · exact Or.inr h
    · cases h

theorem join_getElem?_set (h : (slots.set slot' o)[slot]?.join = some transaction) :
    slots[slot]?.join = some transaction ∨ o = some transaction := by
  rw [List.getElem?_set] at h
  split at h
  · split at h
    · exact Or.inr h
    · cases h
  · exact Or.inl h

/-- What is known of a session: its store is closed, and its transactions are plans for the
snapshot. -/
structure Sound (snapshot : Snapshot) (session : Session ScriptedStore) : Prop where
  store : session.client.store = ScriptedStore.store
  current : session.client.snapshot = snapshot
  fixedStatus : session.client.state.fixedStatus = []
  closed : DependencyClosed snapshot session.client.state
  resolved : ∀ slot transaction, session.transaction? slot = some transaction →
    Resolved snapshot transaction.steps

theorem sound_new {client : Client ScriptedStore} (hstore : client.store = ScriptedStore.store)
    (hfixed : client.state.fixedStatus = [])
    (hclosed : DependencyClosed client.snapshot client.state) :
    Sound client.snapshot (Session.new client) where
  store := hstore
  current := rfl
  fixedStatus := hfixed
  closed := hclosed
  resolved := fun slot transaction h => by simp [transaction?, Session.new] at h

/-- A new transaction is resolved for the store as it is. -/
theorem Sound.resolve_of_created (h : Sound snapshot session) {actions : List Action}
    {client : Client ScriptedStore}
    (hcreate : session.client.createTransaction actions = (.ok transaction, client)) :
    ∃ actions', (Resolver.ofStore snapshot session.client.state
      session.client.config.cascadeUninstall).resolve actions' = .ok transaction.steps := by
  obtain ⟨⟨actions', -, hresolve⟩, -⟩ := Client.createTransaction_eq_ok hcreate
  rw [Client.resolver_eq h.store, h.current] at hresolve
  exact ⟨actions', hresolve⟩

theorem Sound.created (h : Sound snapshot session) (actions : List Action) :
    Sound snapshot (session.perform (.create actions)).2 := by
  rw [perform]
  rcases hcreate : session.client.createTransaction actions with ⟨result, client⟩
  cases result with
  | error cause =>
    obtain rfl := Client.createTransaction_eq_error hcreate
    constructor
    case resolved =>
      intro slot transaction hslot
      exact h.resolved slot transaction ((join_getElem?_concat hslot).resolve_right nofun)
    case store => exact h.store
    case current => exact h.current
    case fixedStatus => exact h.fixedStatus
    case closed => exact h.closed
  | ok transaction =>
    obtain ⟨-, -, builder, rfl⟩ := Client.createTransaction_eq_ok hcreate
    constructor
    case resolved =>
      intro slot transaction' hslot
      rcases join_getElem?_concat hslot with hslot | heq
      · exact h.resolved slot transaction' hslot
      · cases heq
        obtain ⟨actions', hresolve⟩ := h.resolve_of_created hcreate
        exact ⟨_, rfl, actions', hresolve⟩
    case store => exact h.store
    case current => exact h.current
    case fixedStatus => exact h.fixedStatus
    case closed => exact h.closed

/-- A slot whose transaction is claimed keeps its steps. -/
theorem Sound.resolved_set (h : Sound snapshot session)
    (hslot : session.transaction? slot = some transaction) {claimed other : Transaction}
    (hother : (session.slots.set slot (some claimed))[slot']?.join = some other)
    (hsteps : claimed.steps = transaction.steps) :
    Resolved snapshot other.steps := by
  rcases join_getElem?_set hother with hother | heq
  · exact h.resolved slot' other hother
  · cases heq
    rw [hsteps]
    exact h.resolved slot transaction hslot

theorem Sound.ran (h : Sound snapshot session) (slot : Nat) (id : Option UInt32)
    (turns : Nat → List Nat) (cancelled : Cancellation)
    (hfits : ∀ transaction ∈ session.transaction? slot, transaction.hasRun = false →
      Fits snapshot transaction.steps session.client.state) :
    Sound snapshot (session.perform (.run slot id turns cancelled)).2 := by
  rw [perform]
  cases hslot : session.transaction? slot with
  | none => exact h
  | some transaction =>
    dsimp only
    cases hclaimed : transaction.hasRun with
    | true =>
      rw [Client.runTransaction_of_claimed hclaimed]
      exact ⟨h.store, h.current, h.fixedStatus, h.closed,
        fun _ _ hother => h.resolved_set hslot hother rfl⟩
    | false =>
      rw [Client.runTransaction_of_new h.store hclaimed, h.current]
      have hresolved := h.resolved slot transaction hslot
      exact ⟨h.store, h.current, hresolved.fixedStatus_run.trans h.fixedStatus,
        hresolved.closed_run h.closed (hfits transaction hslot hclaimed),
        fun _ _ hother => h.resolved_set hslot hother rfl⟩

/-! ## A run that comes too late -/

/-- Two requests to the sample client, both made before the one of slot `first` is run, and
then the one of slot `second`. -/
def interleaved (actions actions' : List Action) (first second : Nat) : Session ScriptedStore :=
  let made := (((Session.new Sample.client).perform (.create actions)).2.perform
    (.create actions')).2
  let ran := (made.perform (.run first none (fun _ => []) fun _ => false)).2
  (ran.perform (.run second none (fun _ => []) fun _ => false)).2

/-- The plan to install the application relies on the library, which is removed before the plan
is run.  So the application ends up without it. -/
theorem stale_run_not_closed :
    DependencyClosed Sample.snapshot Sample.store ∧
      let final := (interleaved [⟨.install, .user, Sample.named "app"⟩]
        [⟨.uninstall, .user, Sample.named "lib"⟩] 1 0).client.state
      final.installed? (Sample.named "app") .user = some true ∧
        final.installed? (Sample.named "lib") .user = none ∧
          ¬ DependencyClosed Sample.snapshot final := by
  decide +kernel

/-! ## Sessions whose runs come in time -/

/-- **Sessions in which every run comes in time**: its plan fits the store it starts from.
Running a transaction again is free. -/
inductive Timely (start : Session ScriptedStore) : Session ScriptedStore → Prop
  | initially : Timely start start
  | created {session : Session ScriptedStore} (actions : List Action) :
      Timely start session → Timely start (session.perform (.create actions)).2
  | ran {session : Session ScriptedStore} (slot : Nat) (id : Option UInt32)
      (turns : Nat → List Nat) (cancelled : Cancellation) :
      Timely start session →
      (∀ transaction ∈ session.transaction? slot, transaction.hasRun = false →
        Fits session.client.snapshot transaction.steps session.client.state) →
      Timely start (session.perform (.run slot id turns cancelled)).2

theorem sound_of_timely {start : Session ScriptedStore} (hstart : Sound snapshot start)
    (h : Timely start session) : Sound snapshot session := by
  induction h with
  | initially => exact hstart
  | created actions _ ih => exact ih.created actions
  | ran slot id turns cancelled _ hfits ih =>
    rw [ih.current] at hfits
    exact ih.ran slot id turns cancelled hfits

/-- **A session that keeps dependencies installed**, and what this takes. -/
structure Consistent (snapshot : Snapshot) (session : Session ScriptedStore) : Prop where
  closed : DependencyClosed snapshot session.client.state
  /-- A transaction that has just been made fits the store. -/
  made : ∀ actions transaction client,
    session.client.createTransaction actions = (.ok transaction, client) →
      Fits snapshot transaction.steps session.client.state
  /-- A run that succeeds leaves the store closed only if its plan has fitted. -/
  needed : ∀ slot transaction, session.transaction? slot = some transaction →
    transaction.hasRun = false → ∀ id turns cancelled,
      let applied := (session.client.runTransaction transaction id turns cancelled).1
      applied.outcome = .done () →
        (DependencyClosed snapshot applied.state ↔
          Fits snapshot transaction.steps session.client.state)

/-- **Sessions keep dependencies installed** as long as every run comes in time, in whatever
order transactions are made and run, and whatever fails or is cancelled. -/
theorem consistent_of_timely (client : Client ScriptedStore)
    (hstore : client.store = ScriptedStore.store) (hfixed : client.state.fixedStatus = [])
    (hclosed : DependencyClosed client.snapshot client.state) (session : Session ScriptedStore)
    (h : Timely (Session.new client) session) : Consistent client.snapshot session := by
  have hsound := sound_of_timely (sound_new hstore hfixed hclosed) h
  constructor
  case closed => exact hsound.closed
  case made =>
    intro actions transaction client' hcreate
    obtain ⟨actions', hresolve⟩ := hsound.resolve_of_created hcreate
    exact fits_of_resolve hsound.fixedStatus hresolve
  case needed =>
    intro slot transaction hslot hnew id turns cancelled
    rw [Client.runTransaction_of_new hsound.store hnew, hsound.current]
    dsimp only
    intro hdone
    have hresolved := hsound.resolved slot transaction hslot
    exact ⟨hresolved.fits_of_closed_run hdone, hresolved.closed_run hsound.closed⟩

/-- The plan to install the application is run after the system's base has been removed, which
does not matter to it. -/
theorem sample_consistent :
    DependencyClosed Sample.client.snapshot Sample.client.state ∧
      Consistent Sample.snapshot (interleaved [⟨.install, .user, Sample.named "app"⟩]
        [⟨.uninstall, .system, Sample.named "base"⟩] 1 0) := by
  have hclosed : DependencyClosed Sample.client.snapshot Sample.client.state := by decide +kernel
  have hmade := (@Timely.initially (Session.new Sample.client)).created
    [⟨.install, .user, Sample.named "app"⟩] |>.created [⟨.uninstall, .system, Sample.named "base"⟩]
  have hran := (hmade.ran 1 none (fun _ => []) (fun _ => false) (by decide +kernel)).ran 0 none
    (fun _ => []) (fun _ => false) (by decide +kernel)
  exact ⟨hclosed, consistent_of_timely Sample.client rfl rfl hclosed _ hran⟩

end Session

end Provision
