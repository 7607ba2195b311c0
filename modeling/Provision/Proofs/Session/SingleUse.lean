import Provision.Proofs.Session

/-!
# A transaction is run once

A run claims its transaction before anything else and never gives it back.  So a transaction
counts as run from its first run on, however that run ends, and whoever runs it again is
refused and finds everything as it was.

`perform` either keeps the transaction of a slot or claims it (`transaction?_perform`), and
puts none into a slot but new ones (`new_of_perform`).  What a whole session has done to a
slot follows by induction over its requests (`singleUse_of_after`).
-/
namespace Provision
open Execution

namespace Transaction

/-- The transaction once it has been run. -/
def claimed (t : Transaction) : Transaction :=
  { t with hasRun := true }

theorem claimed_of_hasRun {t : Transaction} (h : t.hasRun = true) : t.claimed = t := by
  rw [claimed, ← h]

end Transaction

namespace Client

variable {σ : Type} (client : Client σ) (transaction : Transaction) (id : Option UInt32)
  (turns : Nat → List Nat) (cancelled : Cancellation)

/-- **A run claims its transaction**, however it ends. -/
theorem transaction_run :
    (client.runTransaction transaction id turns cancelled).2.1 = transaction.claimed := by
  cases hclaimed : transaction.hasRun with
  | true =>
    rw [runTransaction_of_claimed hclaimed]
    exact (Transaction.claimed_of_hasRun hclaimed).symm
  | false =>
    simp only [runTransaction, run, hclaimed]
    rfl

end Client

namespace Session

variable {σ : Type} {slot : Nat} {transaction : Transaction}

/-- Whether a request runs the transaction of a slot. -/
def Request.runs (slot : Nat) : Request σ → Bool
  | .run slot' .. => slot' = slot
  | _ => false

/-- The session once some requests have been answered. -/
def after (s : Session σ) (requests : List (Request σ)) : Session σ :=
  (s.performAll requests).2

theorem after_append (s : Session σ) (requests more : List (Request σ)) :
    s.after (requests ++ more) = (s.after requests).after more := by
  induction requests generalizing s with
  | nil => rfl
  | cons request rest ih => exact ih _

theorem after_concat (s : Session σ) (requests : List (Request σ)) (request : Request σ) :
    s.after (requests ++ [request]) = ((s.after requests).perform request).2 :=
  after_append s requests [request]

/-! ## One request -/

theorem getElem?_of_transaction? {s : Session σ} (h : s.transaction? slot = some transaction) :
    s.slots[slot]? = some (some transaction) :=
  Option.join_eq_some_iff.mp h

/-- What a run answers, and what it leaves in its slot. -/
theorem perform_run {s : Session σ} (h : s.transaction? slot = some transaction)
    (id : Option UInt32) (turns : Nat → List Nat) (cancelled : Cancellation) :
    s.perform (.run slot id turns cancelled) =
      let ran := s.client.runTransaction transaction id turns cancelled
      (.ran ran.1.outcome ran.1.events transaction.claimed,
        { s with client := ran.2.2, slots := s.slots.set slot (some transaction.claimed) }) := by
  rw [perform, h]
  simp only [← Client.transaction_run s.client transaction id turns cancelled]

/-- **A request keeps the transactions there are**, and claims the one that it runs. -/
theorem transaction?_perform {s : Session σ} (h : s.transaction? slot = some transaction)
    (request : Request σ) : (s.perform request).2.transaction? slot =
      some (if request.runs slot then transaction.claimed else transaction) := by
  have hslot := getElem?_of_transaction? h
  have hlt : slot < s.slots.length := (List.getElem?_eq_some_iff.mp hslot).1
  have hconcat (o : Option Transaction) : (s.slots ++ [o])[slot]?.join = some transaction := by
    rw [List.getElem?_append_left hlt]
    exact h
  cases request with
  | create actions =>
    rw [perform]
    rcases s.client.createTransaction actions with ⟨_ | _, _⟩ <;> exact hconcat _
  | build id steps => cases id <;> exact hconcat _
  | run slot' id turns cancelled =>
    cases hslot' : s.transaction? slot' with
    | none =>
      have hne : slot' ≠ slot := fun heq => by simp [heq, h] at hslot'
      rw [perform, hslot']
      simpa [Request.runs, hne] using h
    | some other =>
      rw [perform_run hslot']
      by_cases heq : slot' = slot
      · subst heq
        obtain rfl : other = transaction := Option.some.inj (hslot'.symm.trans h)
        simp [transaction?, Request.runs, List.getElem?_set_self hlt]
      · simpa [transaction?, Request.runs, heq, List.getElem?_set_ne heq] using h
  | refresh repositories => exact h
  | download key target => exact h
  | alter change => exact h

/-- **Only new transactions come into a slot**, and not by running it. -/
theorem new_of_perform {s : Session σ} (hempty : s.transaction? slot = none)
    {request : Request σ} (h : (s.perform request).2.transaction? slot = some transaction) :
    transaction.hasRun = false ∧ request.runs slot = false := by
  have hconcat {o : Option Transaction} (ho : (s.slots ++ [o])[slot]?.join = some transaction) :
      o = some transaction :=
    (join_getElem?_concat ho).resolve_left fun hold => nomatch hempty.symm.trans hold
  cases request with
  | create actions =>
    rw [perform] at h
    cases hcreate : s.client.createTransaction actions with
    | mk result client =>
      rw [hcreate] at h
      cases result with
      | error cause => cases hconcat h
      | ok made =>
        cases hconcat h
        exact ⟨(Client.createTransaction_eq_ok hcreate).2.1, rfl⟩
  | build id steps => cases id <;> (cases hconcat h; exact ⟨rfl, rfl⟩)
  | run slot' id turns cancelled =>
    cases hslot' : s.transaction? slot' with
    | none =>
      rw [perform, hslot', hempty] at h
      cases h
    | some other =>
      have hne : slot' ≠ slot := fun heq => by simp [← heq, hslot'] at hempty
      rw [perform_run hslot', transaction?, List.getElem?_set_ne hne, ← transaction?, hempty] at h
      cases h
  | refresh repositories => cases hempty.symm.trans h
  | download key target => cases hempty.symm.trans h
  | alter change => cases hempty.symm.trans h

/-! ## Whole sessions -/

/-- **A transaction lasts**: it keeps its id and its steps, and once it counts as run it always
does. -/
theorem lasts_after {s : Session σ} (h : s.transaction? slot = some transaction)
    (requests : List (Request σ)) : ∃ later, (s.after requests).transaction? slot = some later ∧
      (later = transaction ∨ later = transaction.claimed) := by
  induction requests generalizing s transaction with
  | nil => exact ⟨transaction, h, Or.inl rfl⟩
  | cons request rest ih =>
    obtain ⟨later, hlater, hkept⟩ := ih (transaction?_perform h request)
    refine ⟨later, hlater, ?_⟩
    split at hkept
    · exact Or.inr (hkept.elim id id)
    · exact hkept

/-- One of some requests runs the transaction that stands in a slot when it is made. -/
def RunAmong (start : Session σ) (requests : List (Request σ)) (slot : Nat) : Prop :=
  ∃ before request rest, requests = before ++ request :: rest ∧ request.runs slot = true ∧
    ((start.after before).transaction? slot).isSome = true

theorem runAmong_concat_iff {start : Session σ} {requests : List (Request σ)}
    {request : Request σ} : RunAmong start (requests ++ [request]) slot ↔
      RunAmong start requests slot ∨ request.runs slot = true ∧
        ((start.after requests).transaction? slot).isSome = true := by
  constructor
  · rintro ⟨before, r, rest, heq, hruns, hsome⟩
    rcases List.eq_nil_or_concat rest with rfl | ⟨rest, last, rfl⟩
    · obtain ⟨rfl, hlast⟩ := List.append_inj' heq rfl
      cases hlast
      exact Or.inr ⟨hruns, hsome⟩
    · rw [List.concat_eq_append, ← List.cons_append, ← List.append_assoc] at heq
      exact Or.inl ⟨before, r, rest, (List.append_inj' heq rfl).1, hruns, hsome⟩
  · rintro (⟨before, r, rest, rfl, hruns, hsome⟩ | ⟨hruns, hsome⟩)
    · exact ⟨before, r, rest ++ [request], by simp, hruns, hsome⟩
    · exact ⟨requests, request, [], rfl, hruns, hsome⟩

/-- In a session that starts without transactions, the ones that count as run are those that a
run has been asked for. -/
theorem hasRun_after_iff {start : Session σ} (hstart : ∀ slot, start.transaction? slot = none)
    (requests : List (Request σ))
    (h : (start.after requests).transaction? slot = some transaction) :
    transaction.hasRun = true ↔ RunAmong start requests slot := by
  induction requests using List.reverseRecOn generalizing transaction with
  | nil => cases (hstart slot).symm.trans h
  | append_singleton requests request ih =>
    rw [after_concat] at h
    rw [runAmong_concat_iff]
    cases hbefore : (start.after requests).transaction? slot with
    | some earlier =>
      rw [transaction?_perform hbefore request] at h
      cases h
      rw [← ih hbefore]
      cases request.runs slot <;> simp [Transaction.claimed]
    | none =>
      obtain ⟨hnew, hruns⟩ := new_of_perform hbefore h
      simp only [hnew, hruns, Bool.false_eq_true, false_and, or_false, false_iff]
      -- A transaction that was run before would still stand in the slot.
      rintro ⟨before, r, rest, rfl, -, hsome⟩
      obtain ⟨earlier, hearlier⟩ := Option.isSome_iff_exists.mp hsome
      obtain ⟨later, hlater, -⟩ := lasts_after hearlier (r :: rest)
      rw [← after_append, hbefore] at hlater
      cases hlater

/-- **What single use means** for the transaction that stands in a slot of the session
`start.after requests`. -/
structure SingleUse (start : Session σ) (requests : List (Request σ)) (slot : Nat)
    (transaction : Transaction) : Prop where
  /-- It counts as run when a run of it has been asked for, whatever became of that run. -/
  hasRun_iff : transaction.hasRun = true ↔ RunAmong start requests slot
  /-- The first run goes about the steps, and leaves the transaction claimed. -/
  first : transaction.hasRun = false → ∀ id turns cancelled,
    let s := start.after requests
    let applied := runSteps ⟨s.client.store, s.client.snapshot, id.getD transaction.id⟩
      (s.client.mode turns) cancelled transaction.steps s.client.state
    s.perform (.run slot id turns cancelled) =
      (.ran applied.outcome applied.events transaction.claimed,
        { s with
          client := { s.client with state := applied.state }
          slots := s.slots.set slot (some transaction.claimed) })
  /-- Every later run is refused, reports nothing and leaves the whole session as it is. -/
  later : transaction.hasRun = true → ∀ id turns cancelled,
    (start.after requests).perform (.run slot id turns cancelled) =
      (.ran (.failed (.alreadyRun transaction.id)) [] transaction, start.after requests)
  /-- No other client gets further, with whatever store and settings. -/
  elsewhere : transaction.hasRun = true → ∀ (τ : Type) (client : Client τ) id turns cancelled,
    client.runTransaction transaction id turns cancelled =
      (⟨.failed (.alreadyRun transaction.id), [], client.state⟩, transaction, client)
  /-- The transaction stays in its slot with its id and its steps, and stays claimed. -/
  lasts : ∀ more, ∃ later, (start.after (requests ++ more)).transaction? slot = some later ∧
    later.id = transaction.id ∧ later.steps = transaction.steps ∧
      (transaction.hasRun = true → later.hasRun = true)

/-- **A transaction touches the store at most once.**  Only its first run applies steps; all
others find it claimed.  The store may be any, one that writes its calls down included. -/
theorem singleUse_of_after (client : Client σ) (requests : List (Request σ))
    (h : ((Session.new client).after requests).transaction? slot = some transaction) :
    SingleUse (Session.new client) requests slot transaction := by
  constructor
  case hasRun_iff => exact hasRun_after_iff (fun _ => rfl) requests h
  case first =>
    intro hnew id turns cancelled
    dsimp only
    rw [perform_run h]
    simp only [Client.runTransaction, run, hnew]
    rfl
  case later =>
    intro hclaimed id turns cancelled
    have hset := List.set_getElem_self (List.getElem?_eq_some_iff.mp (getElem?_of_transaction? h)).1
    rw [perform_run h, Client.runTransaction_of_claimed hclaimed,
      Transaction.claimed_of_hasRun hclaimed]
    rw [(List.getElem?_eq_some_iff.mp (getElem?_of_transaction? h)).2] at hset
    rw [hset]
  case elsewhere =>
    intro hclaimed τ client id turns cancelled
    exact Client.runTransaction_of_claimed hclaimed id turns cancelled
  case lasts =>
    intro more
    obtain ⟨later, hlater, hkept⟩ := lasts_after h more
    rw [← after_append] at hlater
    refine ⟨later, hlater, ?_⟩
    rcases hkept with rfl | rfl
    · exact ⟨rfl, rfl, id⟩
    · exact ⟨rfl, rfl, fun _ => rfl⟩

/-- A run that is cancelled before its first step uses its transaction up, too. -/
theorem sample_singleUse :
    let requests : List (Request ScriptedStore) :=
      [.create Plan.Sample.request, .run 0 none (fun _ => []) fun _ => true]
    ((Session.new Plan.Sample.client).after requests).transaction? 0 =
        some Plan.Sample.transaction.claimed ∧
      SingleUse (Session.new Plan.Sample.client) requests 0 Plan.Sample.transaction.claimed := by
  have h : ((Session.new Plan.Sample.client).after
      [.create Plan.Sample.request, .run 0 none (fun _ => []) fun _ => true]).transaction? 0 =
        some Plan.Sample.transaction.claimed := by decide +kernel
  exact ⟨h, singleUse_of_after _ _ h⟩

end Session

end Provision
