import Mathlib.Data.List.Perm.Basic
import Provision.Proofs.Execution.Account
import Provision.Proofs.Execution.Schedule
import Provision.Proofs.Execution.Together

/-!
# The account of a run in chunks

A run that takes several steps at a time goes through its schedule round by round (`Round`): the
steps of a chunk run together until each has ended, and the next chunk begins only if all of them
have been applied.  What the run tells in the end is read off its rounds (`Reckoning`).  It has
failed as the first failing step of the last round has, in the order of the plan, and a
cancelled run tells how many steps have been applied.

This goes for every list of steps, for every store and every order in which its calls are made,
and for every moment of cancellation (`reckoning_of_run`).
-/
namespace Provision.Execution

variable {σ : Type} {id : UInt32} {limit : Nat} {steps : List Step} {cancelled : Cancellation}
  {events more : List Event} {calls moreCalls : List Call} {cause : TransactionError}

/-! ## Failing steps -/

namespace Part

variable {part : Part} {parts : List Part}

/-- **What a failing step is reported as.**  A crash is reported as a failure of the store. -/
inductive Blamed (part : Part) : TransactionError → Prop
  | failed {cause : TransactionError} (h : part.stage = .ended (.failed cause)) : Blamed part cause
  | installCrashed (h : part.stage = .ended .crashed) (hkind : part.step.kind = .install) :
      Blamed part (.install part.step.key (.store "step panicked"))
  | removeCrashed (h : part.stage = .ended .crashed) (hkind : part.step.kind = .uninstall) :
      Blamed part (.uninstall part.step.key (.store "step panicked"))

/-- The failure of a step that has ended. -/
def failure? (part : Part) : Option TransactionError :=
  match part.stage with
  | .ended outcome => Execution.failure? part.step outcome
  | _ => none

theorem applied_of_failure?_eq_none (h : part.failure? = none)
    (hended : ∃ outcome, part.stage = .ended outcome) : part.Applied := by
  obtain ⟨outcome, hstage⟩ := hended
  rw [failure?, hstage] at h
  cases outcome with
  | done value => exact hstage
  | failed cause => cases h
  | crashed => cases h

theorem blamed_of_failure?_eq_some (h : part.failure? = some cause) : part.Blamed cause := by
  rw [failure?] at h
  split at h
  · rename_i outcome hstage
    cases outcome with
    | done value => cases h
    | failed cause' =>
      cases h
      exact .failed hstage
    | crashed =>
      cases hkind : part.step.kind with
      | install =>
        simp only [Execution.failure?, crashError, hkind, Option.some.injEq] at h
        exact h ▸ .installCrashed hstage hkind
      | uninstall =>
        simp only [Execution.failure?, crashError, hkind, Option.some.injEq] at h
        exact h ▸ .removeCrashed hstage hkind
  · cases h

theorem Blamed.ne_cancelled (h : part.Blamed cause) (hsound : part.Sound id) (n : Nat) :
    cause ≠ .cancelled n := by
  rintro rfl
  cases h with
  | failed hstage => exact hsound.ne_cancelled n hstage

/-- A chunk fails with the first failure of its steps. -/
theorem findSome?_failure {outcomes : List (Outcome TransactionError Unit)}
    (h : outcomes.map Stage.ended = parts.map Part.stage) :
    ((parts.map Part.step).zip outcomes).findSome?
        (fun (step, outcome) => Execution.failure? step outcome) =
      parts.findSome? failure? := by
  induction parts generalizing outcomes with
  | nil => rfl
  | cons part rest ih =>
    cases outcomes with
    | nil => cases h
    | cons outcome outcomes =>
      obtain ⟨hfirst, hrest⟩ := List.cons.inj h
      rw [List.map_cons, List.zip_cons_cons, List.findSome?_cons, List.findSome?_cons, ih hrest,
        failure?, ← hfirst]

end Part

/-! ## Rounds -/

/-- A chunk that has been run, with the events and calls of all its steps. -/
structure Round where
  parts : List Part
  events : List Event
  calls : List Call

namespace Round

/-- The steps at their places. -/
def placed (round : Round) : List Placed := round.parts.map Part.placed

/-- The steps ran together until each had ended. -/
structure Sound (id : UInt32) (round : Round) : Prop where
  together : Together id round.parts round.events round.calls
  ended : ∀ part ∈ round.parts, ∃ outcome, part.stage = .ended outcome

/-- Whether all steps have been applied. -/
def Applied (round : Round) : Prop := ∀ part ∈ round.parts, part.Applied

/-- The failure of the first step that has failed. -/
def failure? (round : Round) : Option TransactionError := round.parts.findSome? Part.failure?

theorem Sound.applied {round : Round} (h : round.Sound id) (hnone : round.failure? = none) :
    round.Applied := fun part hpart =>
  Part.applied_of_failure?_eq_none (List.findSome?_eq_none_iff.mp hnone part hpart)
    (h.ended part hpart)

/-- **The blame is on the first step that has failed**, in the order of the plan. -/
theorem Sound.exists_blamed {round : Round} (h : round.Sound id)
    (hround : round.placed ∈ placedChunks limit steps) (hsome : round.failure? = some cause) :
    ∃ part ∈ round.parts, part.Blamed cause ∧
      ∀ other ∈ round.parts, ¬ other.Applied → part.place ≤ other.place := by
  obtain ⟨front, part, back, hparts, hpart, hfront⟩ := List.findSome?_eq_some_iff.mp hsome
  refine ⟨part, by simp [hparts], Part.blamed_of_failure?_eq_some hpart, ?_⟩
  intro other hother hnot
  have hascending := pairwise_places_of_mem_placedChunks hround
  rw [placed, places, List.map_map, List.pairwise_map, hparts, List.pairwise_append,
    List.pairwise_cons] at hascending
  -- What comes before the part has been applied, and what comes after it has a later place.
  rw [hparts, List.mem_append, List.mem_cons] at hother
  rcases hother with hbefore | rfl | hafter
  · refine absurd (Part.applied_of_failure?_eq_none (hfront other hbefore) ?_) hnot
    exact h.ended other (by simp [hparts, hbefore])
  · exact Nat.le_refl _
  · exact Nat.le_of_lt (hascending.2.1.1 other hafter)

/-- **Running a chunk is a round.** -/
theorem exists_of_runChunk (c : Context σ) (turns : List Nat) (chunk : List Placed)
    (s : Logged σ) :
    ∃ (outcomes : List (Outcome TransactionError Unit)) (round : Round) (state : σ),
      runChunk c.logged turns (chunk.map Prod.fst) s =
        (outcomes, round.events, ⟨state, s.calls ++ round.calls⟩) ∧
      round.placed = chunk ∧ round.Sound c.id ∧
      ((chunk.map Prod.fst).zip outcomes).findSome?
        (fun (step, outcome) => Execution.failure? step outcome) = round.failure? := by
  obtain ⟨outcomes, parts, events, calls, state, hrun, rfl, hended, htogether⟩ :=
    runChunk_together c turns chunk s
  refine ⟨outcomes, ⟨parts, events, calls⟩, state, hrun, rfl, ⟨htogether, ?_⟩, ?_⟩
  · intro part hpart
    have hstage : part.stage ∈ outcomes.map Stage.ended := hended ▸ List.mem_map_of_mem hpart
    obtain ⟨outcome, -, hstage⟩ := List.mem_map.mp hstage
    exact ⟨outcome, hstage.symm⟩
  · have hsteps : (parts.map Part.placed).map Prod.fst = parts.map Part.step := by
      rw [List.map_map]
      rfl
    rw [hsteps]
    exact Part.findSome?_failure hended

/-- The steps that have been applied in several rounds. -/
def appliedParts (rounds : List Round) : List Part :=
  (rounds.flatMap Round.parts).filter fun part => part.Applied

theorem appliedParts_eq {rounds : List Round} (h : ∀ round ∈ rounds, round.Applied) :
    appliedParts rounds = rounds.flatMap Round.parts := by
  refine List.filter_eq_self.mpr fun part hpart => ?_
  obtain ⟨round, hround, hpart⟩ := List.mem_flatMap.mp hpart
  exact decide_eq_true (h round hround part hpart)

/-- As long as there are chunks left, there are steps left. -/
theorem length_flatMap_parts_lt {rounds : List Round} {chunk : List Placed}
    {rest : List (List Placed)}
    (h : rounds.map placed ++ chunk :: rest = placedChunks limit steps) :
    (rounds.flatMap Round.parts).length < steps.length := by
  have hmem : chunk ∈ placedChunks limit steps :=
    h ▸ List.mem_append_right _ (List.mem_cons_self ..)
  have hpos := List.length_pos_iff.mpr (ne_nil_of_mem_placedChunks hmem)
  have hall := (perm_flatten_placedChunks limit steps).length_eq
  have hparts : (rounds.map placed).flatten.length = (rounds.flatMap Round.parts).length := by
    simp [placed, List.length_flatMap, List.length_flatten, Function.comp_def]
  rw [← h, List.length_zipIdx, List.flatten_append, List.flatten_cons, List.length_append,
    List.length_append, hparts] at hall
  omega

end Round

/-- **Rounds of a schedule that have been run in order.** -/
structure Begun (id : UInt32) (schedule : List (List Placed)) (cancelled : Cancellation)
    (rounds : List Round) (events : List Event) (calls : List Call) : Prop where
  /-- They are the first ones of the schedule. -/
  begun : rounds.map Round.placed <+: schedule
  sound : ∀ round ∈ rounds, round.Sound id
  /-- Before each of them it was looked up that the run was not cancelled, and the steps of the
  earlier ones had been applied. -/
  starts : ∀ earlier round later, rounds = earlier ++ round :: later →
    cancelled (earlier.flatMap Round.events) = false ∧ ∀ round ∈ earlier, round.Applied
  /-- One round's events come after another's, and there are no others. -/
  events_eq : events = rounds.flatMap Round.events
  /-- The same goes for calls. -/
  calls_eq : calls = rounds.flatMap Round.calls

namespace Begun

variable {schedule : List (List Placed)} {rounds : List Round} {round : Round}

theorem nil (id : UInt32) (schedule : List (List Placed)) (cancelled : Cancellation) :
    Begun id schedule cancelled [] [] [] where
  begun := List.nil_prefix
  sound _ h := absurd h List.not_mem_nil
  starts earlier _ _ h := absurd h.symm (by simp)
  events_eq := rfl
  calls_eq := rfl

/-- **The next round is run.** -/
theorem next (h : Begun id schedule cancelled rounds events calls)
    (happlied : ∀ round ∈ rounds, round.Applied) (hgo : cancelled events = false)
    (hround : rounds.map Round.placed ++ [round.placed] <+: schedule) (hsound : round.Sound id) :
    Begun id schedule cancelled (rounds ++ [round]) (events ++ round.events)
      (calls ++ round.calls) := by
  constructor
  case begun => rwa [List.map_append]
  case sound => exact List.forall_mem_append.mpr ⟨h.sound, List.forall_mem_singleton.mpr hsound⟩
  case starts =>
    refine forall_front_concat h.starts ⟨?_, happlied⟩
    rwa [← h.events_eq]
  case events_eq => rw [List.flatMap_append, List.flatMap_singleton, h.events_eq]
  case calls_eq => rw [List.flatMap_append, List.flatMap_singleton, h.calls_eq]

/-- **The steps that have been applied are reported**, each once. -/
theorem reports_perm (h : Begun id schedule cancelled rounds events calls) :
    (reports events).Perm ((Round.appliedParts rounds).map fun part => report id part.step) := by
  rw [h.events_eq, reports, List.filter_flatMap, Round.appliedParts, List.filter_flatMap,
    List.map_flatMap]
  exact List.Perm.flatMap_left rounds fun round hround =>
    (h.sound round hround).together.reports_perm

end Begun

/-- **The account of a run in chunks.** -/
structure Reckoning (id : UInt32) (limit : Nat) (steps : List Step) (cancelled : Cancellation)
    (rounds : List Round) (outcome : Outcome TransactionError Unit) (events : List Event)
    (calls : List Call) : Prop where
  begun : Begun id (placedChunks limit steps) cancelled rounds events calls
  /-- Each applied step is reported once, and no other step is. -/
  reported : (reports events).Perm
    ((Round.appliedParts rounds).map fun part => report id part.step)
  /-- A run returns, even if steps crash. -/
  returns : outcome ≠ .crashed
  /-- A run succeeds with all steps applied. -/
  done : outcome = .done () →
    rounds.map Round.placed = placedChunks limit steps ∧ ∀ round ∈ rounds, round.Applied
  /-- A cancelled run tells how many steps have been applied, and has left none behind in the
  rounds so far. -/
  cancelled : ∀ n, outcome = .failed (.cancelled n) →
    n = (Round.appliedParts rounds).length ∧ n < steps.length ∧
      (∀ round ∈ rounds, round.Applied) ∧ cancelled events = true
  /-- Otherwise a run fails as the first failing step of its last round does. -/
  failed : ∀ cause, outcome = .failed cause → (∀ n, cause ≠ .cancelled n) →
    ∃ earlier round, rounds = earlier ++ [round] ∧ ∃ part ∈ round.parts, part.Blamed cause ∧
      ∀ other ∈ round.parts, ¬ other.Applied → part.place ≤ other.place

namespace Reckoning

variable {rounds : List Round} {round : Round}

theorem of_complete (h : Begun id (placedChunks limit steps) cancelled rounds events calls)
    (happlied : ∀ round ∈ rounds, round.Applied)
    (hall : rounds.map Round.placed = placedChunks limit steps) :
    Reckoning id limit steps cancelled rounds (.done ()) events calls where
  begun := h
  reported := h.reports_perm
  returns := by simp
  done _ := ⟨hall, happlied⟩
  cancelled _ heq := by cases heq
  failed _ heq := by cases heq

theorem of_cancelled (h : Begun id (placedChunks limit steps) cancelled rounds events calls)
    (happlied : ∀ round ∈ rounds, round.Applied) {chunk : List Placed}
    {rest : List (List Placed)}
    (hrest : rounds.map Round.placed ++ chunk :: rest = placedChunks limit steps)
    (hcancelled : cancelled events = true) :
    Reckoning id limit steps cancelled rounds
      (.failed (.cancelled (Round.appliedParts rounds).length)) events calls where
  begun := h
  reported := h.reports_perm
  returns := by simp
  done heq := by cases heq
  cancelled n heq := by
    cases heq
    refine ⟨rfl, ?_, happlied, hcancelled⟩
    rw [Round.appliedParts_eq happlied]
    exact Round.length_flatMap_parts_lt hrest
  failed cause heq hne := by
    cases heq
    exact absurd rfl (hne _)

theorem of_failed
    (h : Begun id (placedChunks limit steps) cancelled (rounds ++ [round]) events calls)
    (hsome : round.failure? = some cause) :
    Reckoning id limit steps cancelled (rounds ++ [round]) (.failed cause) events calls := by
  have hmem : round ∈ rounds ++ [round] := by simp
  have hsound := h.sound round hmem
  obtain ⟨part, hpart, hblamed, hfirst⟩ :=
    hsound.exists_blamed (h.begun.subset (List.mem_map_of_mem hmem)) hsome
  exact
    { begun := h
      reported := h.reports_perm
      returns := by simp
      done := fun heq => by cases heq
      cancelled := fun n heq => by
        cases heq
        exact absurd rfl (hblamed.ne_cancelled (hsound.together.sound part hpart) n)
      failed := fun cause' heq _ => by
        cases heq
        exact ⟨rounds, round, rfl, part, hpart, hblamed, hfirst⟩ }

end Reckoning

/-- **Chunks that are run in order** carry the account on to the end of the run. -/
theorem runChunks_reckoning_from (c : Context σ) (cancelled : Cancellation)
    (rest : List (List Placed)) : ∀ (rounds : List Round) (turns : Nat → List Nat)
      (events : List Event) (s : Logged σ),
      Begun c.id (placedChunks limit steps) cancelled rounds events s.calls →
      (∀ round ∈ rounds, round.Applied) →
      rounds.map Round.placed ++ rest = placedChunks limit steps →
      ∃ rounds', Reckoning c.id limit steps cancelled rounds'
        (runChunks c.logged cancelled turns (Round.appliedParts rounds).length events
          (rest.map (List.map Prod.fst)) s).outcome
        (runChunks c.logged cancelled turns (Round.appliedParts rounds).length events
          (rest.map (List.map Prod.fst)) s).events
        (runChunks c.logged cancelled turns (Round.appliedParts rounds).length events
          (rest.map (List.map Prod.fst)) s).state.calls := by
  induction rest with
  | nil =>
    intro rounds turns events s h happlied hrest
    rw [List.append_nil] at hrest
    exact ⟨rounds, .of_complete h happlied hrest⟩
  | cons chunk rest ih =>
    intro rounds turns events s h happlied hrest
    rw [List.map_cons, runChunks]
    split
    · rename_i hcancelled
      exact ⟨rounds, .of_cancelled h happlied hrest hcancelled⟩
    · rename_i hgo
      obtain ⟨outcomes, round, state, hrun, rfl, hsound, hfailure⟩ :=
        Round.exists_of_runChunk c (turns 0) chunk s
      have hbegun : (rounds ++ [round]).map Round.placed ++ rest = placedChunks limit steps := by
        rw [← hrest, List.map_append, List.append_assoc]
        rfl
      have hnext := h.next happlied (by simpa using hgo)
        ⟨rest, by rwa [List.map_append] at hbegun⟩ hsound
      rw [hrun]
      dsimp only
      rw [hfailure]
      cases hfound : round.failure? with
      | some cause => exact ⟨_, .of_failed hnext hfound⟩
      | none =>
        have happlied' : ∀ r ∈ rounds ++ [round], r.Applied :=
          List.forall_mem_append.mpr
            ⟨happlied, List.forall_mem_singleton.mpr (hsound.applied hfound)⟩
        have hcompleted : (Round.appliedParts (rounds ++ [round])).length =
            (Round.appliedParts rounds).length + (round.placed.map Prod.fst).length := by
          rw [Round.appliedParts_eq happlied', Round.appliedParts_eq happlied, Round.placed,
            List.flatMap_append, List.flatMap_singleton, List.length_append, List.length_map,
            List.length_map]
        have hfinal := ih _ (fun n => turns (n + 1)) _ ⟨state, _⟩ hnext happlied' hbegun
        rwa [hcompleted] at hfinal

/-- **The account of a run that takes several steps at a time.**  The steps may require any
numbers.  Their chunks make a schedule, and the run leaves an account of its rounds, whatever
the store does, in whatever order its calls are made and whenever the run is cancelled. -/
theorem reckoning_of_run (c : Context σ) (mode : Mode) (hlimit : 2 ≤ mode.limit)
    (cancelled : Cancellation) (id : UInt32) (steps : List Step) (start : σ) :
    Schedules mode.limit steps (placedChunks mode.limit steps) ∧
      ∃ rounds, Reckoning c.id mode.limit steps cancelled rounds
        (run c mode cancelled (.ofSteps id steps) start).1.outcome
        (run c mode cancelled (.ofSteps id steps) start).1.events
        (callsOf c mode cancelled (.ofSteps id steps) start) := by
  refine ⟨schedules_placedChunks (Nat.lt_of_lt_of_le Nat.zero_lt_two hlimit) steps, ?_⟩
  have hforget := forget_run c ⟨start, []⟩ mode cancelled (.ofSteps id steps)
  have hlogged : (run c.logged mode cancelled (.ofSteps id steps) ⟨start, []⟩).1 =
      runChunks c.logged cancelled mode.turns 0 []
        ((placedChunks mode.limit steps).map (List.map Prod.fst)) ⟨start, []⟩ := by
    simp only [run, Transaction.ofSteps, Bool.false_eq_true, if_false, runSteps, chunks_eq_map,
      if_pos (show mode.limit > 1 from hlimit)]
  rw [callsOf, ← hforget, Applied.forget, hlogged]
  exact runChunks_reckoning_from c cancelled (placedChunks mode.limit steps) [] mode.turns []
    ⟨start, []⟩ (.nil ..) (fun _ h => absurd h List.not_mem_nil) rfl

namespace Sample

open Plan.Sample (named)

/-- The numbers are a step's own, those of later steps, some twice, some of no step at all. -/
def raw : List Step :=
  [⟨named "base", .user, .install, ⟨0, "2"⟩, false, 0, [0, 3]⟩,
    ⟨named "app", .user, .install, ⟨0, "2"⟩, true, 1, [0, 0, 9]⟩,
    ⟨named "tool", .system, .uninstall, ⟨0, "2"⟩, false, 2, [5, 2]⟩,
    ⟨named "lib", .user, .uninstall, ⟨0, "2"⟩, true, 3, [2, 3]⟩]

/-- Two at once, the second one first. -/
def pairs : Mode := ⟨2, fun _ => [1, 0]⟩

/-- Removing the tool crashes. -/
def breaking : ScriptedStore :=
  { Plan.Sample.store with crashing := [named "tool"] }

def broken : Applied ScriptedStore Unit :=
  (run context pairs impatient (.ofSteps 7 raw) breaking).1

end Sample

/-- The base is installed while removing the tool crashes, and nothing else is tried. -/
theorem sample_reckoning : 2 ≤ Sample.pairs.limit ∧
    (placedChunks 2 Sample.raw).map places = [[0, 2], [1, 3]] ∧
    Sample.broken.outcome =
      .failed (.uninstall (Plan.Sample.named "tool") (.store "step panicked")) ∧
    Schedules 2 Sample.raw (placedChunks 2 Sample.raw) ∧
    ∃ rounds, Reckoning 7 2 Sample.raw Sample.impatient rounds Sample.broken.outcome
      Sample.broken.events
      (callsOf Sample.context Sample.pairs Sample.impatient (.ofSteps 7 Sample.raw)
        Sample.breaking) :=
  ⟨by decide, by decide +kernel, by decide +kernel,
    reckoning_of_run Sample.context Sample.pairs (by decide) Sample.impatient 7 Sample.raw
      Sample.breaking⟩

end Provision.Execution
