import Provision.Proofs.Distinct
import Provision.Proofs.Execution.Waves

/-!
# Running chunks

The calls of a chunk's steps may come in any order, but they are calls of steps whose
requirements are met: those are in chunks that have been run.  So however the turns are
taken, the run passes through states that `Underway` allows, and when the chunk is finished
every step of it has ended.

`runSteps_concludes` puts this together with the runs that take one step at a time: every
run of a list of steps ends in a state of `Underway`, as its outcome says.
-/
namespace Provision.Execution

variable {σ : Type} {c : Context σ} {steps : List Step} {start state : σ}
  {stages stages' stages'' : Nat → Stage} {events : List Event} {placed : List Placed}

/-! ## The steps of a chunk -/

/-- Whether nothing has happened but to steps of `placed`, which leave what has ended. -/
structure Advances (placed : List Placed) (stages stages' : Nat → Stage) : Prop where
  frame : ∀ i ∉ places placed, stages' i = stages i
  ended : ∀ i outcome, stages i = .ended outcome → stages' i = .ended outcome

namespace Advances

theorem refl (placed : List Placed) (stages : Nat → Stage) : Advances placed stages stages :=
  ⟨fun _ _ => rfl, fun _ _ h => h⟩

theorem trans (h : Advances placed stages stages') (h' : Advances placed stages' stages'') :
    Advances placed stages stages'' :=
  ⟨fun i hi => (h'.frame i hi).trans (h.frame i hi),
    fun i outcome hended => h'.ended i outcome (h.ended i outcome hended)⟩

theorem ready {i : Nat} {step : Step} (h : Advances placed stages stages')
    (hready : Ready stages i step) : Ready stages' i step :=
  fun j hj hlt => h.ended j _ (hready j hj hlt)

/-- A step that advances is one of them and stays as it is if it has ended. -/
theorem of_update {i : Nat} {stage : Stage} (hi : i ∈ places placed)
    (hended : ∀ outcome, stages i = .ended outcome → stage = .ended outcome) :
    Advances placed stages (Function.update stages i stage) := by
  constructor
  case frame =>
    intro j hj
    refine Function.update_of_ne ?_ ..
    rintro rfl
    exact hj hi
  case ended =>
    intro j outcome hj
    by_cases heq : j = i
    · subst heq
      rw [Function.update_self]
      exact hended outcome hj
    · rw [Function.update_of_ne heq]
      exact hj

end Advances

/-- The jobs of placed steps. -/
def jobsAt (stages : Nat → Stage) (placed : List Placed) : List Job :=
  placed.map fun p => ⟨p.1, stages p.2⟩

theorem jobsAt_congr (h : ∀ p ∈ placed, stages' p.2 = stages p.2) :
    jobsAt stages' placed = jobsAt stages placed :=
  List.map_congr_left fun p hp => by rw [h p hp]

theorem set_jobsAt {k : Nat} {p : Placed} (hnodup : (places placed).Nodup)
    (hk : placed[k]? = some p) (stage : Stage) : (jobsAt stages placed).set k ⟨p.1, stage⟩ =
      jobsAt (Function.update stages p.2 stage) placed := by
  refine List.ext_getElem? fun m => ?_
  simp only [jobsAt, List.getElem?_set, List.getElem?_map, List.length_map]
  by_cases hkm : k = m
  · subst hkm
    rw [if_pos rfl, if_pos (List.getElem?_eq_some_iff.mp hk).1, hk]
    simp
  · rw [if_neg hkm]
    refine Option.map_congr fun q hq => ?_
    have hne : q.2 ≠ p.2 := by
      intro heq
      have hq' : (places placed)[m]? = some q.2 := by rw [places, List.getElem?_map, hq]; rfl
      have hp' : (places placed)[k]? = some q.2 := by
        rw [places, List.getElem?_map, hk, heq]
        rfl
      exact hkm (eq_of_getElem?_of_nodup hnodup hp' hq')
    rw [Function.update_of_ne hne]

/-- A chunk of the given steps at their places, all of which may begin. -/
structure Startable (steps : List Step) (stages : Nat → Stage) (placed : List Placed) : Prop where
  place : ∀ p ∈ placed, steps[p.2]? = some p.1
  nodup : (places placed).Nodup
  ready : ∀ p ∈ placed, Ready stages p.2 p.1

theorem Startable.advances (h : Startable steps stages placed)
    (hadvances : Advances placed stages stages') : Startable steps stages' placed :=
  ⟨h.place, h.nodup, fun p hp => hadvances.ready (h.ready p hp)⟩

/-! ## Taking turns -/

theorem interleave_concat (c : Context σ) (turns : List Nat) (k : Nat) (jobs : List Job)
    (state : σ) : interleave c (turns ++ [k]) jobs state =
      let (jobs, events, state) := interleave c turns jobs state
      match jobs[k]? with
      | none => (jobs, events, state)
      | some job =>
        let (job, more, state) := job.advance c state
        (jobs.set k job, events ++ more, state) := by
  rw [interleave, List.foldl_append]
  rfl

/-- **Whatever turns are taken**, a chunk stays under way. -/
theorem interleave_underway (h : Underway c steps start stages events state)
    (hstartable : Startable steps stages placed) (turns : List Nat) :
    ∃ stages' more state', interleave c turns (jobsAt stages placed) state =
        (jobsAt stages' placed, more, state') ∧
      Underway c steps start stages' (events ++ more) state' ∧ Advances placed stages stages' := by
  induction turns using List.reverseRecOn with
  | nil => exact ⟨stages, [], state, rfl, by rwa [List.append_nil], .refl placed stages⟩
  | append_singleton turns k ih =>
    obtain ⟨stages', more, state', heq, hunderway, hadvances⟩ := ih
    rw [interleave_concat, heq]
    dsimp only
    cases hjob : (jobsAt stages' placed)[k]? with
    | none => exact ⟨stages', more, state', rfl, hunderway, hadvances⟩
    | some job =>
      rw [jobsAt, List.getElem?_map] at hjob
      obtain ⟨p, hp, rfl⟩ := Option.map_eq_some_iff.mp hjob
      have hmem := List.mem_of_getElem? hp
      have hstep := Job.step_advance c ⟨p.1, stages' p.2⟩ state'
      rcases hadvance : Job.advance c ⟨p.1, stages' p.2⟩ state' with ⟨⟨step, stage⟩, more', state''⟩
      rw [hadvance] at hstep
      obtain rfl : step = p.1 := hstep
      have hready := (hstartable.advances hadvances).ready p hmem
      refine ⟨Function.update stages' p.2 stage, more ++ more', state'', ?_, ?_, ?_⟩
      · rw [← set_jobsAt hstartable.nodup hp]
        dsimp only
        rw [hadvance]
      · rw [← List.append_assoc]
        exact hunderway.advanced (hstartable.place p hmem) hready hadvance
      · refine hadvances.trans (.of_update (List.mem_map_of_mem hmem) fun outcome hended => ?_)
        rw [hended, Job.advance_ended] at hadvance
        cases hadvance
        rfl

/-- **Concluding a chunk** ends all its steps. -/
theorem concludeAll_underway (h : Underway c steps start stages events state)
    (hstartable : Startable steps stages placed) :
    ∃ outcomes stages' more state', concludeAll c (jobsAt stages placed) state =
        (outcomes, more, state') ∧ Underway c steps start stages' (events ++ more) state' ∧
      Advances placed stages stages' ∧
        outcomes.map Stage.ended = placed.map fun p => stages' p.2 := by
  induction placed generalizing stages events state with
  | nil => exact ⟨[], stages, [], state, rfl, by rwa [List.append_nil], .refl [] stages, rfl⟩
  | cons p rest ih =>
    obtain ⟨hnotmem, hnodup⟩ := List.nodup_cons.mp hstartable.nodup
    have hmem : p.2 ∈ places (p :: rest) := List.mem_cons_self ..
    rcases hconcluded : Job.conclude c ⟨p.1, stages p.2⟩ state with ⟨outcome, more, state'⟩
    have hunderway := h.conclude (hstartable.place p (List.mem_cons_self ..))
      (hstartable.ready p (List.mem_cons_self ..)) hconcluded
    have hadvances : Advances (p :: rest) stages
        (Function.update stages p.2 (.ended outcome)) := by
      refine .of_update hmem fun outcome' hended => ?_
      rw [hended] at hconcluded
      cases hconcluded
      rfl
    have hstartable' := hstartable.advances hadvances
    obtain ⟨outcomes, stages', more', state'', heq, hunderway', hadvances', houtcomes⟩ :=
      ih hunderway ⟨fun q hq => hstartable'.place q (List.mem_cons_of_mem _ hq), hnodup,
        fun q hq => hstartable'.ready q (List.mem_cons_of_mem _ hq)⟩
    -- The steps of the rest have other places, so they have not changed.
    have hrest : ∀ q ∈ rest, Function.update stages p.2 (.ended outcome) q.2 = stages q.2 := by
      intro q hq
      refine Function.update_of_ne (fun hplace => hnotmem ?_) _ _
      rw [← hplace]
      exact List.mem_map_of_mem hq
    rw [jobsAt_congr hrest] at heq
    refine ⟨outcome :: outcomes, stages', more ++ more', state'', ?_, ?_, ?_, ?_⟩
    · rw [jobsAt, List.map_cons, concludeAll, hconcluded]
      dsimp only
      rw [← jobsAt, heq]
    · rw [← List.append_assoc]
      exact hunderway'
    · exact hadvances.trans ⟨fun i hi => hadvances'.frame i fun h => hi (List.mem_cons_of_mem _ h),
        hadvances'.ended⟩
    · rw [List.map_cons, List.map_cons, houtcomes, hadvances'.frame p.2 hnotmem,
        Function.update_self]

/-- **Running a chunk** ends all its steps. -/
theorem runChunk_underway (h : Underway c steps start stages events state)
    (hstartable : Startable steps stages placed) (hwaiting : ∀ p ∈ placed, stages p.2 = .waiting)
    (turns : List Nat) :
    ∃ outcomes stages' more state', runChunk c turns (placed.map Prod.fst) state =
        (outcomes, more, state') ∧ Underway c steps start stages' (events ++ more) state' ∧
      Advances placed stages stages' ∧
        outcomes.map Stage.ended = placed.map fun p => stages' p.2 := by
  have hjobs : (placed.map Prod.fst).map Job.ofStep = jobsAt stages placed := by
    rw [jobsAt, List.map_map]
    exact List.map_congr_left fun p hp => by rw [hwaiting p hp]; rfl
  obtain ⟨stages', more, state', heq, hunderway, hadvances⟩ :=
    interleave_underway h hstartable turns
  obtain ⟨outcomes, stages'', more', state'', heq', hunderway', hadvances', houtcomes⟩ :=
    concludeAll_underway hunderway (hstartable.advances hadvances)
  refine ⟨outcomes, stages'', more ++ more', state'', ?_, ?_, hadvances.trans hadvances', houtcomes⟩
  · rw [runChunk, hjobs, heq]
    dsimp only
    rw [heq']
  · rw [← List.append_assoc]
    exact hunderway'

/-- A chunk reports a failure if one of its steps has failed. -/
theorem findSome?_failure {outcomes : List (Outcome TransactionError Unit)}
    (h : outcomes.map Stage.ended = placed.map fun p => stages p.2)
    {found : Option TransactionError} (hfound : ((placed.map Prod.fst).zip outcomes).findSome?
      (fun (step, outcome) => failure? step outcome) = found) :
    (found = none → ∀ p ∈ placed, stages p.2 = .ended (.done ())) ∧
      (found ≠ none → ∃ p ∈ placed, ∃ outcome, outcome ≠ .done () ∧
        stages p.2 = .ended outcome) := by
  induction placed generalizing outcomes with
  | nil =>
    cases hfound
    simp
  | cons p rest ih =>
    cases outcomes with
    | nil => cases h
    | cons outcome outcomes =>
      obtain ⟨hfirst, hrest⟩ := List.cons.inj h
      rw [List.map_cons, List.zip_cons_cons, List.findSome?_cons] at hfound
      cases outcome with
      | done value =>
        obtain ⟨hnone, hsome⟩ := ih hrest hfound
        refine ⟨fun hf => List.forall_mem_cons.mpr ⟨hfirst.symm, hnone hf⟩, fun hf => ?_⟩
        obtain ⟨q, hq, hfailed⟩ := hsome hf
        exact ⟨q, List.mem_cons_of_mem _ hq, hfailed⟩
      | failed cause =>
        obtain rfl : some cause = found := hfound
        exact ⟨by simp, fun _ => ⟨p, List.mem_cons_self .., _, by simp, hfirst.symm⟩⟩
      | crashed =>
        obtain rfl : some (crashError p.1) = found := hfound
        exact ⟨by simp, fun _ => ⟨p, List.mem_cons_self .., _, by simp, hfirst.symm⟩⟩

theorem Advances.settled {outcomes : List (Outcome TransactionError Unit)}
    (h : Advances placed stages stages') (hsettled : Settled stages)
    (houtcomes : outcomes.map Stage.ended = placed.map fun p => stages' p.2) :
    Settled stages' := by
  intro i artifact
  by_cases hi : i ∈ places placed
  · obtain ⟨p, hp, rfl⟩ := List.mem_map.mp hi
    have hended : stages' p.2 ∈ outcomes.map Stage.ended := by
      rw [houtcomes]
      exact List.mem_map_of_mem hp
    obtain ⟨outcome, -, hended⟩ := List.mem_map.mp hended
    rw [← hended]
    exact Stage.noConfusion
  · rw [h.frame i hi]
    exact hsettled i artifact

/-! ## Whole runs -/

/-- **Between two chunks** the steps of the earlier ones have been applied and the others have
not begun. -/
structure Between (limit : Nat) (steps : List Step) (front rest : List (List Placed))
    (stages : Nat → Stage) : Prop where
  all : placedChunks limit steps = front ++ rest
  applied : ∀ p ∈ front.flatten, stages p.2 = .ended (.done ())
  waiting : ∀ p ∈ rest.flatten, stages p.2 = .waiting
  settled : Settled stages

namespace Between

variable {limit : Nat} {front rest : List (List Placed)} {chunk : List Placed}

theorem mem (h : Between limit steps front (chunk :: rest) stages) :
    chunk ∈ placedChunks limit steps := by
  rw [h.all]
  exact List.mem_append_right _ (List.mem_cons_self ..)

theorem place (h : Between limit steps front (chunk :: rest) stages) :
    ∀ p ∈ chunk, steps[p.2]? = some p.1 :=
  fun _ hp => mem_placedChunks.mp (List.mem_flatten_of_mem h.mem hp)

theorem nodup (h : Between limit steps front (chunk :: rest) stages) :
    (places chunk ++ places rest.flatten).Nodup := by
  have hnodup := nodup_places_placedChunks limit steps
  rw [h.all, List.flatten_append, List.flatten_cons, places, List.map_append, List.map_append]
    at hnodup
  exact (List.nodup_append.mp hnodup).2.1

/-- The next chunk may begin. -/
theorem startable (h : Between limit steps front (chunk :: rest) stages) :
    Startable steps stages chunk := by
  refine ⟨h.place, (List.nodup_append.mp h.nodup).1, fun p hp j hj hlt => ?_⟩
  obtain ⟨q, hq, rfl⟩ := List.mem_map.mp (mem_earlier_chunk h.all hp hj hlt)
  exact h.applied q hq

/-- The next chunk has been applied. -/
theorem next (h : Between limit steps front (chunk :: rest) stages)
    (hadvances : Advances chunk stages stages') (hsettled : Settled stages')
    (happlied : ∀ p ∈ chunk, stages' p.2 = .ended (.done ())) :
    Between limit steps (front ++ [chunk]) rest stages' := by
  constructor
  case all => rw [h.all, List.append_assoc, List.singleton_append]
  case applied =>
    intro p hp
    rw [List.flatten_append, List.flatten_singleton, List.mem_append] at hp
    rcases hp with hp | hp
    · exact hadvances.ended _ _ (h.applied p hp)
    · exact happlied p hp
  case waiting =>
    intro p hp
    have hnotmem : p.2 ∉ places chunk := fun hmem =>
      (List.nodup_append.mp h.nodup).2.2 _ hmem _ (List.mem_map_of_mem hp) rfl
    rw [hadvances.frame p.2 hnotmem]
    exact h.waiting p (List.mem_append_right _ hp)
  case settled => exact hsettled

end Between

/-- **Chunks that are run in order** end like this from between two of them. -/
theorem runChunks_concludes_from {limit : Nat} (cancelled : Cancellation)
    (rest : List (List Placed)) : ∀ (front : List (List Placed)) (turns : Nat → List Nat)
      (completed : Nat) (stages : Nat → Stage) (events : List Event) (state : σ),
      Between limit steps front rest stages → Underway c steps start stages events state →
      Concludes c steps start cancelled
        (runChunks c cancelled turns completed events (rest.map (List.map Prod.fst)) state) := by
  induction rest with
  | nil =>
    intro front turns completed stages events state hbetween h
    refine ⟨stages, h, .of_complete hbetween.settled fun i hi => ?_⟩
    refine hbetween.applied (steps[i], i) ?_
    rw [← List.append_nil front, ← hbetween.all]
    exact mem_placedChunks.mpr (List.getElem?_eq_getElem hi)
  | cons chunk rest ih =>
    intro front turns completed stages events state hbetween h
    have hlt : ∀ p ∈ chunk, p.2 < steps.length :=
      fun p hp => (List.getElem?_eq_some_iff.mp (hbetween.place p hp)).1
    have hwaiting : ∀ p ∈ chunk, stages p.2 = .waiting :=
      fun p hp => hbetween.waiting p (List.mem_append_left _ hp)
    rw [List.map_cons, runChunks]
    split
    · rename_i hcancelled
      obtain ⟨p, hp⟩ :=
        List.exists_mem_of_ne_nil chunk (ne_nil_of_mem_placedChunks hbetween.mem)
      exact ⟨stages, h, .of_cancelled hbetween.settled (hlt p hp) (hwaiting p hp) hcancelled⟩
    · obtain ⟨outcomes, stages', more, state', heq, hunderway, hadvances, houtcomes⟩ :=
        runChunk_underway h hbetween.startable hwaiting (turns 0)
      have hsettled := hadvances.settled hbetween.settled houtcomes
      rw [heq]
      dsimp only
      cases hfound : ((chunk.map Prod.fst).zip outcomes).findSome?
          fun (step, outcome) => failure? step outcome with
      | some cause =>
        obtain ⟨p, hp, outcome, hne, hended⟩ :=
          (findSome?_failure houtcomes hfound).2 (by simp)
        exact ⟨stages', hunderway, .of_failed hsettled (hlt p hp) hended hne (by simp)⟩
      | none =>
        have happlied := (findSome?_failure houtcomes hfound).1 rfl
        exact ih _ _ _ stages' _ state' (hbetween.next hadvances hsettled happlied) hunderway

/-- **A run that takes its steps in chunks.** -/
theorem runChunks_concludes (limit : Nat) (cancelled : Cancellation) (turns : Nat → List Nat) :
    Concludes c steps start cancelled
      (runChunks c cancelled turns 0 [] (chunks limit steps) start) := by
  have hbetween : Between limit steps [] (placedChunks limit steps) fun _ => .waiting :=
    ⟨rfl, fun p hp => absurd hp List.not_mem_nil, fun _ _ => rfl, fun _ _ => Stage.noConfusion⟩
  rw [chunks_eq_map]
  exact runChunks_concludes_from cancelled _ [] turns 0 _ _ _ hbetween .initially

/-- **Every run of a list of steps** goes from call to call of steps whose requirements are
met, and ends as its outcome says. -/
theorem runSteps_concludes (mode : Mode) (cancelled : Cancellation) :
    Concludes c steps start cancelled (runSteps c mode cancelled steps start) := by
  rw [runSteps]
  split
  · exact runChunks_concludes mode.limit cancelled mode.turns
  · exact runInOrder_concludes cancelled

end Provision.Execution
