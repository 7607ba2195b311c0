import Provision.Proofs.Execution.Course

/-!
# Steps that run together

The calls of a chunk's steps reach the store in turns, but each step still follows its own
course, and the calls and events of the chunk are those of its steps woven into each other
(`Together`).  Every turn keeps this (`Together.grow`), so it holds of a whole chunk, whatever
turns are taken (`runChunk_together`).
-/
namespace Provision.Execution

/-! ## Weaving lists -/

/-- **Lists woven into one**: it grows at the end, and always together with one of them. -/
inductive Woven {α : Type} : List (List α) → List α → Prop
  | nil {pieces : List (List α)} (h : ∀ piece ∈ pieces, piece = []) : Woven pieces []
  | grow {front back : List (List α)} {piece whole : List α} (more : List α)
      (h : Woven (front ++ piece :: back) whole) :
      Woven (front ++ (piece ++ more) :: back) (whole ++ more)

namespace Woven

variable {α : Type} {pieces : List (List α)} {whole : List α}

/-- Nothing gets lost. -/
theorem perm (h : Woven pieces whole) : whole.Perm pieces.flatten := by
  induction h with
  | nil h => rw [List.flatten_eq_nil_iff.mpr h]
  | @grow front back piece whole more _ ih =>
    rw [List.flatten_append, List.flatten_cons] at ih ⊢
    have hmove : (whole ++ more).Perm (front.flatten ++ (piece ++ back.flatten) ++ more) :=
      ih.append_right more
    rw [List.append_assoc, List.append_assoc] at hmove
    rw [List.append_assoc]
    exact hmove.trans ((List.perm_append_comm.append_left piece).append_left front.flatten)

end Woven

/-! ## Chunks under way -/

namespace Part

/-- A step that has not begun. -/
def fresh (p : Placed) : Part := ⟨p.1, p.2, .waiting, [], []⟩

/-- The step as it stands. -/
def job (part : Part) : Job := ⟨part.step, part.stage⟩

/-- The step at another stage, with further events and calls. -/
def grown (part : Part) (stage : Stage) (events : List Event) (calls : List Call) : Part :=
  { part with stage, calls := part.calls ++ calls, events := part.events ++ events }

end Part

variable {σ : Type} {id : UInt32} {front back parts : List Part} {part : Part} {stage : Stage}
  {events more : List Event} {calls moreCalls : List Call}

/-- **Steps that run together**, with the events and calls of all of them. -/
structure Together (id : UInt32) (parts : List Part) (events : List Event)
    (calls : List Call) : Prop where
  sound : ∀ part ∈ parts, part.Sound id
  events : Woven (parts.map Part.events) events
  calls : Woven (parts.map Part.calls) calls

namespace Together

theorem fresh (id : UInt32) (chunk : List Placed) : Together id (chunk.map Part.fresh) [] [] where
  sound := List.forall_mem_map.mpr fun _ _ => .waiting
  events := .nil (by simp [Part.fresh])
  calls := .nil (by simp [Part.fresh])

/-- **One of them goes on.** -/
theorem grow (h : Together id (front ++ part :: back) events calls)
    (hcourse : Course id part.step stage (part.calls ++ moreCalls) (part.events ++ more)) :
    Together id (front ++ part.grown stage more moreCalls :: back) (events ++ more)
      (calls ++ moreCalls) := by
  obtain ⟨hsound, hevents, hcalls⟩ := h
  rw [List.map_append, List.map_cons] at hevents hcalls
  constructor
  case sound =>
    rw [List.forall_mem_append, List.forall_mem_cons] at hsound ⊢
    exact ⟨hsound.1, hcourse, hsound.2.2⟩
  case events =>
    rw [List.map_append, List.map_cons]
    exact hevents.grow more
  case calls =>
    rw [List.map_append, List.map_cons]
    exact hcalls.grow moreCalls

/-- The steps that have been applied are reported, in some order. -/
theorem reports_perm (h : Together id parts events calls) : (reports events).Perm
    ((parts.filter fun part => part.Applied).map fun part => report id part.step) := by
  rw [← Part.reports_flatMap h.sound]
  exact h.events.perm.filter _

end Together

/-- **A turn** is one call of one of the steps. -/
theorem turn_together (c : Context σ) (h : Together c.id parts events calls) {k : Nat}
    (hk : parts[k]? = some part) (s : Logged σ) :
    ∃ part' more moreCalls state, Job.advance c.logged part.job s =
        (part'.job, more, ⟨state, s.calls ++ moreCalls⟩) ∧
      (parts.set k part').map Part.placed = parts.map Part.placed ∧
      Together c.id (parts.set k part') (events ++ more) (calls ++ moreCalls) := by
  have hstep := Job.step_advance c part.job s.state
  have hcourse := (h.sound part (List.mem_of_getElem? hk)).advance s.state
  rw [← Part.job] at hcourse
  rw [Job.advance_logged]
  rcases hadvance : Job.advance c part.job s.state with ⟨⟨step, stage⟩, more, state⟩
  rw [hadvance] at hstep hcourse
  obtain rfl : step = part.step := hstep
  obtain ⟨hlt, rfl⟩ := List.getElem?_eq_some_iff.mp hk
  refine ⟨parts[k].grown stage more (Job.nextCall c parts[k].job s.state), more,
    Job.nextCall c parts[k].job s.state, state, rfl, ?_⟩
  obtain ⟨front, back, hparts, -, hset⟩ := @List.exists_of_set _ k
    (parts[k].grown stage more (Job.nextCall c parts[k].job s.state)) parts hlt
  rw [hset]
  constructor
  · conv_rhs => rw [hparts]
    rw [List.map_append, List.map_append]
    rfl
  · rw [hparts] at h
    exact h.grow hcourse

/-- **Whatever turns are taken**, the steps run together. -/
theorem interleave_together (c : Context σ) (turns : List Nat)
    (h : Together c.id parts events calls) (s : Logged σ) :
    ∃ parts' more moreCalls state, interleave c.logged turns (parts.map Part.job) s =
        (parts'.map Part.job, more, ⟨state, s.calls ++ moreCalls⟩) ∧
      parts'.map Part.placed = parts.map Part.placed ∧
      Together c.id parts' (events ++ more) (calls ++ moreCalls) := by
  induction turns using List.reverseRecOn with
  | nil =>
    refine ⟨parts, [], [], s.state, ?_, rfl, by simpa only [List.append_nil] using h⟩
    rw [List.append_nil]
    rfl
  | append_singleton turns k ih =>
    obtain ⟨parts', more, moreCalls, state, heq, hplaced, htogether⟩ := ih
    rw [interleave_concat, heq]
    dsimp only
    cases hjob : (parts'.map Part.job)[k]? with
    | none => exact ⟨parts', more, moreCalls, state, rfl, hplaced, htogether⟩
    | some job =>
      rw [List.getElem?_map] at hjob
      obtain ⟨part, hpart, rfl⟩ := Option.map_eq_some_iff.mp hjob
      obtain ⟨part', more', moreCalls', state', hadvance, hplaced', htogether'⟩ :=
        turn_together c htogether hpart ⟨state, s.calls ++ moreCalls⟩
      refine ⟨parts'.set k part', more ++ more', moreCalls ++ moreCalls', state', ?_,
        hplaced'.trans hplaced, ?_⟩
      · dsimp only
        rw [hadvance, List.map_set, ← List.append_assoc]
      · rw [← List.append_assoc, ← List.append_assoc]
        exact htogether'

/-- One of the steps is brought to its end. -/
theorem conclude_together (c : Context σ) (h : Together c.id (front ++ part :: back) events calls)
    (s : Logged σ) :
    ∃ part' outcome more moreCalls state, Job.conclude c.logged part.job s =
        ⟨outcome, more, ⟨state, s.calls ++ moreCalls⟩⟩ ∧
      part'.placed = part.placed ∧ part'.stage = .ended outcome ∧
      Together c.id (front ++ part' :: back) (events ++ more) (calls ++ moreCalls) := by
  have hcourse := (h.sound part (by simp)).conclude s.state
  rw [← Part.job] at hcourse
  rw [Job.conclude_logged]
  rcases hconclude : Job.conclude c part.job s.state with ⟨outcome, more, state⟩
  rw [hconclude] at hcourse
  exact ⟨part.grown (.ended outcome) more (Job.callsLeft c part.job s.state), outcome, more,
    Job.callsLeft c part.job s.state, state, rfl, rfl, rfl, h.grow hcourse⟩

/-- **Concluding the steps that are left** brings all of them to an end. -/
theorem concludeAll_together (c : Context σ) (rest : List Part) : ∀ (front : List Part)
    (events : List Event) (calls : List Call) (s : Logged σ),
    Together c.id (front ++ rest) events calls →
    ∃ outcomes rest' more moreCalls state, concludeAll c.logged (rest.map Part.job) s =
        (outcomes, more, ⟨state, s.calls ++ moreCalls⟩) ∧
      rest'.map Part.placed = rest.map Part.placed ∧
      outcomes.map Stage.ended = rest'.map Part.stage ∧
      Together c.id (front ++ rest') (events ++ more) (calls ++ moreCalls) := by
  induction rest with
  | nil =>
    intro front events calls s h
    refine ⟨[], [], [], [], s.state, ?_, rfl, rfl, by simpa only [List.append_nil] using h⟩
    rw [List.append_nil]
    rfl
  | cons part rest ih =>
    intro front events calls s h
    obtain ⟨part', outcome, more, moreCalls, state, hfirst, hplaced, hended, htogether⟩ :=
      conclude_together c h s
    rw [List.append_cons] at htogether
    obtain ⟨outcomes, rest', more', moreCalls', state', hrest, hplaced', hended', htogether'⟩ :=
      ih _ _ _ ⟨state, s.calls ++ moreCalls⟩ htogether
    refine ⟨outcome :: outcomes, part' :: rest', more ++ more', moreCalls ++ moreCalls', state',
      ?_, ?_, ?_, ?_⟩
    · rw [List.map_cons, concludeAll, hfirst]
      dsimp only
      rw [hrest, ← List.append_assoc]
    · rw [List.map_cons, List.map_cons, hplaced, hplaced']
    · rw [List.map_cons, List.map_cons, hended, hended']
    · rw [List.append_cons, ← List.append_assoc, ← List.append_assoc]
      exact htogether'

/-- **The steps of a chunk run together**, and each comes to an end. -/
theorem runChunk_together (c : Context σ) (turns : List Nat) (chunk : List Placed)
    (s : Logged σ) :
    ∃ outcomes parts events calls state, runChunk c.logged turns (chunk.map Prod.fst) s =
        (outcomes, events, ⟨state, s.calls ++ calls⟩) ∧
      parts.map Part.placed = chunk ∧ outcomes.map Stage.ended = parts.map Part.stage ∧
      Together c.id parts events calls := by
  have hjobs : (chunk.map Prod.fst).map Job.ofStep = (chunk.map Part.fresh).map Part.job := by
    rw [List.map_map, List.map_map]
    rfl
  have hplaced : (chunk.map Part.fresh).map Part.placed = chunk := by
    rw [List.map_map]
    exact List.map_id chunk
  obtain ⟨parts, more, moreCalls, state, hturns, hparts, htogether⟩ :=
    interleave_together c turns (.fresh c.id chunk) s
  obtain ⟨outcomes, parts', more', moreCalls', state', hrest, hparts', hended, htogether'⟩ :=
    concludeAll_together c parts [] _ _ ⟨state, s.calls ++ moreCalls⟩ htogether
  refine ⟨outcomes, parts', more ++ more', moreCalls ++ moreCalls', state', ?_,
    (hparts'.trans hparts).trans hplaced, hended, htogether'⟩
  rw [runChunk, hjobs, hturns]
  dsimp only
  rw [hrest, ← List.append_assoc]

end Provision.Execution
