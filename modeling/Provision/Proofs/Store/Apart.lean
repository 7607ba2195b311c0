import Mathlib.Data.List.Basic
import Mathlib.Logic.Function.Basic
import Provision.Proofs.Distinct
import Provision.Proofs.Execution.Progress
import Provision.Proofs.Store.Local

/-!
# Steps that do not see each other

Steps for different packages never touch the same entry of the store.  So each of them goes
as it would go by itself (`Alone`), whatever calls of other steps come between its own: the
state of a run is put together from such lonely runs (`Composed`, `composed_of_underway`).
What is installed is told entry by entry, calls and events up to their order.
-/
namespace Provision
open Execution

/-! ## A step by itself -/

namespace Execution

variable {σ : Type} {c : Context σ} {step : Step} {start state : σ} {stage : Stage}
  {events : List Event}

/-- **A step by itself**: the stages it comes to, with what it has reported by then and what
has become of the store. -/
inductive Alone (c : Context σ) (step : Step) (start : σ) : Stage → List Event → σ → Prop
  | initially : Alone c step start .waiting [] start
  | advanced {stage : Stage} {events more : List Event} {state state' : σ} {job : Job} :
      Alone c step start stage events state →
      Job.advance c ⟨step, stage⟩ state = (job, more, state') →
      Alone c step start job.stage (events ++ more) state'

namespace Alone

/-- What is left of the step makes up the whole of it. -/
theorem applyStep_eq (h : Alone c step start stage events state) : applyStep c step start =
    let rest := Job.conclude c ⟨step, stage⟩ state
    ⟨rest.outcome, events ++ rest.events, rest.state⟩ := by
  induction h with
  | initially => rfl
  | @advanced stage _ more state _ job _ hadvance ih =>
    have hstep := Job.step_advance c ⟨step, stage⟩ state
    obtain ⟨step', stage'⟩ := job
    rw [hadvance] at hstep
    obtain rfl : step' = step := hstep
    rw [ih, Job.conclude_advance, hadvance]
    simp only [List.append_assoc]

/-- A step that has ended has been applied. -/
theorem applyStep_of_ended {outcome : Outcome TransactionError Unit}
    (h : Alone c step start (.ended outcome) events state) :
    applyStep c step start = ⟨outcome, events, state⟩ := by
  rw [h.applyStep_eq]
  simp only [Job.conclude, List.append_nil]

/-- A step that is waiting has done nothing. -/
theorem of_waiting (h : Alone c step start .waiting events state) :
    events = [] ∧ state = start := by
  generalize hstage : Stage.waiting = stage at h
  cases h with
  | initially => exact ⟨rfl, rfl⟩
  | @advanced stage _ _ state _ _ _ hadvance =>
    refine absurd ?_ (Job.stage_advance_ne_waiting c ⟨step, stage⟩ state)
    rw [hadvance]
    exact hstage.symm

end Alone

end Execution

/-- The package and the target of a step. -/
def Step.place (step : Step) : PackageKey × Target := (step.key, step.target)

namespace Execution

variable {steps : List Step} {step step' : Step} {i k : Nat}

/-- What holds of the step at one place and of those at all others. -/
theorem forall_of_place {p : Nat → Step → Prop} (hi : steps[i]? = some step) (hself : p i step)
    (hother : ∀ k ≠ i, ∀ step', steps[k]? = some step' → p k step') :
    ∀ k step', steps[k]? = some step' → p k step' := by
  intro k step' hk
  by_cases hki : k = i
  · subst hki
    rw [hi] at hk
    cases hk
    exact hself
  · exact hother k hki step' hk

theorem place_ne (hdistinct : (steps.map Step.place).Nodup)
    (hi : steps[i]? = some step) (hk : steps[k]? = some step') (hki : k ≠ i) :
    step'.place ≠ step.place := by
  intro heq
  apply hki
  refine eq_of_getElem?_of_nodup hdistinct (x := step.place) ?_ ?_
  · rw [List.getElem?_map, hk, Option.map_some, heq]
  · rw [List.getElem?_map, hi, Option.map_some]

end Execution

namespace ScriptedStore

variable {snapshot : Snapshot} {id : UInt32} {step : Step} {start s s' : ScriptedStore}
  {stage : Stage} {events : List Event}

/-- What is fetched for a step is its package. -/
theorem key_of_advance {artifact : Artifact}
    (h : (Job.advance (context snapshot id) ⟨step, stage⟩ s).1.stage = .fetched artifact) :
    artifact.key = step.key := by
  cases stage with
  | ended outcome => cases h
  | fetched artifact => cases h
  | waiting =>
    simp only [Job.advance] at h
    cases hkind : step.kind with
    | uninstall =>
      rw [hkind] at h
      cases h
    | install =>
      rw [hkind] at h
      dsimp only at h
      cases houtcome : (fetch (context snapshot id) step s).outcome with
      | failed cause =>
        rw [houtcome] at h
        cases h
      | crashed =>
        rw [houtcome] at h
        cases h
      | done artifact' =>
        rw [houtcome] at h
        cases h
        exact key_of_fetch snapshot id houtcome

theorem key_of_alone {artifact : Artifact}
    (h : Alone (context snapshot id) step start (.fetched artifact) events s) :
    artifact.key = step.key := by
  generalize hstage : Stage.fetched artifact = stage at h
  cases h with
  | initially => cases hstage
  | @advanced stage _ _ state _ _ _ hadvance =>
    have hfetched : (Job.advance (context snapshot id) ⟨step, stage⟩ state).1.stage =
        .fetched artifact := by
      rw [hadvance]
      exact hstage.symm
    exact key_of_advance hfetched

/-- The next call of a lonely step. -/
theorem local_of_alone {s₀ : ScriptedStore}
    (h : Alone (context snapshot id) step start stage events s₀) :
    Local step.key step.target fun s =>
      let (job, events, state) := Job.advance (context snapshot id) ⟨step, stage⟩ s
      ((job, events), state) := by
  apply local_advance snapshot id step
  rintro artifact rfl
  exact key_of_alone h

theorem script_of_alone (h : Alone (context snapshot id) step start stage events s) :
    s.script = start.script := by
  induction h with
  | initially => rfl
  | @advanced _ _ _ state _ _ halone hadvance ih =>
    have hscript := (local_of_alone halone).script state
    rw [hadvance] at hscript
    exact hscript.trans ih

theorem calls_of_alone (h : Alone (context snapshot id) step start stage events s) :
    start.calls <+: s.calls := by
  induction h with
  | initially => exact List.prefix_refl _
  | @advanced _ _ _ state _ _ halone hadvance ih =>
    obtain ⟨-, -, made, hmade, -⟩ :=
      (local_of_alone halone).mirrored state state (Agree.refl step.key step.target state)
    rw [hadvance] at hmade
    exact ih.trans ⟨made, hmade.symm⟩

/-- **A call that others have come before** goes as it goes for the lonely step. -/
theorem exists_advance_alone {t : ScriptedStore} {more : List Event} {job : Job}
    (h : Alone (context snapshot id) step start stage events t)
    (hagree : Agree step.key step.target t s)
    (hadvance : Job.advance (context snapshot id) ⟨step, stage⟩ s = (job, more, s')) :
    ∃ t' made, Job.advance (context snapshot id) ⟨step, stage⟩ t = (job, more, t') ∧
      Agree step.key step.target t' s' ∧
      (∀ key target, (key, target) ≠ (step.key, step.target) →
        s'.installed? key target = s.installed? key target) ∧
      t'.calls = t.calls ++ made ∧ s'.calls = s.calls ++ made := by
  have hlocal := local_of_alone h
  obtain ⟨hresult, -, made, hmade, hmade'⟩ := hlocal.mirrored t s hagree
  have hagree' := hlocal.agree hagree
  have helsewhere := hlocal.elsewhere s
  rcases halone : Job.advance (context snapshot id) ⟨step, stage⟩ t with ⟨job', more', t'⟩
  simp only [hadvance, halone] at hresult hmade hmade' hagree' helsewhere
  obtain ⟨rfl, rfl⟩ := Prod.mk.inj hresult
  exact ⟨t', made, rfl, hagree', helsewhere, hmade, hmade'⟩

/-! ## Steps that come between each other's calls -/

/-- What a list comes to holds more if one of its entries brings more. -/
theorem perm_flatMap_update {α β γ : Type} [DecidableEq α] {l : List α} (hnodup : l.Nodup) {i : α}
    (hi : i ∈ l) {f : γ → List β} {g : α → γ} {x : γ} {more : List β}
    (hx : f x = f (g i) ++ more) : (l.flatMap (fun k => f (g k)) ++ more).Perm
      (l.flatMap fun k => f (Function.update g i x k)) := by
  obtain ⟨l₁, l₂, rfl⟩ := List.append_of_mem hi
  have hother : ∀ l' : List α, i ∉ l' →
      l'.flatMap (fun k => f (Function.update g i x k)) = l'.flatMap fun k => f (g k) := by
    intro l' hnotmem
    refine List.flatMap_congr fun j hj => ?_
    rw [Function.update_of_ne]
    rintro rfl
    exact hnotmem hj
  obtain ⟨-, hnodup₂, hdisjoint⟩ := List.nodup_append.mp hnodup
  have h₁ : i ∉ l₁ := fun h => hdisjoint i h i (List.mem_cons_self ..) rfl
  have h₂ : i ∉ l₂ := (List.nodup_cons.mp hnodup₂).1
  simp only [List.flatMap_append, List.flatMap_cons, hother _ h₁, hother _ h₂, Function.update_self,
    hx, List.append_assoc]
  exact (List.perm_append_comm.append_left _).append_left _

/-- The calls that a store has written down since `start`. -/
def callsSince (start s : ScriptedStore) : List StoreCall :=
  s.calls.drop start.calls.length

theorem callsSince_self (s : ScriptedStore) : s.callsSince s = [] :=
  List.drop_eq_nil_of_le (Nat.le_refl _)

theorem callsSince_append {t : ScriptedStore} {made : List StoreCall}
    (h : start.calls <+: s.calls) (hmade : t.calls = s.calls ++ made) :
    start.callsSince t = start.callsSince s ++ made := by
  rw [callsSince, hmade, List.drop_append_of_le_length h.length_le]
  rfl

/-- **A state of a run, put together from lonely runs of its steps.** -/
structure Composed (snapshot : Snapshot) (id : UInt32) (steps : List Step) (start : ScriptedStore)
    (stages : Nat → Stage) (events : List Event) (s : ScriptedStore)
    (solo : Nat → List Event × ScriptedStore) : Prop where
  alone : ∀ i step, steps[i]? = some step →
    Alone (context snapshot id) step start (stages i) (solo i).1 (solo i).2
  script : s.script = start.script
  entry : ∀ i step, steps[i]? = some step →
    s.installed? step.key step.target = (solo i).2.installed? step.key step.target
  kept : ∀ key target, (key, target) ∉ steps.map Step.place →
    s.installed? key target = start.installed? key target
  events : events.Perm ((List.range steps.length).flatMap fun i => (solo i).1)
  calls : s.calls.Perm (start.calls ++
    (List.range steps.length).flatMap fun i => start.callsSince (solo i).2)

variable {steps : List Step} {stages : Nat → Stage} {solo : Nat → List Event × ScriptedStore}
  {more : List Event} {i : Nat} {job : Job}

theorem composed_initially (snapshot : Snapshot) (id : UInt32) (steps : List Step)
    (start : ScriptedStore) :
    Composed snapshot id steps start (fun _ => .waiting) [] start fun _ => ([], start) where
  alone _ _ _ := .initially
  script := rfl
  entry _ _ _ := rfl
  kept _ _ _ := rfl
  events := by rw [List.flatMap_eq_nil_iff.mpr fun _ _ => rfl]
  calls := by
    rw [List.flatMap_eq_nil_iff.mpr fun _ _ => callsSince_self start, List.append_nil]

/-- **A call of one step** makes a lonely run go on and leaves the others. -/
theorem Composed.advanced (h : Composed snapshot id steps start stages events s solo)
    (hdistinct : (steps.map Step.place).Nodup) (hi : steps[i]? = some step)
    (hadvance : Job.advance (context snapshot id) ⟨step, stages i⟩ s = (job, more, s')) :
    ∃ solo', Composed snapshot id steps start (Function.update stages i job.stage)
      (events ++ more) s' solo' := by
  have halone := h.alone i step hi
  have hagree : Agree step.key step.target (solo i).2 s :=
    ⟨h.script.trans (script_of_alone halone).symm, h.entry i step hi⟩
  obtain ⟨t, made, hsolo, hagree', helsewhere, hmade, hmade'⟩ :=
    exists_advance_alone halone hagree hadvance
  have halone' := halone.advanced hsolo
  have hlt : i < steps.length := (List.getElem?_eq_some_iff.mp hi).1
  refine ⟨Function.update solo i ((solo i).1 ++ more, t), ?_⟩
  constructor
  case alone =>
    refine forall_of_place hi ?_ fun k hki step' hk => ?_
    · rw [Function.update_self, Function.update_self]
      exact halone'
    · rw [Function.update_of_ne hki, Function.update_of_ne hki]
      exact h.alone k step' hk
  case script => exact hagree'.script.trans (script_of_alone halone')
  case entry =>
    refine forall_of_place hi ?_ fun k hki step' hk => ?_
    · rw [Function.update_self]
      exact hagree'.entry
    · rw [Function.update_of_ne hki, helsewhere _ _ (place_ne hdistinct hi hk hki)]
      exact h.entry k step' hk
  case kept =>
    intro key target hnotmem
    have hplace : (key, target) ≠ step.place := by
      rintro heq
      rw [heq] at hnotmem
      exact hnotmem (List.mem_map_of_mem (List.mem_of_getElem? hi))
    rw [helsewhere key target hplace]
    exact h.kept key target hnotmem
  case events =>
    refine (h.events.append_right more).trans ?_
    exact perm_flatMap_update (f := Prod.fst) List.nodup_range (List.mem_range.mpr hlt) rfl
  case calls =>
    rw [hmade']
    refine (h.calls.append_right made).trans ?_
    rw [List.append_assoc]
    refine List.Perm.append_left start.calls ?_
    exact perm_flatMap_update (f := fun lonely : List Event × ScriptedStore =>
      start.callsSince lonely.2) List.nodup_range (List.mem_range.mpr hlt)
      (callsSince_append (calls_of_alone halone) hmade)

/-- **Every state of a run is put together from lonely runs**, if no two steps are for the same
package at the same target. -/
theorem composed_of_underway (hdistinct : (steps.map Step.place).Nodup)
    (h : Underway (context snapshot id) steps start stages events s) :
    ∃ solo, Composed snapshot id steps start stages events s solo := by
  induction h with
  | initially => exact ⟨_, composed_initially snapshot id steps start⟩
  | advanced _ hi _ hadvance ih =>
    obtain ⟨solo, hcomposed⟩ := ih
    exact hcomposed.advanced hdistinct hi hadvance

end ScriptedStore

end Provision
