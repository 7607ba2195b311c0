import Provision.Proofs.Plan.Realization
import Provision.Proofs.Store.Scripted

/-!
# Stores while a plan is applied

Steps may be applied in any order in which each comes after those it requires, and this may
stop anywhere (`Applying`).  What matters of such a run is which steps have been applied:
the store is then known from the one at the start (`After`, `Applying.after`), and the steps
applied hold everything that they require (`Applying.requiresClosed`), which by the meaning
of `requires` is everything they wait for (`Realizes.mem_carried`).
-/
namespace Provision.Plan
open Relation Resolver

/-- The resolver of a store. -/
def Resolver.ofStore (snapshot : Snapshot) (store : ScriptedStore) (cascade : Bool) : Resolver :=
  ⟨snapshot, fun key target => store.status key target, cascade⟩

/-- The changes of the steps at the places in `done`. -/
def carried (steps : List Step) (done : List Nat) : List Change :=
  done.filterMap fun i => (steps[i]?).map Step.change

/-- Whether a selection of steps holds what its steps require. -/
def RequiresClosed (steps : List Step) (done : List Nat) : Prop :=
  ∀ i ∈ done, ∀ step, steps[i]? = some step → ∀ j ∈ step.requires, j ∈ done

instance (steps : List Step) (done : List Nat) : Decidable (RequiresClosed steps done) :=
  inferInstanceAs (Decidable (∀ i ∈ done, ∀ step ∈ steps[i]?, ∀ j ∈ step.requires, j ∈ done))

variable {steps : List Step} {done : List Nat} {start s s' : ScriptedStore} {i : Nat}
  {step : Step} {c c' : Change}

theorem mem_carried : c ∈ carried steps done ↔ ∃ i ∈ done, (steps.map Step.change)[i]? = some c := by
  simp only [carried, List.mem_filterMap, List.getElem?_map]

theorem carried_cons (hi : steps[i]? = some step) :
    carried steps (i :: done) = step.change :: carried steps done := by
  rw [carried, List.filterMap_cons, hi]
  rfl

/-- **A selection that holds what it requires holds what it waits for.** -/
theorem Realizes.mem_carried {r : Resolver} {actions : List Action} {planned : List Change}
    (h : Realizes r actions planned steps) (hclosed : RequiresClosed steps done)
    (hc : c ∈ carried steps done) (hc' : c' ∈ planned) (hawaits : Awaits r.snapshot planned c c') :
    c' ∈ carried steps done := by
  obtain ⟨i, hi, hchange⟩ := Plan.mem_carried.mp hc
  rw [List.getElem?_map] at hchange
  obtain ⟨step, hstep, rfl⟩ := Option.map_eq_some_iff.mp hchange
  obtain ⟨j, hj⟩ := List.mem_iff_getElem?.mp hc'
  have hrequires := (h.requires step (List.mem_of_getElem? hstep) j).mpr ⟨c', hj, hawaits⟩
  refine Plan.mem_carried.mpr ⟨j, hclosed i hi step hstep j hrequires, ?_⟩
  rw [h.change]
  exact hj

/-- **The store after some steps.** -/
structure After (steps : List Step) (start : ScriptedStore) (done : List Nat)
    (s : ScriptedStore) : Prop where
  unknown : s.unknown = start.unknown
  fixedStatus : s.fixedStatus = start.fixedStatus
  installed : ∀ key target, (key, target, .install) ∈ carried steps done →
    s.installed? key target = some true
  removed : ∀ key target, (key, target, .uninstall) ∈ carried steps done →
    s.installed? key target = none
  kept : ∀ key target, (key, target, .install) ∉ carried steps done →
    (key, target, .uninstall) ∉ carried steps done →
      s.installed? key target = start.installed? key target

/-- Whether the steps act on each package in one way at a target. -/
def Unopposed (steps : List Step) : Prop :=
  ∀ c ∈ steps.map Step.change, ∀ c' ∈ steps.map Step.change,
    (c.1, c.2.1) = (c'.1, c'.2.1) → c = c'

theorem mem_changes_of_carried (hc : c ∈ carried steps done) : c ∈ steps.map Step.change := by
  obtain ⟨i, -, hi⟩ := mem_carried.mp hc
  exact List.mem_of_getElem? hi

/-- What a plan has changed was planned. -/
theorem Realizes.planned_of_carried {r : Resolver} {actions : List Action}
    {planned : List Change} (h : Realizes r actions planned steps)
    (hc : c ∈ carried steps done) : c ∈ planned :=
  h.change ▸ mem_changes_of_carried hc

/-- The steps of a granted request do not oppose each other. -/
theorem Realizes.unopposed {r : Resolver} {actions : List Action} {planned : List Change}
    (h : Realizes r actions planned steps) (hgranted : Granted r actions)
    (hperm : planned.Perm (r.planned actions)) : Unopposed steps := by
  intro c hc c' hc' hplace
  rw [h.change, hperm.mem_iff] at hc hc'
  exact hgranted.eq_of_place hc hc' hplace

namespace After

theorem refl (steps : List Step) (start : ScriptedStore) : After steps start [] start where
  unknown := rfl
  fixedStatus := rfl
  installed := fun _ _ h => absurd h List.not_mem_nil
  removed := fun _ _ h => absurd h List.not_mem_nil
  kept := fun _ _ _ _ => rfl

theorem alike (h : After steps start done s) (halike : s.Alike s') : After steps start done s' := by
  have heq : ∀ key target, s'.installed? key target = s.installed? key target := by
    intro key target
    rw [ScriptedStore.installed?, halike.installed]
    rfl
  constructor
  case unknown => exact halike.unknown.trans h.unknown
  case fixedStatus => exact halike.fixedStatus.trans h.fixedStatus
  case installed =>
    intro key target hmem
    rw [heq, h.installed key target hmem]
  case removed =>
    intro key target hmem
    rw [heq, h.removed key target hmem]
  case kept =>
    intro key target hinstall huninstall
    rw [heq, h.kept key target hinstall huninstall]

/-- In which order the steps came does not show. -/
theorem congr {done' : List Nat} (h : After steps start done s)
    (hiff : ∀ c, c ∈ carried steps done' ↔ c ∈ carried steps done) :
    After steps start done' s where
  unknown := h.unknown
  fixedStatus := h.fixedStatus
  installed := fun key target hc => h.installed key target ((hiff _).mp hc)
  removed := fun key target hc => h.removed key target ((hiff _).mp hc)
  kept := fun key target hinstall huninstall => h.kept key target
    (fun hc => hinstall ((hiff _).mpr hc)) (fun hc => huninstall ((hiff _).mpr hc))

theorem tells (h : After steps start done s) (hstart : start.Tells) : s.Tells :=
  ⟨h.unknown.trans hstart.1, h.fixedStatus.trans hstart.2⟩

/-- **Carrying out one more step.** -/
theorem carryOut (h : After steps start done s) (hunopposed : Unopposed steps)
    (hi : steps[i]? = some step) : After steps start (i :: done) (s.carryOut step) := by
  obtain ⟨hunknown, hfixed⟩ := s.script_carryOut step
  have hmem : ∀ c, c ∈ carried steps (i :: done) ↔ c = step.change ∨ c ∈ carried steps done := by
    intro c
    rw [carried_cons hi, List.mem_cons]
  have hstep : step.change ∈ steps.map Step.change :=
    List.mem_map_of_mem (List.mem_of_getElem? hi)
  -- Another change of the same package at the same target would have to be this step's.
  have hsame : ∀ (key : PackageKey) (target : Target) (kind : ActionKind),
      (key, target, kind) ∈ carried steps (i :: done) → (key, target) = (step.key, step.target) →
        kind = step.kind := by
    intro key target kind hc hplace
    rcases (hmem _).mp hc with heq | hc
    · exact congrArg (fun c => c.2.2) heq
    · exact congrArg (fun c => c.2.2)
        (hunopposed _ (mem_changes_of_carried hc) _ hstep hplace)
  constructor
  case unknown => exact hunknown.trans h.unknown
  case fixedStatus => exact hfixed.trans h.fixedStatus
  case installed =>
    intro key target hc
    rw [ScriptedStore.installed?_carryOut]
    split
    · rename_i hplace
      rw [← hsame key target _ hc hplace]
    · rename_i hplace
      refine h.installed key target (((hmem _).mp hc).resolve_left fun heq => hplace ?_)
      exact congrArg (fun c => (c.1, c.2.1)) heq
  case removed =>
    intro key target hc
    rw [ScriptedStore.installed?_carryOut]
    split
    · rename_i hplace
      rw [← hsame key target _ hc hplace]
    · rename_i hplace
      refine h.removed key target (((hmem _).mp hc).resolve_left fun heq => hplace ?_)
      exact congrArg (fun c => (c.1, c.2.1)) heq
  case kept =>
    intro key target hinstall huninstall
    rw [hmem, not_or] at hinstall huninstall
    have hplace : (key, target) ≠ (step.key, step.target) := by
      rintro heq
      cases heq
      cases hkind : step.kind with
      | install => exact hinstall.1 (by rw [Step.change, hkind])
      | uninstall => exact huninstall.1 (by rw [Step.change, hkind])
    rw [ScriptedStore.installed?_carryOut, if_neg hplace]
    exact h.kept key target hinstall.2 huninstall.2

end After

/-! ## Runs that respect what steps require -/

/-- **Applying steps in any order that respects their requirements**, stopped anywhere.  A
step may fail, and be tried again; the script of the store may change meanwhile. -/
inductive Applying (snapshot : Snapshot) (id : UInt32) (steps : List Step)
    (start : ScriptedStore) : List Nat → ScriptedStore → Prop
  | initially : Applying snapshot id steps start [] start
  | applied {done : List Nat} {s : ScriptedStore} {i : Nat} {step : Step} :
      Applying snapshot id steps start done s → steps[i]? = some step →
      (∀ j ∈ step.requires, j ∈ done) →
      (Execution.applyStep (ScriptedStore.context snapshot id) step s).outcome = .done () →
      Applying snapshot id steps start (i :: done)
        (Execution.applyStep (ScriptedStore.context snapshot id) step s).state
  | failed {done : List Nat} {s : ScriptedStore} {i : Nat} {step : Step} :
      Applying snapshot id steps start done s → steps[i]? = some step →
      (Execution.applyStep (ScriptedStore.context snapshot id) step s).outcome ≠ .done () →
      Applying snapshot id steps start done
        (Execution.applyStep (ScriptedStore.context snapshot id) step s).state
  | scripted {done : List Nat} {s s' : ScriptedStore} :
      Applying snapshot id steps start done s → s.Alike s' →
      Applying snapshot id steps start done s'

variable {snapshot : Snapshot} {id : UInt32}

theorem Applying.requiresClosed (h : Applying snapshot id steps start done s) :
    RequiresClosed steps done := by
  induction h with
  | initially => exact fun i hi => absurd hi List.not_mem_nil
  | applied _ hi hrequires _ ih =>
    intro k hk step' hstep' j hj
    rcases List.mem_cons.mp hk with rfl | hk
    · rw [hi] at hstep'
      cases hstep'
      exact List.mem_cons_of_mem _ (hrequires j hj)
    · exact List.mem_cons_of_mem _ (ih k hk step' hstep' j hj)
  | failed _ _ _ ih => exact ih
  | scripted _ _ ih => exact ih

theorem Applying.after (h : Applying snapshot id steps start done s)
    (hunopposed : Unopposed steps) : After steps start done s := by
  induction h with
  | initially => exact After.refl steps start
  | @applied done s i step _ hi _ hdone ih =>
    have hends := ScriptedStore.applyStep_ends snapshot id step s
    rw [hdone] at hends
    exact (ih.carryOut hunopposed hi).alike hends.alike_of_done
  | @failed done s i step _ _ hfailed ih =>
    exact ih.alike ((ScriptedStore.applyStep_ends snapshot id step s).alike_of_ne hfailed)
  | scripted _ halike ih => exact ih.alike halike

end Provision.Plan
