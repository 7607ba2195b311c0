import Provision.Proofs.Execution.SideBySide
import Provision.Proofs.Plan.Application
import Provision.Proofs.Store.Apart

/-!
# Running a resolved plan

The steps of a resolved plan are for different packages, or for different targets of one.  So
whichever way they are run, the store at the end is known from the steps that have been
applied (`After`), and these hold what they require.  The steps that have been applied are
those that have ended well (`finished`).
-/
namespace Provision.Plan
open Relation Resolver Execution ScriptedStore

variable {r : Resolver} {actions : List Action} {planned : List Change} {steps : List Step}
  {snapshot : Snapshot} {id : UInt32} {start s : ScriptedStore} {stages : Nat → Stage}
  {events : List Event} {solo : Nat → List Event × ScriptedStore}

/-- The places of the steps that have been applied. -/
def finished (steps : List Step) (stages : Nat → Stage) : List Nat :=
  (List.range steps.length).filter fun i => stages i = .ended (.done ())

theorem mem_finished {i : Nat} :
    i ∈ finished steps stages ↔ i < steps.length ∧ stages i = .ended (.done ()) := by
  rw [finished, List.mem_filter, List.mem_range, decide_eq_true_eq]

/-- The steps of a plan act on a package at a target once. -/
theorem Realizes.distinct (h : Realizes r actions planned steps) (hgranted : Granted r actions)
    (hperm : planned.Perm (r.planned actions)) : (steps.map Step.place).Nodup := by
  have hplaces : steps.map Step.place = planned.map fun c => (c.1, c.2.1) := by
    rw [← h.change, List.map_map]
    rfl
  rw [hplaces]
  refine (hperm.nodup_iff.mpr (r.nodup_planned actions)).map_on fun c hc c' hc' => ?_
  exact hgranted.eq_of_place (hperm.mem_iff.mp hc) (hperm.mem_iff.mp hc')

/-- **What has been applied holds what it requires.** -/
theorem requiresClosed_finished {σ : Type} {c : Context σ} {start state : σ}
    (h : Underway c steps start stages events state)
    (hearlier : ∀ (i : Nat) (step : Step), steps[i]? = some step → ∀ j ∈ step.requires, j < i) :
    RequiresClosed steps (finished steps stages) := by
  intro i hi step hstep j hj
  obtain ⟨hlt, hended⟩ := mem_finished.mp hi
  have hji := hearlier i step hstep j hj
  refine mem_finished.mpr ⟨Nat.lt_trans hji hlt, ?_⟩
  exact h.ready hstep (by rw [hended]; exact Stage.noConfusion) j hj hji

/-- The changes of the steps are the planned ones. -/
theorem mem_changes_of_resolve (hresolve : r.resolve actions = .ok steps) {c : Change} :
    c ∈ steps.map Step.change ↔ c ∈ r.planned actions := by
  obtain ⟨-, planned, hperm, hrealizes, -⟩ := realizes_of_resolve hresolve
  rw [hrealizes.change, hperm.mem_iff]

/-- The entry of a package after a step of the given kind. -/
def entryAfter : ActionKind → Option Bool
  | .install => some true
  | .uninstall => none

theorem installed?_of_alike {s s' : ScriptedStore} (h : s.Alike s') (key : PackageKey)
    (target : Target) : s'.installed? key target = s.installed? key target := by
  rw [installed?, h.installed]
  rfl

/-- The entry of a step's package shows whether the step has been applied. -/
theorem installed?_of_composed (h : Composed snapshot id steps start stages events s solo)
    (hsettled : Settled stages) {i : Nat} {step : Step} (hi : steps[i]? = some step) :
    s.installed? step.key step.target =
      if stages i = .ended (.done ()) then entryAfter step.kind
      else start.installed? step.key step.target := by
  have halone := h.alone i step hi
  rw [h.entry i step hi]
  cases hstage : stages i with
  | waiting =>
    rw [hstage] at halone
    rw [halone.of_waiting.2, if_neg Stage.noConfusion]
  | fetched artifact => exact absurd hstage (hsettled i artifact)
  | ended outcome =>
    rw [hstage] at halone
    have hends := applyStep_ends snapshot id step start
    rw [halone.applyStep_of_ended] at hends
    by_cases hdone : outcome = .done ()
    · subst hdone
      rw [if_pos rfl, installed?_of_alike hends.alike_of_done, installed?_carryOut, if_pos rfl]
      cases step.kind <;> rfl
    · have hne : Stage.ended outcome ≠ .ended (.done ()) := fun heq => hdone (Stage.ended.inj heq)
      rw [if_neg hne, installed?_of_alike (hends.alike_of_ne hdone)]

/-- **The store after a run** is the store after the steps that have been applied. -/
theorem after_of_composed (h : Composed snapshot id steps start stages events s solo)
    (hsettled : Settled stages) : After steps start (finished steps stages) s := by
  have happlied : ∀ {key : PackageKey} {target : Target} {kind : ActionKind},
      (key, target, kind) ∈ carried steps (finished steps stages) →
        s.installed? key target = entryAfter kind := by
    intro key target kind hcarried
    obtain ⟨i, hi, hchange⟩ := mem_carried.mp hcarried
    rw [List.getElem?_map] at hchange
    obtain ⟨step, hstep, heq⟩ := Option.map_eq_some_iff.mp hchange
    cases heq
    rw [installed?_of_composed h hsettled hstep, if_pos (mem_finished.mp hi).2]
  constructor
  case unknown =>
    obtain ⟨installed, calls, rfl⟩ := exists_eq_of_script h.script
    rfl
  case fixedStatus =>
    obtain ⟨installed, calls, rfl⟩ := exists_eq_of_script h.script
    rfl
  case installed => exact fun key target hcarried => happlied hcarried
  case removed => exact fun key target hcarried => happlied hcarried
  case kept =>
    intro key target hinstall huninstall
    by_cases hplace : (key, target) ∈ steps.map Step.place
    · obtain ⟨step, hmem, heq⟩ := List.mem_map.mp hplace
      cases heq
      obtain ⟨i, hi⟩ := List.mem_iff_getElem?.mp hmem
      rw [installed?_of_composed h hsettled hi, if_neg]
      intro hended
      -- The step would have been applied, so its change would have been carried out.
      have hcarried : step.change ∈ carried steps (finished steps stages) :=
        mem_carried.mpr ⟨i, mem_finished.mpr ⟨(List.getElem?_eq_some_iff.mp hi).1, hended⟩,
          by rw [List.getElem?_map, hi]; rfl⟩
      cases hkind : step.kind with
      | install => exact hinstall (by rwa [Step.change, hkind] at hcarried)
      | uninstall => exact huninstall (by rwa [Step.change, hkind] at hcarried)
    · exact h.kept key target hplace

/-- **A run of a plan**, taken apart into what its steps do by themselves. -/
structure Ran (snapshot : Snapshot) (id : UInt32) (steps : List Step) (start : ScriptedStore)
    (cancelled : Cancellation) (applied : Applied ScriptedStore Unit) (stages : Nat → Stage)
    (solo : Nat → List Event × ScriptedStore) : Prop where
  conclusion : Conclusion steps cancelled stages applied.outcome
  requiresClosed : RequiresClosed steps (finished steps stages)
  composed : Composed snapshot id steps start stages applied.events applied.state solo

theorem Ran.after {cancelled : Cancellation} {applied : Applied ScriptedStore Unit}
    (h : Ran snapshot id steps start cancelled applied stages solo) :
    After steps start (finished steps stages) applied.state :=
  after_of_composed h.composed h.conclusion.settled

/-- **Running a resolved plan**, in any mode and with any cancellation, from any store. -/
theorem exists_ran_of_resolve (hresolve : r.resolve actions = .ok steps) (snapshot : Snapshot)
    (id : UInt32) (mode : Mode) (cancelled : Cancellation) (start : ScriptedStore) :
    ∃ stages solo, Ran snapshot id steps start cancelled
      (runSteps (context snapshot id) mode cancelled steps start) stages solo := by
  obtain ⟨hgranted, planned, hperm, hrealizes, hlt⟩ := realizes_of_resolve hresolve
  have hconcludes : Concludes (context snapshot id) steps start cancelled
      (runSteps (context snapshot id) mode cancelled steps start) :=
    runSteps_concludes mode cancelled
  obtain ⟨stages, hunderway, hconclusion⟩ := hconcludes
  obtain ⟨solo, hcomposed⟩ :=
    composed_of_underway (hrealizes.distinct hgranted hperm) hunderway
  have hearlier : ∀ (i : Nat) (step : Step), steps[i]? = some step → ∀ j ∈ step.requires, j < i := by
    intro i step hi j hj
    rw [← hrealizes.order i step hi]
    exact hlt step (List.mem_of_getElem? hi) j hj
  exact ⟨stages, solo, hconclusion, requiresClosed_finished hunderway hearlier, hcomposed⟩

/-! ## The store after a whole plan -/

/-- All steps have been applied. -/
theorem carried_finished (hdone : ∀ i < steps.length, stages i = .ended (.done ())) {c : Change} :
    c ∈ carried steps (finished steps stages) ↔ c ∈ steps.map Step.change := by
  rw [mem_carried, List.mem_iff_getElem?]
  constructor
  · rintro ⟨i, -, hi⟩
    exact ⟨i, hi⟩
  · rintro ⟨i, hi⟩
    have hlt := (List.getElem?_eq_some_iff.mp hi).1
    rw [List.length_map] at hlt
    exact ⟨i, mem_finished.mpr ⟨hlt, hdone i hlt⟩, hi⟩

/-- **The store after a whole plan.** -/
structure Fulfilled (r : Resolver) (actions : List Action) (start s : ScriptedStore) : Prop where
  installed : ∀ key target, (key, target, .install) ∈ r.planned actions →
    s.installed? key target = some true
  removed : ∀ key target, (key, target, .uninstall) ∈ r.planned actions →
    s.installed? key target = none
  kept : ∀ key target, (key, target, .install) ∉ r.planned actions →
    (key, target, .uninstall) ∉ r.planned actions →
      s.installed? key target = start.installed? key target

/-- A run that succeeds has made all changes of the plan. -/
theorem Ran.fulfilled {cancelled : Cancellation} {applied : Applied ScriptedStore Unit}
    (h : Ran snapshot id steps start cancelled applied stages solo)
    (hresolve : r.resolve actions = .ok steps) (hdone : applied.outcome = .done ()) :
    Fulfilled r actions start applied.state := by
  have hafter := h.after
  have hcarried : ∀ c, c ∈ carried steps (finished steps stages) ↔ c ∈ r.planned actions := by
    intro c
    rw [carried_finished (h.conclusion.done_iff.mp hdone), mem_changes_of_resolve hresolve]
  constructor
  case installed => exact fun key target hc => hafter.installed key target ((hcarried _).mpr hc)
  case removed => exact fun key target hc => hafter.removed key target ((hcarried _).mpr hc)
  case kept =>
    exact fun key target hinstall huninstall => hafter.kept key target
      (fun hc => hinstall ((hcarried _).mp hc)) fun hc => huninstall ((hcarried _).mp hc)

/-- A plan leaves one choice of what is installed after all of it. -/
theorem Fulfilled.unique {s' : ScriptedStore} (h : Fulfilled r actions start s)
    (h' : Fulfilled r actions start s') (key : PackageKey) (target : Target) :
    s.installed? key target = s'.installed? key target := by
  by_cases hinstall : (key, target, ActionKind.install) ∈ r.planned actions
  · rw [h.installed key target hinstall, h'.installed key target hinstall]
  by_cases huninstall : (key, target, ActionKind.uninstall) ∈ r.planned actions
  · rw [h.removed key target huninstall, h'.removed key target huninstall]
  · rw [h.kept key target hinstall huninstall, h'.kept key target hinstall huninstall]

end Provision.Plan
