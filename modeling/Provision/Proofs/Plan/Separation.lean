import Provision.Proofs.Plan.Arrangement
import Provision.Proofs.Plan.Remainder

/-!
# One target at a time

A request may name the system and the user, and all of its actions are worked off on one
draft.  Still the two never meet (`targets_independent`).  A request is resolved exactly if
its actions at each target (`actionsAt`) are.  These are resolved to the steps that they have
in the plan of the whole request (`stepsAt`), and what the store says about the other target
plays no part in that, not even in why they are refused (`resolve_eq_of_status`).

The plan is told target by target because every change is called for by an action at its
own target (`planned_actionsAt`), awaits changes at that target only, and looks through
packages by what is planned for them there (`awaits_filter_target`).
-/
namespace Provision.Plan
open Relation Resolver

variable {r : Resolver} {actions : List Action} {steps : List Step} {target : Target}
  {planned : List Change} {c c' : Change}

/-- The actions of a request at a target. -/
def actionsAt (target : Target) (actions : List Action) : List Action :=
  actions.filter (·.target = target)

/-- The places of the steps at the other target. -/
def elsewhere (target : Target) (steps : List Step) : List Nat :=
  (List.range steps.length).filter fun i => (steps[i]?).any (·.target ≠ target)

/-- **The steps of a plan at a target**, renumbered. -/
def stepsAt (target : Target) (steps : List Step) : List Step :=
  remainder steps (elsewhere target steps)

theorem mem_actionsAt {a : Action} : a ∈ actionsAt target actions ↔
    a ∈ actions ∧ a.target = target := by
  simp [actionsAt, List.mem_filter]

theorem mem_elsewhere {i : Nat} : i ∈ elsewhere target steps ↔
    ∃ s, steps[i]? = some s ∧ s.target ≠ target := by
  simp only [elsewhere, List.mem_filter, List.mem_range, Option.any_eq_true, decide_eq_true_eq]
  constructor
  · exact fun h => h.2
  · rintro ⟨s, hs, hne⟩
    exact ⟨(List.getElem?_eq_some_iff.mp hs).1, s, hs, hne⟩

/-! ## The plan at a target -/

/-- The actions at a target call for the planned changes there. -/
theorem planned_actionsAt (r : Resolver) (target : Target) (actions : List Action) :
    r.planned (actionsAt target actions) = (r.planned actions).filter (·.2.1 = target) := by
  have hcalled : ∀ a ∈ actions, ∀ c ∈ r.called a,
      decide (c.2.1 = target) = decide (a.target = target) := by
    intro a _ c hc
    rw [r.target_of_mem_called hc]
  rw [planned, planned, ← eraseDups_filter, filter_flatMap_eq_flatMap_filter hcalled]
  rfl

/-- What a change awaits is told from the changes at its target. -/
theorem awaits_filter_target {s : Snapshot} (hc : c.2.1 = target) :
    Awaits s (planned.filter (·.2.1 = target)) c c' ↔ Awaits s planned c c' := by
  simp only [Awaits, List.mem_filter, hc, decide_true, and_true]

theorem detached_target (s : Snapshot) (planned : List Change) (target : Target) :
    Detached s planned (·.2.1 = target) := by
  intro c _ hc c' _
  have htarget : c.2.1 = target := of_decide_eq_true hc
  rw [awaits_filter_target htarget, decide_eq_true_eq]
  constructor
  · intro hawaits
    exact ⟨by rw [← hawaits.1, htarget], hawaits⟩
  · exact fun h => h.2

/-- The changes at a target are arranged among themselves. -/
theorem arranged_actionsAt (r : Resolver) (target : Target) (actions : List Action) :
    arranged r.snapshot (r.planned (actionsAt target actions)) =
      (arranged r.snapshot (r.planned actions)).filter (·.2.1 = target) := by
  rw [planned_actionsAt]
  refine ((detached_target _ _ target).filter_arranged ?_).symm
  intro c _ c' _ hawaits hc'
  rw [decide_eq_true_eq] at hc' ⊢
  rw [hawaits.1, hc']

/-! ## Whether and how it is resolved -/

/-- The actions of a resolvable request at a target are resolvable. -/
theorem Resolvable.actionsAt (h : Resolvable r actions) (target : Target) :
    Resolvable r (actionsAt target actions) := by
  refine Resolvable.of_targets fun a ha => ⟨actions, h, fun b hb => ?_⟩
  rw [mem_actionsAt, hb]
  exact and_iff_left (mem_actionsAt.mp ha).2

/-- **A request is resolvable if its actions at each target are.** -/
theorem Resolvable.of_actionsAt (h : ∀ target, Resolvable r (Plan.actionsAt target actions)) :
    Resolvable r actions := by
  refine Resolvable.of_targets fun a _ => ⟨_, h a.target, fun b hb => ?_⟩
  rw [mem_actionsAt]
  exact (and_iff_left hb).symm

theorem mem_carried_elsewhere : c ∈ carried steps (elsewhere target steps) ↔
    c ∈ steps.map Step.change ∧ c.2.1 ≠ target := by
  rw [mem_carried]
  constructor
  · rintro ⟨i, hi, hc⟩
    obtain ⟨s, hs, hne⟩ := mem_elsewhere.mp hi
    have hmem := List.mem_of_getElem? hc
    rw [List.getElem?_map, hs] at hc
    obtain rfl := Option.some.inj hc
    exact ⟨hmem, hne⟩
  · rintro ⟨hmem, hne⟩
    obtain ⟨i, hc⟩ := List.mem_iff_getElem?.mp hmem
    refine ⟨i, ?_, hc⟩
    rw [List.getElem?_map] at hc
    obtain ⟨s, hs, rfl⟩ := Option.map_eq_some_iff.mp hc
    exact mem_elsewhere.mpr ⟨s, hs, hne⟩

/-- Steps require steps at their own target. -/
theorem Realizes.target_of_requires (h : Realizes r actions planned steps) {s : Step}
    (hs : s ∈ steps) {j : Nat} (hj : j ∈ s.requires) :
    ∃ s', steps[j]? = some s' ∧ s'.target = s.target := by
  obtain ⟨c, hc, hawaits⟩ := (h.requires s hs j).mp hj
  obtain ⟨s', hs', rfl⟩ := h.exists_getElem? hc
  exact ⟨s', hs', (congrArg Prod.fst hawaits.1).symm⟩

/-- **The actions at a target are resolved to the steps at that target.** -/
theorem resolve_actionsAt (h : r.resolve actions = .ok steps) (target : Target) :
    r.resolve (actionsAt target actions) = .ok (stepsAt target steps) := by
  have hresolvable := resolves_iff_resolvable.mp ⟨steps, h⟩
  have hrealizes := realizes_arranged_of_resolve h
  have hat : ∀ c ∈ arranged r.snapshot (r.planned (actionsAt target actions)),
      c.2.1 = target := by
    intro c hc
    rw [arranged_actionsAt] at hc
    exact of_decide_eq_true (List.mem_filter.mp hc).2
  refine resolve_eq_ok_iff_realizes.mpr ⟨hresolvable.actionsAt target, ?_⟩
  refine hrealizes.remaining nodup_arranged ?_ ?_ ?_
  · rw [arranged_actionsAt]
    refine List.filter_congr fun c hc => ?_
    rw [← hrealizes.change] at hc
    simp [mem_carried_elsewhere, hc]
  · intro c hc
    rw [mem_actionsAt]
    exact (and_iff_left (hat c hc)).symm
  · intro c hc c' _
    rw [arranged_actionsAt]
    exact awaits_filter_target (hat c hc)

/-! ## What the store says about the other target -/

section
variable {now : PackageKey → Target → InstallStatus}
  (hnow : ∀ key, now key target = r.status key target)
include hnow

theorem addInstall_of_status (d : Draft) (p : Package) (explicit : Bool) :
    ({ r with status := now } : Resolver).addInstall d p target explicit =
      r.addInstall d p target explicit := by
  simp only [addInstall, hnow]

theorem expandInstall_of_status (d : Draft) (root : PackageKey) :
    ({ r with status := now } : Resolver).expandInstall d root target =
      r.expandInstall d root target := by
  have hvisit : ({ r with status := now } : Resolver).installVisit root target =
      r.installVisit root target := by
    funext d visit
    cases visit with
    | entered key => rfl
    | closed path => rfl
    | left key => simp only [installVisit, addInstall_of_status hnow]
  simp only [expandInstall, hvisit]
  rfl

theorem expandUninstall_of_status (d : Draft) (root : Package) (names : List PackageKey) :
    ({ r with status := now } : Resolver).expandUninstall d root target names =
      r.expandUninstall d root target names := by
  have hcollect : ({ r with status := now } : Resolver).collectDependent target =
      r.collectDependent target := by
    funext found key
    simp only [collectDependent, hnow]
  have hdependents : ({ r with status := now } : Resolver).installedDependents root.key target =
      r.installedDependents root.key target := by
    simp only [installedDependents, hcollect]
    rfl
  simp only [expandUninstall, hnow, hdependents]

/-- **Resolving what is asked for at a target looks at the statuses there only**, also where
it is refused. -/
theorem resolve_eq_of_status (hactions : ∀ a ∈ actions, a.target = target) :
    ({ r with status := now } : Resolver).resolve actions = r.resolve actions := by
  have hexpand : ∀ (requested : List (PackageKey × Target)) (packages : List Package),
      (actions.zip packages).foldlM (({ r with status := now } : Resolver).expand requested)
        Draft.empty = (actions.zip packages).foldlM (r.expand requested) Draft.empty := by
    intro requested packages
    refine foldlM_congr _ _ ?_
    rintro ⟨a, p⟩ he d
    have htarget := hactions a (List.of_mem_zip he).1
    obtain ⟨kind, target', key⟩ := a
    obtain rfl : target' = target := htarget
    cases kind with
    | install => exact expandInstall_of_status hnow d p.key
    | uninstall => exact expandUninstall_of_status hnow d p _
  unfold resolve
  refine bind_congr fun packages => ?_
  dsimp only
  rw [hexpand]
  rfl

end

/-- **The system and the user do not interfere.**  A request is resolved if its actions at
either target are; what it is resolved to at a target is what the actions there are resolved
to, and no requirement leads away from it; and that looks at nothing the store says about the
other target. -/
theorem targets_independent (r : Resolver) (actions : List Action) :
    ((∃ steps, r.resolve actions = .ok steps) ↔
      (∃ steps, r.resolve (actionsAt .system actions) = .ok steps) ∧
        ∃ steps, r.resolve (actionsAt .user actions) = .ok steps) ∧
      (∀ steps, r.resolve actions = .ok steps →
        (∀ target, r.resolve (actionsAt target actions) = .ok (stepsAt target steps)) ∧
          ∀ s ∈ steps, ∀ j ∈ s.requires, ∃ s', steps[j]? = some s' ∧ s'.target = s.target) ∧
      ∀ target now, (∀ key, now key target = r.status key target) →
        ({ r with status := now } : Resolver).resolve (actionsAt target actions) =
          r.resolve (actionsAt target actions) := by
  refine ⟨?_, fun steps h => ⟨resolve_actionsAt h, ?_⟩, fun target now hnow => ?_⟩
  · simp only [resolves_iff_resolvable]
    constructor
    · exact fun h => ⟨h.actionsAt .system, h.actionsAt .user⟩
    · rintro ⟨hsystem, huser⟩
      refine Resolvable.of_actionsAt fun target => ?_
      cases target with
      | system => exact hsystem
      | user => exact huser
  · exact fun s hs j hj => (realizes_arranged_of_resolve h).target_of_requires hs hj
  · exact resolve_eq_of_status hnow fun a ha => (mem_actionsAt.mp ha).2

/-- What the sample store says while it can tell nothing about the user. -/
def Sample.systemOnly (key : PackageKey) : Target → InstallStatus
  | .system => Sample.resolver.status key .system
  | .user => .unknown "offline"

/-- The removals of the sample plan come last; on their own they are numbered from the start,
whether or not the store can tell anything about the user. -/
theorem sample_targets_independent :
    stepsAt .system Sample.steps =
        [⟨Sample.named "tool", .system, .uninstall, ⟨0, "2"⟩, false, 0, []⟩,
          ⟨Sample.named "base", .system, .uninstall, ⟨0, "2"⟩, true, 1, [0]⟩] ∧
      ({ Sample.resolver with status := Sample.systemOnly } : Resolver).resolve
        (actionsAt .system Sample.request) = .ok (stepsAt .system Sample.steps) := by
  refine ⟨by decide +kernel, ?_⟩
  obtain ⟨-, hsteps, hstatus⟩ := targets_independent Sample.resolver Sample.request
  have honly := hstatus .system Sample.systemOnly fun _ => rfl
  exact honly.trans ((hsteps Sample.steps Sample.resolve_request).1 .system)

end Provision.Plan
