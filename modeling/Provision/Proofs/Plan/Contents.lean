import Provision.Proofs.Plan.Feasible

/-!
# What the steps of a request are

`Contents` tells the steps of a resolved request from the request, the snapshot and the
statuses: which packages are installed and which are removed, each once at a target, which
of the steps are marked as asked for, and their versions.  Everything is read off the
realized plan; that no package is both installed and removed takes the check for
contradictions.
-/
namespace Provision.Plan
open Relation Resolver

variable {r : Resolver} {actions : List Action}

/-- **What the steps of a request are.** -/
structure Contents (r : Resolver) (actions : List Action) (steps : List Step) : Prop where
  /-- No package is acted on twice at a target. -/
  distinct : (steps.map fun s => (s.key, s.target)).Nodup
  /-- Installed is what can be reached from a package to be installed, as far as it is not up
  to date. -/
  installs : ∀ key target,
    (∃ s ∈ steps, s.key = key ∧ s.target = target ∧ s.kind = .install) ↔
      (∃ root, (⟨.install, target, root⟩ : Action) ∈ actions ∧
        ReflTransGen r.snapshot.DependsOn root key) ∧ r.status key target ≠ .upToDate
  /-- Removed is what is installed and is, or depends on, an installed package to be
  uninstalled. -/
  uninstalls : ∀ key target,
    (∃ s ∈ steps, s.key = key ∧ s.target = target ∧ s.kind = .uninstall) ↔
      (r.status key target).isInstalled = true ∧
        ∃ root, (⟨.uninstall, target, root⟩ : Action) ∈ actions ∧
          (r.status root target).isInstalled = true ∧ ReflTransGen r.snapshot.DependsOn key root
  explicit : ∀ s ∈ steps, s.explicit = true ↔ (⟨s.kind, s.target, s.key⟩ : Action) ∈ actions
  version : ∀ s ∈ steps, ∃ p, r.snapshot.get? s.key = some p ∧ s.version = p.version

theorem Realizes.exists_step_iff {planned : List Change} {steps : List Step}
    (h : Realizes r actions planned steps) {key : PackageKey} {target : Target}
    {kind : ActionKind} : (∃ s ∈ steps, s.key = key ∧ s.target = target ∧ s.kind = kind) ↔
      (key, target, kind) ∈ planned := by
  rw [h.mem_planned]
  simp only [Step.change, Prod.mk.injEq]

/-- **The contents of a plan.** -/
theorem contents_of_resolve (r : Resolver) (hfaithful : r.snapshot.Faithful)
    (actions : List Action) (steps : List Step) (h : r.resolve actions = .ok steps) :
    Contents r actions steps := by
  have hgranted := (granted_of_resolve h).1
  have hrealizes := realizes_planned_of_resolve hfaithful h
  constructor
  case distinct =>
    have hplaces : steps.map (fun s => (s.key, s.target)) =
        (r.planned actions).map fun c => (c.1, c.2.1) := by
      rw [← hrealizes.change, List.map_map]
      rfl
    rw [hplaces]
    exact (r.nodup_planned actions).map_on fun c hc c' hc' => hgranted.eq_of_place hc hc'
  case installs =>
    intro key target
    rw [hrealizes.exists_step_iff, r.mem_planned_install]
    exact Iff.rfl
  case uninstalls =>
    intro key target
    rw [hrealizes.exists_step_iff, mem_planned_uninstall_iff hfaithful hgranted.offered]
  case explicit => exact hrealizes.explicit
  case version => exact hrealizes.version

theorem sample_contents : Sample.resolver.resolve Sample.request = .ok Sample.steps ∧
    Contents Sample.resolver Sample.request Sample.steps :=
  ⟨Sample.resolve_request, contents_of_resolve Sample.resolver Sample.faithful Sample.request
    Sample.steps Sample.resolve_request⟩

end Provision.Plan
