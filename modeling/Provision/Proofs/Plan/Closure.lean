import Provision.Proofs.Plan.Application
import Provision.Proofs.Plan.Feasible

/-!
# Dependencies stay installed

A store is closed for a snapshot when every installed package has its dependencies installed
at the same target.  Applying a resolved plan keeps a store closed at every moment, not only
at the end: two packages of which one depends on the other are never torn apart.

What is installed after some steps follows from which steps they are (`After`), so the proof
looks at one dependency and at the steps of its two ends.  A new package brought its
dependencies along, and they came first; a package that stays keeps its dependencies, since
they go after it.
-/
namespace Provision.Plan
open Relation Resolver

/-- Whether every installed package has its dependencies installed at the same target. -/
def DependencyClosed (snapshot : Snapshot) (s : ScriptedStore) : Prop :=
  ∀ key target, (s.installed? key target).isSome = true →
    ∀ dependency, snapshot.DependsOn key dependency →
      (s.installed? dependency target).isSome = true

/-- It is enough to look at the entries of the store. -/
theorem dependencyClosed_iff {snapshot : Snapshot} {s : ScriptedStore} :
    DependencyClosed snapshot s ↔ ∀ entry ∈ s.installed,
      ∀ dependency ∈ snapshot.dependenciesOf entry.1.1,
        (s.installed? dependency entry.1.2).isSome = true := by
  simp only [DependencyClosed, ScriptedStore.installed?, List.lookup_isSome_iff]
  constructor
  · intro h entry hentry dependency hdep
    exact h entry.1.1 entry.1.2 ⟨entry, hentry, by simp⟩ dependency hdep
  · rintro h key target ⟨entry, hentry, heq⟩ dependency hdep
    obtain ⟨⟨key', target'⟩, upToDate⟩ := entry
    cases beq_iff_eq.mp heq
    exact h _ hentry dependency hdep

instance (snapshot : Snapshot) (s : ScriptedStore) : Decidable (DependencyClosed snapshot s) :=
  decidable_of_iff _ dependencyClosed_iff.symm

variable {r : Resolver} {actions : List Action} {planned : List Change} {steps : List Step}
  {done : List Nat} {key dependency : PackageKey} {target : Target}

/-- An install comes after those of its dependencies. -/
theorem Realizes.install_dependency (h : Realizes r actions planned steps)
    (hclosed : RequiresClosed steps done) (hkey : (key, target, .install) ∈ carried steps done)
    (hdep : r.snapshot.DependsOn key dependency)
    (hplanned : (dependency, target, .install) ∈ planned) :
    (dependency, target, .install) ∈ carried steps done :=
  h.mem_carried hclosed hkey hplanned ⟨rfl, hdep.via⟩

/-- A removal comes after those of what depends on its package. -/
theorem Realizes.uninstall_dependent (h : Realizes r actions planned steps)
    (hclosed : RequiresClosed steps done)
    (hdependency : (dependency, target, .uninstall) ∈ carried steps done)
    (hdep : r.snapshot.DependsOn key dependency)
    (hplanned : (key, target, .uninstall) ∈ planned) :
    (key, target, .uninstall) ∈ carried steps done :=
  h.mem_carried hclosed hdependency hplanned ⟨rfl, hdep.via⟩

/-- What depends on something removed is removed, if it is installed. -/
theorem planned_of_dependsOn (hdep : r.snapshot.DependsOn key dependency)
    (hdependency : (dependency, target, .uninstall) ∈ r.planned actions)
    (hinst : (r.status key target).isInstalled = true) :
    (key, target, .uninstall) ∈ r.planned actions := by
  obtain ⟨⟨root, ha, hroot, hreach⟩, -⟩ := r.mem_planned_uninstall.mp hdependency
  refine r.mem_planned_uninstall.mpr ⟨⟨root, ha, hroot, ?_⟩, ?_, hinst⟩
  · exact hreach.tail hdep.mem_dependentsOf
  · exact contains_of_transGen (TransGen.single hdep)

/-- **A closed store stays closed** while a plan is applied, in whatever order respects the
requirements of its steps, whatever fails on the way, and wherever it stops. -/
theorem dependencyClosed_of_applying (snapshot : Snapshot) (start : ScriptedStore)
    (htells : start.Tells) (hclosed : DependencyClosed snapshot start) (actions : List Action)
    (cascade : Bool) (steps : List Step)
    (hresolve : (Resolver.ofStore snapshot start cascade).resolve actions = .ok steps)
    (id : UInt32) (done : List Nat) (s : ScriptedStore)
    (hrun : Applying snapshot id steps start done s) : DependencyClosed snapshot s := by
  obtain ⟨hgranted, planned, hperm, hrealizes, -⟩ := realizes_of_resolve hresolve
  have hplanned := fun {c : Change} (hc : c ∈ carried steps done) =>
    hperm.mem_iff.mp (hrealizes.planned_of_carried hc)
  have hafter := hrun.after (hrealizes.unopposed hgranted hperm)
  have hrequires := hrun.requiresClosed
  intro key target hinst dependency hdep
  by_cases hnew : (dependency, target, ActionKind.install) ∈ carried steps done
  · rw [hafter.installed dependency target hnew]
    rfl
  by_cases hkey : (key, target, ActionKind.install) ∈ carried steps done
  · -- The dependency was needed as well, so it stays, and was up to date before.
    obtain ⟨⟨root, ha, hreach⟩, -⟩ := mem_planned_install _ |>.mp (hplanned hkey)
    have hneeded : (Resolver.ofStore snapshot start cascade).Needed actions dependency target :=
      ⟨root, ha, hreach.tail hdep⟩
    have hstays : (dependency, target, ActionKind.uninstall) ∉ carried steps done :=
      fun h => (hgranted.compatible dependency target hneeded).2 (hplanned h)
    have hstatus : start.status dependency target = .upToDate := by
      refine Classical.byContradiction fun hne => hnew ?_
      refine hrealizes.install_dependency hrequires hkey hdep ?_
      exact hperm.mem_iff.mpr ((mem_planned_install _).mpr ⟨hneeded, hne⟩)
    rw [hafter.kept dependency target hnew hstays, htells.upToDate_iff.mp hstatus]
    rfl
  · -- The package was there before and stays, so its dependency was and cannot go yet.
    have hstays : (key, target, ActionKind.uninstall) ∉ carried steps done := by
      intro h
      rw [hafter.removed key target h] at hinst
      cases hinst
    rw [hafter.kept key target hkey hstays] at hinst
    have hdependency : (dependency, target, ActionKind.uninstall) ∉ carried steps done := by
      intro h
      refine hstays (hrealizes.uninstall_dependent hrequires h hdep (hperm.mem_iff.mpr ?_))
      exact planned_of_dependsOn hdep (hplanned h) (htells.isInstalled_iff.mpr hinst)
    rw [hafter.kept dependency target hnew hdependency]
    exact hclosed key target hinst dependency hdep

/-- The sample plan stopped after its first and its third step. -/
theorem sample_dependencyClosed :
    DependencyClosed Sample.snapshot Sample.store ∧ ∃ s,
      Applying Sample.snapshot 0 Sample.steps Sample.store [2, 0] s ∧
        DependencyClosed Sample.snapshot s := by
  have hclosed : DependencyClosed Sample.snapshot Sample.store := by decide +kernel
  have hstart : Applying Sample.snapshot 0 Sample.steps Sample.store [] Sample.store :=
    Applying.initially
  have hrun := (hstart.applied (i := 0) rfl (by decide) (by decide +kernel)).applied (i := 2) rfl
    (by decide) (by decide +kernel)
  exact ⟨hclosed, _, hrun, dependencyClosed_of_applying Sample.snapshot Sample.store ⟨rfl, rfl⟩
    hclosed Sample.request true Sample.steps Sample.resolve_request 0 [2, 0] _ hrun⟩

end Provision.Plan
