import Provision.Proofs.Plan.Closure
import Provision.Proofs.Plan.Running

/-!
# Plans that are carried out later

A plan is made for one store and may be carried out on another, since other plans may come in
between.  Whether that is sound shows at the time: `Fits` says that nothing an install depends
on is missing and that nothing depends on what is removed, the steps of the plan included.

A plan fits the store it has been made for (`fits_of_resolve`), and as much as is carried out
of a plan on a closed store that it fits leaves the store closed (`closed_of_after`).  No
weaker condition would do: if all of a plan has been carried out and the store is closed, the
plan has fitted (`fits_of_closed`).
-/
namespace Provision.Plan
open Relation Resolver Execution ScriptedStore

/-- **Whether a plan fits a store.** -/
structure Fits (snapshot : Snapshot) (steps : List Step) (s : ScriptedStore) : Prop where
  /-- What an installed package depends on is there or is installed, too. -/
  installs : ∀ key target, (key, target, .install) ∈ steps.map Step.change →
    ∀ dependency, snapshot.DependsOn key dependency →
      (s.installed? dependency target).isSome = true ∨
        (dependency, target, .install) ∈ steps.map Step.change
  /-- What depends on a removed package is not there or is removed, too. -/
  removals : ∀ key target, (s.installed? key target).isSome = true →
    ∀ dependency, snapshot.DependsOn key dependency →
      (dependency, target, .uninstall) ∈ steps.map Step.change →
        (key, target, .uninstall) ∈ steps.map Step.change

/-- It is enough to look at the steps and at the entries of the store. -/
theorem fits_iff {snapshot : Snapshot} {steps : List Step} {s : ScriptedStore} :
    Fits snapshot steps s ↔
      (∀ step ∈ steps, step.kind = .install → ∀ dependency ∈ snapshot.dependenciesOf step.key,
        (s.installed? dependency step.target).isSome = true ∨
          (dependency, step.target, .install) ∈ steps.map Step.change) ∧
      ∀ entry ∈ s.installed, ∀ dependency ∈ snapshot.dependenciesOf entry.1.1,
        (dependency, entry.1.2, .uninstall) ∈ steps.map Step.change →
          (entry.1.1, entry.1.2, .uninstall) ∈ steps.map Step.change := by
  constructor
  · intro h
    refine ⟨fun step hstep hkind dependency hdep => ?_, fun entry hentry dependency hdep => ?_⟩
    · refine h.installs step.key step.target ?_ dependency hdep
      exact List.mem_map.mpr ⟨step, hstep, by rw [Step.change, hkind]⟩
    · refine h.removals entry.1.1 entry.1.2 ?_ dependency hdep
      exact List.lookup_isSome_iff.mpr ⟨entry, hentry, beq_self_eq_true entry.1⟩
  · rintro ⟨hinstalls, hremovals⟩
    constructor
    case installs =>
      intro key target hplanned dependency hdep
      obtain ⟨⟨key', target', kind, version, explicit, order, requires⟩, hstep, heq⟩ :=
        List.mem_map.mp hplanned
      cases heq
      exact hinstalls _ hstep rfl dependency hdep
    case removals =>
      intro key target hinst dependency hdep
      obtain ⟨⟨⟨key', target'⟩, upToDate⟩, hentry, heq⟩ := List.lookup_isSome_iff.mp hinst
      cases beq_iff_eq.mp heq
      exact hremovals _ hentry dependency hdep

instance (snapshot : Snapshot) (steps : List Step) (s : ScriptedStore) :
    Decidable (Fits snapshot steps s) :=
  decidable_of_iff _ fits_iff.symm

variable {r : Resolver} {actions : List Action} {steps : List Step} {done : List Nat}
  {snapshot : Snapshot} {start s : ScriptedStore}

/-- **A plan fits the store that it has been made for.** -/
theorem fits_of_resolve {cascade : Bool} (hfixed : start.fixedStatus = [])
    (hresolve : (Resolver.ofStore snapshot start cascade).resolve actions = .ok steps) :
    Fits snapshot steps start := by
  have hgranted := (realizes_of_resolve hresolve).1
  constructor
  case installs =>
    intro key target hkey dependency hdep
    rw [mem_changes_of_resolve hresolve] at hkey ⊢
    obtain ⟨⟨root, ha, hreach⟩, -⟩ := (mem_planned_install _).mp hkey
    have hneeded := hreach.tail hdep
    obtain ⟨⟨-, -, -, hknown⟩, -⟩ := hgranted.obtainable root target ha dependency hneeded
    by_cases hstatus : start.status dependency target = .upToDate
    · rw [(upToDate_iff_of_known hfixed hknown).mp hstatus]
      exact Or.inl rfl
    · exact Or.inr ((mem_planned_install _).mpr ⟨⟨root, ha, hneeded⟩, hstatus⟩)
  case removals =>
    intro key target hinst dependency hdep hdependency
    rw [mem_changes_of_resolve hresolve] at hdependency ⊢
    obtain ⟨⟨root, ha, hroot, hreach⟩, -⟩ := (mem_planned_uninstall _).mp hdependency
    -- The store could tell of everything above the package that was to go.
    have hknown : (start.status key target).Known := by
      by_cases hkey : key = root
      · rw [hkey]
        exact (hgranted.removable root target ha).known
      · refine (hgranted.removable root target ha).dependents hroot key ?_ ?_
        · exact mem_above.mpr ⟨hreach.tail hdep.mem_dependentsOf, hkey⟩
        · exact contains_of_transGen (TransGen.single hdep)
    refine planned_of_dependsOn hdep hdependency ((isInstalled_iff_of_known hfixed hknown).mpr ?_)
    exact Option.isSome_iff_ne_none.mp hinst

/-- **A closed store stays closed** if as much as is wanted of a plan is carried out on it that
fits it. -/
theorem closed_of_after (hresolve : r.resolve actions = .ok steps)
    (hclosed : DependencyClosed r.snapshot start) (hfits : Fits r.snapshot steps start)
    (hrequires : RequiresClosed steps done) (hafter : After steps start done s) :
    DependencyClosed r.snapshot s := by
  obtain ⟨hgranted, planned, -, hrealizes, -⟩ := realizes_of_resolve hresolve
  intro key target hinst dependency hdep
  by_cases hnew : (dependency, target, ActionKind.install) ∈ carried steps done
  · rw [hafter.installed dependency target hnew]
    rfl
  by_cases hkey : (key, target, ActionKind.install) ∈ carried steps done
  · -- The dependency is needed as well, so it stays, and it has been there from the start.
    have hplanned := mem_changes_of_carried hkey
    have hstays : (dependency, target, ActionKind.uninstall) ∉ carried steps done := by
      intro h
      rw [mem_changes_of_resolve hresolve] at hplanned
      obtain ⟨⟨root, ha, hreach⟩, -⟩ := r.mem_planned_install.mp hplanned
      exact (hgranted.compatible dependency target ⟨root, ha, hreach.tail hdep⟩).2
        ((mem_changes_of_resolve hresolve).mp (mem_changes_of_carried h))
    rw [hafter.kept dependency target hnew hstays]
    refine (hfits.installs key target hplanned dependency hdep).resolve_right fun h => hnew ?_
    exact hrealizes.install_dependency hrequires hkey hdep (hrealizes.change ▸ h)
  · -- The package has been there and stays, so its dependency cannot have gone before it.
    have hstays : (key, target, ActionKind.uninstall) ∉ carried steps done := by
      intro h
      rw [hafter.removed key target h] at hinst
      cases hinst
    rw [hafter.kept key target hkey hstays] at hinst
    have hdependency : (dependency, target, ActionKind.uninstall) ∉ carried steps done := by
      intro h
      have hgoes := hfits.removals key target hinst dependency hdep (mem_changes_of_carried h)
      exact hstays (hrealizes.uninstall_dependent hrequires h hdep (hrealizes.change ▸ hgoes))
    rw [hafter.kept dependency target hnew hdependency]
    exact hclosed key target hinst dependency hdep

/-- **A plan that has led to a closed store has fitted.** -/
theorem fits_of_closed (hresolve : r.resolve actions = .ok steps)
    (hfulfilled : Fulfilled r actions start s) (hclosed : DependencyClosed r.snapshot s) :
    Fits r.snapshot steps start := by
  constructor
  case installs =>
    intro key target hkey dependency hdep
    rw [mem_changes_of_resolve hresolve] at hkey ⊢
    have hinst : (s.installed? dependency target).isSome = true := by
      refine hclosed key target ?_ dependency hdep
      rw [hfulfilled.installed key target hkey]
      rfl
    refine or_iff_not_imp_right.mpr fun hinstall => ?_
    rwa [hfulfilled.kept dependency target hinstall fun huninstall => ?_] at hinst
    rw [hfulfilled.removed dependency target huninstall] at hinst
    cases hinst
  case removals =>
    intro key target hinst dependency hdep hdependency
    rw [mem_changes_of_resolve hresolve] at hdependency ⊢
    refine Classical.byContradiction fun hstays => ?_
    have hkey : (s.installed? key target).isSome = true := by
      by_cases hinstall : (key, target, ActionKind.install) ∈ r.planned actions
      · rw [hfulfilled.installed key target hinstall]
        rfl
      · rwa [hfulfilled.kept key target hinstall hstays]
    have hafter := hclosed key target hkey dependency hdep
    rw [hfulfilled.removed dependency target hdependency] at hafter
    cases hafter

/-! ## Running a plan that was made for some other store -/

/-- Steps that have been resolved for some store. -/
def Resolved (snapshot : Snapshot) (steps : List Step) : Prop :=
  ∃ r : Resolver, r.snapshot = snapshot ∧ ∃ actions, r.resolve actions = .ok steps

namespace Resolved

variable {id : UInt32} {mode : Mode} {cancelled : Cancellation}

theorem fixedStatus_run (h : Resolved snapshot steps) :
    (runSteps (context snapshot id) mode cancelled steps start).state.fixedStatus =
      start.fixedStatus := by
  obtain ⟨r, rfl, actions, hresolve⟩ := h
  obtain ⟨stages, solo, hran⟩ := exists_ran_of_resolve hresolve r.snapshot id mode cancelled start
  exact hran.after.fixedStatus

/-- **A run of a plan that fits** leaves a closed store closed, whatever fails or is
cancelled. -/
theorem closed_run (h : Resolved snapshot steps) (hclosed : DependencyClosed snapshot start)
    (hfits : Fits snapshot steps start) : DependencyClosed snapshot
      (runSteps (context snapshot id) mode cancelled steps start).state := by
  obtain ⟨r, rfl, actions, hresolve⟩ := h
  obtain ⟨stages, solo, hran⟩ := exists_ran_of_resolve hresolve r.snapshot id mode cancelled start
  exact closed_of_after hresolve hclosed hfits hran.requiresClosed hran.after

/-- **A run that succeeds and leaves the store closed** is one of a plan that has fitted. -/
theorem fits_of_closed_run (h : Resolved snapshot steps)
    (hdone : (runSteps (context snapshot id) mode cancelled steps start).outcome = .done ())
    (hclosed : DependencyClosed snapshot
      (runSteps (context snapshot id) mode cancelled steps start).state) :
    Fits snapshot steps start := by
  obtain ⟨r, rfl, actions, hresolve⟩ := h
  obtain ⟨stages, solo, hran⟩ := exists_ran_of_resolve hresolve r.snapshot id mode cancelled start
  exact fits_of_closed hresolve (hran.fulfilled hresolve hdone) hclosed

end Resolved

end Provision.Plan
