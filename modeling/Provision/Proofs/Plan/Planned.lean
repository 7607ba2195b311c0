import Provision.Plan.Resolver
import Provision.Proofs.Dependency
import Provision.Proofs.Distinct
import Provision.Proofs.Plan.Reachability

/-!
# What a request calls for

The resolver carries a draft from action to action; what an action adds to it depends on
what is there already.  The outcome does not: each action calls for certain changes, which
can be read off the snapshot and the statuses alone (`Resolver.called`), and a plan makes
the changes of all its actions in turn, each once (`Resolver.planned`).

`Realizes` is the plan written down as steps.  One step waits for another exactly if it
depends on it, for removals the other way round, directly or by way of packages that the
plan does not change (`Awaits`).  These data leave no choice
(`Realizes.unique`), so two resolutions can be compared by what they plan.
-/
namespace Provision

/-- The change that a step makes. -/
def Step.change (s : Step) : Change :=
  (s.key, s.target, s.kind)

theorem Step.change_eq_iff {s s' : Step} :
    s.change = s'.change ↔ s.key = s'.key ∧ s.target = s'.target ∧ s.kind = s'.kind := by
  simp only [Step.change, Prod.mk.injEq]

namespace Plan
open Relation

/-- **The order of changes.**  Among the changes of a plan, `c` has to wait for `c'`: an
install for the installs it depends on, a removal for the removals that depend on it,
packages that the plan does not change being looked through. -/
def Awaits (s : Snapshot) (planned : List Change) (c c' : Change) : Prop :=
  c.2 = c'.2 ∧
    match c.2.2 with
    | .install => s.DependsVia (fun key => (key, c.2) ∉ planned) c.1 c'.1
    | .uninstall => s.DependsVia (fun key => (key, c.2) ∉ planned) c'.1 c.1

/-- The order of changes looks at the plan as a set. -/
theorem Awaits.congr {s : Snapshot} {planned planned' : List Change}
    (hmem : ∀ c, c ∈ planned ↔ c ∈ planned') {c c' : Change} :
    Awaits s planned c c' ↔ Awaits s planned' c c' := by
  simp only [Awaits, hmem]

namespace Resolver
variable (r : Resolver) {actions : List Action} {key : PackageKey} {target : Target}

/-- The changes that an action calls for, in the order they are planned in. -/
def called (a : Action) : List Change :=
  match a.kind with
  | .install =>
    ((r.dependencies.reachable [a.key]).filter fun key => r.status key a.target ≠ .upToDate).map
      fun key => (key, a.target, .install)
  | .uninstall =>
    if (r.status a.key a.target).isInstalled then
      ((r.dependents.reachable [a.key]).filter fun key =>
        r.snapshot.contains key && (r.status key a.target).isInstalled).map
          fun key => (key, a.target, .uninstall)
    else []

theorem called_install (root : PackageKey) :
    r.called ⟨.install, target, root⟩ =
      ((r.dependencies.reachable [root]).filter fun key => r.status key target ≠ .upToDate).map
        fun key => (key, target, .install) := rfl

theorem called_uninstall {root : PackageKey} (h : (r.status root target).isInstalled = true) :
    r.called ⟨.uninstall, target, root⟩ =
      ((r.dependents.reachable [root]).filter fun key =>
        r.snapshot.contains key && (r.status key target).isInstalled).map
          fun key => (key, target, .uninstall) :=
  if_pos h

theorem called_uninstall_of_absent {root : PackageKey}
    (h : ¬ (r.status root target).isInstalled = true) :
    r.called ⟨.uninstall, target, root⟩ = [] :=
  if_neg h

/-- The changes that a request calls for, each where it is first called for. -/
def planned (actions : List Action) : List Change :=
  (actions.flatMap r.called).eraseDups

/-- Whether an install of the request needs a package present at a target. -/
def Needed (actions : List Action) (key : PackageKey) (target : Target) : Prop :=
  ∃ root, (⟨.install, target, root⟩ : Action) ∈ actions ∧
    ReflTransGen r.snapshot.DependsOn root key

/-- Whether a package goes away with one that is installed and to be removed. -/
def Doomed (actions : List Action) (key : PackageKey) (target : Target) : Prop :=
  ∃ root, (⟨.uninstall, target, root⟩ : Action) ∈ actions ∧
    (r.status root target).isInstalled = true ∧ ReflTransGen r.dependents.Leads root key

theorem mem_called_install {a : Action} : (key, target, .install) ∈ r.called a ↔
    ∃ root, a = ⟨.install, target, root⟩ ∧ ReflTransGen r.snapshot.DependsOn root key ∧
      r.status key target ≠ .upToDate := by
  obtain ⟨kind, target', root⟩ := a
  cases kind with
  | install =>
    simp only [called, List.mem_map, List.mem_filter, Digraph.mem_reachable_singleton,
      decide_eq_true_eq, Prod.mk.injEq, and_true, Action.mk.injEq, true_and]
    constructor
    · rintro ⟨_, ⟨hreach, hstatus⟩, rfl, rfl⟩
      exact ⟨root, ⟨rfl, rfl⟩, hreach, hstatus⟩
    · rintro ⟨_, ⟨rfl, rfl⟩, hreach, hstatus⟩
      exact ⟨key, ⟨hreach, hstatus⟩, rfl, rfl⟩
  | uninstall =>
    simp only [called]
    split <;> simp

theorem mem_called_uninstall {a : Action} : (key, target, .uninstall) ∈ r.called a ↔
    ∃ root, a = ⟨.uninstall, target, root⟩ ∧ (r.status root target).isInstalled = true ∧
      ReflTransGen r.dependents.Leads root key ∧ r.snapshot.contains key = true ∧
      (r.status key target).isInstalled = true := by
  obtain ⟨kind, target', root⟩ := a
  cases kind with
  | install => simp [called]
  | uninstall =>
    by_cases hroot : (r.status root target').isInstalled = true
    · simp only [called, hroot, if_true, List.mem_map, List.mem_filter,
        Digraph.mem_reachable_singleton, Bool.and_eq_true, Prod.mk.injEq, and_true,
        Action.mk.injEq, true_and]
      constructor
      · rintro ⟨_, ⟨hreach, hknown, hstatus⟩, rfl, rfl⟩
        exact ⟨root, ⟨rfl, rfl⟩, hroot, hreach, hknown, hstatus⟩
      · rintro ⟨_, ⟨rfl, rfl⟩, -, hreach, hknown, hstatus⟩
        exact ⟨key, ⟨hreach, hknown, hstatus⟩, rfl, rfl⟩
    · simp only [called, hroot, Action.mk.injEq, true_and]
      constructor
      · exact fun h => absurd h (by simp)
      · rintro ⟨_, ⟨rfl, rfl⟩, h, -⟩
        exact absurd h hroot

theorem nodup_called (a : Action) : (r.called a).Nodup := by
  have distinct : ∀ (g : Digraph PackageKey) (p : PackageKey → Bool) (kind : ActionKind),
      (((g.reachable [a.key]).filter p).map fun key => ((key, a.target, kind) : Change)).Nodup := by
    intro g p kind
    refine ((g.nodup_reachable _).filter p).map ?_
    intro key key' heq
    exact congrArg Prod.fst heq
  unfold called
  split
  · exact distinct _ _ _
  · split
    · exact distinct _ _ _
    · exact List.nodup_nil

/-- Whether a change that an action calls for is asked for: it is the one that the action
names, or the removal of a package in `requested`. -/
def Asks (requested : List (PackageKey × Target)) (a : Action) (c : Change) : Prop :=
  c ∈ r.called a ∧ (c = a.change ∨ (c.2.2 = .uninstall ∧ (c.1, c.2.1) ∈ requested))

theorem mem_planned {c : Change} : c ∈ r.planned actions ↔ ∃ a ∈ actions, c ∈ r.called a := by
  rw [planned, List.mem_eraseDups, List.mem_flatMap]

/-- An action calls for changes at its own target. -/
theorem target_of_mem_called {a : Action} {c : Change} (h : c ∈ r.called a) :
    c.2.1 = a.target := by
  obtain ⟨key, target, kind⟩ := c
  cases kind with
  | install =>
    obtain ⟨root, rfl, -⟩ := r.mem_called_install.mp h
    rfl
  | uninstall =>
    obtain ⟨root, rfl, -⟩ := r.mem_called_uninstall.mp h
    rfl

/-- Of a request, only the actions at the target of a change matter for its being planned. -/
theorem mem_planned_congr {actions' : List Action} {c : Change}
    (h : ∀ a : Action, a.target = c.2.1 → (a ∈ actions ↔ a ∈ actions')) :
    c ∈ r.planned actions ↔ c ∈ r.planned actions' := by
  rw [mem_planned, mem_planned]
  refine exists_congr fun a => and_congr_left fun hc => ?_
  exact h a (r.target_of_mem_called hc).symm

/-- What a plan installs: everything needed that is not up to date. -/
theorem mem_planned_install : (key, target, .install) ∈ r.planned actions ↔
    r.Needed actions key target ∧ r.status key target ≠ .upToDate := by
  simp only [mem_planned, mem_called_install, Needed]
  constructor
  · rintro ⟨_, ha, root, rfl, hreach, hstatus⟩
    exact ⟨⟨root, ha, hreach⟩, hstatus⟩
  · rintro ⟨⟨root, ha, hreach⟩, hstatus⟩
    exact ⟨_, ha, root, rfl, hreach, hstatus⟩

/-- What a plan removes: everything installed that goes away with a package to be removed. -/
theorem mem_planned_uninstall : (key, target, .uninstall) ∈ r.planned actions ↔
    r.Doomed actions key target ∧ r.snapshot.contains key = true ∧
      (r.status key target).isInstalled = true := by
  simp only [mem_planned, mem_called_uninstall, Doomed]
  constructor
  · rintro ⟨_, ha, root, rfl, hroot, hreach, hstatus⟩
    exact ⟨⟨root, ha, hroot, hreach⟩, hstatus⟩
  · rintro ⟨⟨root, ha, hroot, hreach⟩, hstatus⟩
    exact ⟨_, ha, root, rfl, hroot, hreach, hstatus⟩

theorem nodup_planned (actions : List Action) : (r.planned actions).Nodup :=
  nodup_eraseDups _

theorem planned_append (actions actions' : List Action) :
    r.planned (actions ++ actions') =
      (r.planned actions ++ actions'.flatMap r.called).eraseDups := by
  rw [planned, planned, List.flatMap_append, eraseDups_eraseDups_append]

end Resolver

/-- **Steps that realize a plan.**  They make the changes `planned`, in this order; of each,
everything else is determined. -/
structure Realizes (r : Resolver) (actions : List Action) (planned : List Change)
    (steps : List Step) : Prop where
  change : steps.map Step.change = planned
  order : ∀ (i : Nat) (s : Step), steps[i]? = some s → s.order = i
  /-- The version is the one on offer. -/
  version : ∀ s ∈ steps, ∃ p, r.snapshot.get? s.key = some p ∧ s.version = p.version
  /-- A step is explicit if the request asks for the very same. -/
  explicit : ∀ s ∈ steps, s.explicit = true ↔ (⟨s.kind, s.target, s.key⟩ : Action) ∈ actions
  requires : ∀ s ∈ steps, ∀ j, j ∈ s.requires ↔
    ∃ c, planned[j]? = some c ∧ Awaits r.snapshot planned s.change c
  ascending : ∀ s ∈ steps, s.requires.Pairwise (· < ·)

namespace Realizes
variable {r : Resolver} {actions : List Action} {planned : List Change} {steps steps' : List Step}

theorem getElem?_planned (h : Realizes r actions planned steps) (i : Nat) :
    planned[i]? = (steps[i]?).map Step.change := by
  rw [← h.change, List.getElem?_map]

/-- The change of a step is planned at its place. -/
theorem planned_getElem? (h : Realizes r actions planned steps) {i : Nat} {s : Step}
    (hs : steps[i]? = some s) : planned[i]? = some s.change := by
  rw [h.getElem?_planned, hs]
  rfl

/-- At the place of a planned change there is a step that makes it. -/
theorem exists_getElem? (h : Realizes r actions planned steps) {i : Nat} {c : Change}
    (hc : planned[i]? = some c) : ∃ s, steps[i]? = some s ∧ s.change = c := by
  rw [h.getElem?_planned] at hc
  exact Option.map_eq_some_iff.mp hc

theorem mem_planned (h : Realizes r actions planned steps) {c : Change} :
    c ∈ planned ↔ ∃ s ∈ steps, s.change = c := by
  rw [← h.change, List.mem_map]

/-- What steps realize does not depend on the statuses, nor on whether the planner cascades. -/
theorem of_snapshot (h : Realizes r actions planned steps) {r' : Resolver}
    (hsnapshot : r'.snapshot = r.snapshot) : Realizes r' actions planned steps where
  change := h.change
  order := h.order
  version := hsnapshot ▸ h.version
  explicit := h.explicit
  requires := hsnapshot ▸ h.requires
  ascending := h.ascending

/-- Steps that act on one package have one version, also in the plans of different requests. -/
theorem version_eq (h : Realizes r actions planned steps) {actions' : List Action}
    {planned' : List Change} (h' : Realizes r actions' planned' steps') {s s' : Step}
    (hs : s ∈ steps) (hs' : s' ∈ steps') (hkey : s.key = s'.key) : s.version = s'.version := by
  obtain ⟨p, hp, hversion⟩ := h.version s hs
  obtain ⟨p', hp', hversion'⟩ := h'.version s' hs'
  rw [hkey, hp'] at hp
  rw [hversion, hversion', Option.some.inj hp]

/-- Steps that make one change at one place, and require the same, can only differ in that the
one is asked for and the other is not. -/
theorem eq_of_change (h : Realizes r actions planned steps) {actions' : List Action}
    {planned' : List Change} (h' : Realizes r actions' planned' steps') {i : Nat} {s s' : Step}
    (hs : steps[i]? = some s) (hs' : steps'[i]? = some s') (hchange : s.change = s'.change)
    (hrequires : ∀ j, j ∈ s.requires ↔ j ∈ s'.requires) :
    s' = { s with explicit := s'.explicit } := by
  have hmem := List.mem_of_getElem? hs
  have hmem' := List.mem_of_getElem? hs'
  obtain ⟨hkey, htarget, hkind⟩ := Step.change_eq_iff.mp hchange
  have hversion : s.version = s'.version := h.version_eq h' hmem hmem' hkey
  have horder : s.order = s'.order := (h.order i s hs).trans (h'.order i s' hs').symm
  have hlists : s.requires = s'.requires :=
    eq_of_ascending (h.ascending s hmem) (h'.ascending s' hmem') hrequires
  cases s
  cases s'
  simp_all

/-- Steps at the same place of two realizations are equal. -/
theorem step_unique (h : Realizes r actions planned steps) (h' : Realizes r actions planned steps')
    {i : Nat} {s s' : Step} (hs : steps[i]? = some s) (hs' : steps'[i]? = some s') : s = s' := by
  have hmem := List.mem_of_getElem? hs
  have hmem' := List.mem_of_getElem? hs'
  have hchange : s.change = s'.change :=
    Option.some.inj ((h.planned_getElem? hs).symm.trans (h'.planned_getElem? hs'))
  have hsame : s' = { s with explicit := s'.explicit } := by
    refine h.eq_of_change h' hs hs' hchange fun j => ?_
    rw [h.requires s hmem, h'.requires s' hmem', hchange]
  have hexplicit : s.explicit = s'.explicit := by
    obtain ⟨hkey, htarget, hkind⟩ := Step.change_eq_iff.mp hchange
    rw [Bool.eq_iff_iff, h.explicit s hmem, h'.explicit s' hmem', hkey, htarget, hkind]
  rw [hsame, ← hexplicit]

/-- **A plan is realized in one way.** -/
theorem unique (h : Realizes r actions planned steps) (h' : Realizes r actions planned steps') :
    steps = steps' := by
  refine List.ext_getElem? fun i => ?_
  have heq := (h.getElem?_planned i).symm.trans (h'.getElem?_planned i)
  cases hs : steps[i]? with
  | none =>
    rw [hs] at heq
    exact (Option.map_eq_none_iff.mp heq.symm).symm
  | some s =>
    rw [hs] at heq
    obtain ⟨s', hs', -⟩ := Option.map_eq_some_iff.mp heq.symm
    rw [hs', h.step_unique h' hs hs']

end Realizes
end Plan
end Provision
