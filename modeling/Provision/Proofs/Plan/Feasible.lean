import Provision.Proofs.Plan.Realization
import Provision.Store.Scripted

/-!
# Which requests are resolved

`Feasible` lists what a request has to satisfy in terms of the packages, their dependencies
and their statuses.  When every key of the snapshot names its package, this is exactly when
resolution succeeds.

A granted request can only fail on a cycle among its steps.  Installs never close one, since
what they need lies on none.  Removals wait for each other against the dependencies, so a
cycle of removals is one of dependencies, and conversely a removed package on a cycle of
dependencies waits for itself, with the packages between that are not removed looked through
(`acyclic_of_resolve`).  Without such packages the changes are called for in an order that
will do (`ascending_planned`), although the walks that call for removals know nothing of
cycles.
-/
namespace Provision.Plan
open Relation Resolver StepGraph

variable {r : Resolver} {actions : List Action} {key key' : PackageKey} {target : Target}

/-! ## Removals on a cycle are refused -/

/-- Removals that depend on each other stand in the order that puts dependents first. -/
theorem Realizes.lt_of_dependsVia {planned : List Change} {steps : List Step}
    (h : Realizes r actions planned steps) (hlt : ∀ s ∈ steps, ∀ j ∈ s.requires, j < s.order)
    {i j : Nat} (hi : planned[i]? = some (key, target, .uninstall))
    (hj : planned[j]? = some (key', target, .uninstall))
    (hvia : r.snapshot.DependsVia (fun x => (x, target, .uninstall) ∉ planned) key key') :
    i < j := by
  obtain ⟨s, hs, hchange⟩ := h.exists_getElem? hj
  have hmem := List.mem_of_getElem? hs
  have hawaits : Awaits r.snapshot planned s.change (key, target, .uninstall) := by
    rw [hchange]
    exact ⟨rfl, hvia⟩
  have hrequires := (h.requires s hmem i).mpr ⟨_, hi, hawaits⟩
  rw [← h.order j s hs]
  exact hlt s hmem i hrequires

/-- **Packages that are removed lie on no cycle**, if a request is resolved. -/
theorem acyclic_of_resolve {steps : List Step} (h : r.resolve actions = .ok steps)
    (hkey : (key, target, .uninstall) ∈ r.planned actions) :
    ¬ TransGen r.snapshot.DependsOn key key := by
  obtain ⟨-, planned, hperm, hrealizes, hlt⟩ := realizes_of_resolve h
  intro hcycle
  -- The cycle is one of dependencies between packages that are removed.
  have hchain := Snapshot.transGen_dependsVia
    (fun x => (x, target, ActionKind.uninstall) ∉ planned)
    (not_not_intro (hperm.mem_iff.mpr hkey)) hcycle
  have hplace : ∀ x, (x, target, ActionKind.uninstall) ∈ planned →
      planned[planned.idxOf (x, target, ActionKind.uninstall)]? =
        some (x, target, ActionKind.uninstall) :=
    fun x hx => List.getElem?_idxOf hx
  -- The places along the cycle go up, so no cycle comes back to its start.
  have hup : ∀ y, TransGen (fun x y => r.snapshot.DependsVia
      (fun x => (x, target, ActionKind.uninstall) ∉ planned) x y ∧
        ¬ (y, target, ActionKind.uninstall) ∉ planned) key y →
      (y, target, ActionKind.uninstall) ∈ planned ∧
        planned.idxOf (key, target, ActionKind.uninstall) <
          planned.idxOf (y, target, ActionKind.uninstall) := by
    intro y hy
    induction hy with
    | single hy =>
      have hmem := Classical.not_not.mp hy.2
      exact ⟨hmem, hrealizes.lt_of_dependsVia hlt (hplace _ (hperm.mem_iff.mpr hkey))
        (hplace _ hmem) hy.1⟩
    | tail _ hy ih =>
      have hmem := Classical.not_not.mp hy.2
      exact ⟨hmem, ih.2.trans (hrealizes.lt_of_dependsVia hlt (hplace _ ih.1)
        (hplace _ hmem) hy.1)⟩
  exact absurd (hup key hchain).2 (Nat.lt_irrefl _)

/-! ## The order in which changes are called for -/

/-- What precedes a change in a plan precedes it among what some action calls for. -/
theorem exists_called_of_planned {i : Nat} {c : Change}
    (hi : (r.planned actions)[i]? = some c) :
    ∃ a ∈ actions, c ∈ r.called a ∧ ∃ pre, pre ++ [c] <+: r.called a ∧
      ∀ c' ∈ pre, ∃ j < i, (r.planned actions)[j]? = some c' := by
  obtain ⟨pre, hpre, -, hsubset⟩ := exists_prefix_of_eraseDups (prefix_of_getElem? hi)
  obtain ⟨a, ha, pre', hpre', hsubset'⟩ := exists_prefix_of_flatMap hpre
  refine ⟨a, ha, hpre'.subset (by simp), pre', hpre', fun c' hc' => ?_⟩
  exact exists_lt_of_mem_take (hsubset c' (hsubset' c' hc'))

/-- An install is called for after the installs it depends on. -/
theorem lt_of_dependsVia_install (h : Granted r actions) {i j : Nat}
    (hi : (r.planned actions)[i]? = some (key, target, .install))
    (hj : (r.planned actions)[j]? = some (key', target, .install))
    (hdep : TransGen r.snapshot.DependsOn key key') : j < i := by
  obtain ⟨a, ha, hcalled, pre, hpre, hearlier⟩ := exists_called_of_planned hi
  obtain ⟨root, rfl, hreach, -⟩ := r.mem_called_install.mp hcalled
  rw [called_install] at hpre
  obtain ⟨init, x, hx, hinit, hselected⟩ := exists_prefix_of_map_filter hpre
  cases hx
  -- The walk that called for `key` left `key'` before, and a plan makes a change once.
  have hacyclic := (h.obtainable root target ha key hreach).2
  have hmem : key' ∈ init := Digraph.mem_of_transGen hinit hacyclic hdep
  have hstatus := (r.mem_planned_install.mp (List.mem_of_getElem? hj)).2
  obtain ⟨j', hlt, hj'⟩ := hearlier _ (hselected key' hmem (by simpa using hstatus))
  rw [eq_of_getElem?_of_nodup (r.nodup_planned actions) hj hj']
  exact hlt

/-- Dependents follow the dependencies backwards. -/
theorem transGen_dependents (h : r.snapshot.Faithful) :
    TransGen r.dependents.Leads key key' ↔ TransGen r.snapshot.DependsOn key' key := by
  have hrel : r.dependents.Leads = Function.swap r.snapshot.DependsOn :=
    funext fun x => funext fun y => propext h.mem_dependentsOf_iff
  rw [hrel, transGen_swap]

/-- A removal is called for after the removals that depend on it, unless its package lies on
a cycle. -/
theorem lt_of_dependsVia_uninstall (h : r.snapshot.Faithful)
    (hacyclic : ¬ TransGen r.snapshot.DependsOn key key) {i j : Nat}
    (hi : (r.planned actions)[i]? = some (key, target, .uninstall))
    (hj : (r.planned actions)[j]? = some (key', target, .uninstall))
    (hdep : TransGen r.snapshot.DependsOn key' key) : j < i := by
  obtain ⟨a, ha, hcalled, pre, hpre, hearlier⟩ := exists_called_of_planned hi
  obtain ⟨root, rfl, hroot, -⟩ := r.mem_called_uninstall.mp hcalled
  rw [called_uninstall r hroot] at hpre
  obtain ⟨init, x, hx, hinit, hselected⟩ := exists_prefix_of_map_filter hpre
  cases hx
  rw [← transGen_dependents h] at hacyclic hdep
  have hmem : key' ∈ init := Digraph.mem_of_transGen hinit hacyclic hdep
  obtain ⟨-, hcontains, hinst⟩ := r.mem_planned_uninstall.mp (List.mem_of_getElem? hj)
  obtain ⟨j', hlt, hj'⟩ := hearlier _ (hselected key' hmem (by rw [hcontains, hinst]; rfl))
  rw [eq_of_getElem?_of_nodup (r.nodup_planned actions) hj hj']
  exact hlt

/-- **Without cycles among the removed packages, changes are called for in order.** -/
theorem ascending_planned (hfaithful : r.snapshot.Faithful) (h : Granted r actions)
    (hacyclic : ∀ (key : PackageKey) (target : Target),
      (key, target, ActionKind.uninstall) ∈ r.planned actions →
        ¬ TransGen r.snapshot.DependsOn key key)
    (i j : Nat) (c c' : Change) (hi : (r.planned actions)[i]? = some c)
    (hj : (r.planned actions)[j]? = some c')
    (hawaits : Awaits r.snapshot (r.planned actions) c c') : j < i := by
  obtain ⟨key, target, kind⟩ := c
  obtain ⟨key', target', kind'⟩ := c'
  obtain ⟨heq, hvia⟩ := hawaits
  cases heq
  cases kind with
  | install => exact lt_of_dependsVia_install h hi hj hvia.transGen
  | uninstall =>
    exact lt_of_dependsVia_uninstall hfaithful (hacyclic key target (List.mem_of_getElem? hi)) hi hj
      hvia.transGen

/-! ## Feasible requests -/

/-- **What a request has to satisfy.** -/
structure Feasible (r : Resolver) (actions : List Action) : Prop where
  /-- Every action names a package that is on offer at its target. -/
  offered : ∀ a ∈ actions, ∃ p, r.snapshot.get? a.key = some p ∧ p.supports a.target = true
  /-- Whatever can be reached from a package to be installed is on offer at the target, has
  a known status and lies on no cycle. -/
  installs : ∀ root target, (⟨.install, target, root⟩ : Action) ∈ actions →
    ∀ key, ReflTransGen r.snapshot.DependsOn root key →
      (∃ p, r.snapshot.get? key = some p ∧ p.supports target = true) ∧
        (r.status key target).Known ∧ ¬ TransGen r.snapshot.DependsOn key key
  /-- A package to be uninstalled has a known status; if it is installed, so has everything
  that depends on it, and unless the planner cascades, what is installed of that is to be
  uninstalled, too. -/
  removals : ∀ root target, (⟨.uninstall, target, root⟩ : Action) ∈ actions →
    (r.status root target).Known ∧ ((r.status root target).isInstalled = true →
      ∀ key, key ≠ root → TransGen r.snapshot.DependsOn key root →
        (r.status key target).Known ∧ (r.cascade = false →
          (r.status key target).isInstalled = true →
            (⟨.uninstall, target, key⟩ : Action) ∈ actions))
  /-- Nothing that an install needs is to be uninstalled, or depends on something that is. -/
  disjoint : ∀ root target, (⟨.install, target, root⟩ : Action) ∈ actions →
    ∀ key, ReflTransGen r.snapshot.DependsOn root key →
      ∀ removed, (⟨.uninstall, target, removed⟩ : Action) ∈ actions →
        ¬ ReflTransGen r.snapshot.DependsOn key removed
  /-- What is removed lies on no cycle. -/
  acyclic : ∀ root target, (⟨.uninstall, target, root⟩ : Action) ∈ actions →
    (r.status root target).isInstalled = true → ∀ key, (r.status key target).isInstalled = true →
      ReflTransGen r.snapshot.DependsOn key root → ¬ TransGen r.snapshot.DependsOn key key

/-- A package with dependencies is in the snapshot. -/
theorem contains_of_transGen {s : Snapshot} (h : TransGen s.DependsOn key key') :
    s.contains key = true := by
  obtain ⟨first, hfirst, -⟩ := TransGen.head'_iff.mp h
  obtain ⟨p, hp, -⟩ := Snapshot.dependsOn_iff.mp hfirst
  rw [Snapshot.contains, hp]
  rfl

theorem reach_dependents (h : r.snapshot.Faithful) :
    ReflTransGen r.dependents.Leads key key' ↔ ReflTransGen r.snapshot.DependsOn key' key := by
  rw [reflTransGen_iff_eq_or_transGen, reflTransGen_iff_eq_or_transGen, transGen_dependents h,
    eq_comm]

theorem mem_above_iff (h : r.snapshot.Faithful) {root : PackageKey} :
    key ∈ r.above root ↔ key ≠ root ∧ TransGen r.snapshot.DependsOn key root := by
  rw [mem_above, reach_dependents h, reflTransGen_iff_eq_or_transGen]
  constructor
  · rintro ⟨rfl | htrans, hne⟩
    · exact absurd rfl hne
    · exact ⟨hne, htrans⟩
  · rintro ⟨hne, htrans⟩
    exact ⟨Or.inr htrans, hne⟩

/-- What a plan removes, when every key names its package. -/
theorem mem_planned_uninstall_iff (h : r.snapshot.Faithful)
    (hoffered : ∀ a ∈ actions, ∃ p, r.snapshot.get? a.key = some p ∧ p.supports a.target = true) :
    (key, target, .uninstall) ∈ r.planned actions ↔ (r.status key target).isInstalled = true ∧
      ∃ root, (⟨.uninstall, target, root⟩ : Action) ∈ actions ∧
        (r.status root target).isInstalled = true ∧ ReflTransGen r.snapshot.DependsOn key root := by
  rw [r.mem_planned_uninstall]
  simp only [Doomed, reach_dependents h]
  constructor
  · rintro ⟨hdoomed, -, hinst⟩
    exact ⟨hinst, hdoomed⟩
  · rintro ⟨hinst, root, ha, hroot, hreach⟩
    refine ⟨⟨root, ha, hroot, hreach⟩, ?_, hinst⟩
    rcases reflTransGen_iff_eq_or_transGen.mp hreach with rfl | htrans
    · obtain ⟨p, hp, -⟩ := hoffered _ ha
      rw [Snapshot.contains, hp]
      rfl
    · exact contains_of_transGen htrans

theorem Feasible.granted (hfaithful : r.snapshot.Faithful) (h : Feasible r actions) :
    Granted r actions where
  offered := h.offered
  obtainable := by
    intro root target ha key hreach
    obtain ⟨⟨p, hp, hsupports⟩, hknown, hacyclic⟩ := h.installs root target ha key hreach
    exact ⟨⟨p, hp, hsupports, hknown⟩, hacyclic⟩
  removable := by
    intro root target ha
    obtain ⟨hknown, hdependents⟩ := h.removals root target ha
    refine ⟨hknown, fun hinst key habove _ => ?_, fun hinst hcascade key habove _ hpresent => ?_⟩
    · obtain ⟨hne, hdep⟩ := (mem_above_iff hfaithful).mp habove
      exact (hdependents hinst key hne hdep).1
    · obtain ⟨hne, hdep⟩ := (mem_above_iff hfaithful).mp habove
      exact mem_requestedRemovals.mpr ((hdependents hinst key hne hdep).2 hcascade hpresent)
  compatible := by
    rintro key target ⟨root, ha, hreach⟩
    refine ⟨fun hremoved => h.disjoint root target ha key hreach key hremoved ReflTransGen.refl, ?_⟩
    intro hplanned
    obtain ⟨-, removed, hremoved, -, hdep⟩ :=
      (mem_planned_uninstall_iff hfaithful h.offered).mp hplanned
    exact h.disjoint root target ha key hreach removed hremoved hdep

/-- A granted request whose removals lie on no cycle satisfies it all. -/
theorem Granted.feasible (hfaithful : r.snapshot.Faithful) (h : Granted r actions)
    (hacyclic : ∀ (key : PackageKey) (target : Target),
      (key, target, ActionKind.uninstall) ∈ r.planned actions →
        ¬ TransGen r.snapshot.DependsOn key key) : Feasible r actions where
  offered := h.offered
  installs := by
    intro root target ha key hreach
    obtain ⟨⟨p, hp, hsupports, hknown⟩, hcycle⟩ := h.obtainable root target ha key hreach
    exact ⟨⟨p, hp, hsupports⟩, hknown, hcycle⟩
  removals := by
    intro root target ha
    obtain ⟨hknown, hdependents, hunblocked⟩ := h.removable root target ha
    refine ⟨hknown, fun hinst key hne hdep => ?_⟩
    have habove := (mem_above_iff hfaithful).mpr ⟨hne, hdep⟩
    have hcontains := contains_of_transGen hdep
    refine ⟨hdependents hinst key habove hcontains, fun hcascade hpresent => ?_⟩
    exact mem_requestedRemovals.mp (hunblocked hinst hcascade key habove hcontains hpresent)
  disjoint := by
    intro root target ha key hreach removed hremoved hdep
    exact (h.compatible removed target ⟨root, ha, hreach.trans hdep⟩).1 hremoved
  acyclic := by
    intro root target ha hroot key hinst hreach
    exact hacyclic key target ((mem_planned_uninstall_iff hfaithful h.offered).mpr
      ⟨hinst, root, ha, hroot, hreach⟩)

/-- **A feasible request is resolved to what it calls for**, in the order of the calls. -/
theorem Feasible.realized (hfaithful : r.snapshot.Faithful) (h : Feasible r actions) :
    ∃ steps, r.resolve actions = .ok steps ∧ Realizes r actions (r.planned actions) steps := by
  have hgranted := h.granted hfaithful
  refine hgranted.resolve_of_ascending (ascending_planned hfaithful hgranted ?_)
  intro key target hplanned
  obtain ⟨hinst, root, ha, hroot, hreach⟩ :=
    (mem_planned_uninstall_iff hfaithful h.offered).mp hplanned
  exact h.acyclic root target ha hroot key hinst hreach

theorem feasible_of_resolve (hfaithful : r.snapshot.Faithful) {steps : List Step}
    (h : r.resolve actions = .ok steps) : Feasible r actions :=
  (granted_of_resolve h).1.feasible hfaithful fun _ _ => acyclic_of_resolve h

/-- The steps of a resolved request, when every key names its package. -/
theorem realizes_planned_of_resolve (hfaithful : r.snapshot.Faithful) {steps : List Step}
    (h : r.resolve actions = .ok steps) : Realizes r actions (r.planned actions) steps := by
  obtain ⟨steps', hsteps', hrealizes⟩ := (feasible_of_resolve hfaithful h).realized hfaithful
  rw [h] at hsteps'
  exact Except.ok.inj hsteps' ▸ hrealizes

/-- **Resolution succeeds exactly on the feasible requests.** -/
theorem resolves_iff_feasible (r : Resolver) (h : r.snapshot.Faithful) (actions : List Action) :
    (∃ steps, r.resolve actions = .ok steps) ↔ Feasible r actions := by
  constructor
  · rintro ⟨steps, hsteps⟩
    exact feasible_of_resolve h hsteps
  · intro hfeasible
    obtain ⟨steps, hsteps, -⟩ := hfeasible.realized h
    exact ⟨steps, hsteps⟩

/-! ## A request on a small snapshot -/

namespace Sample

def named (id : String) : PackageKey := ⟨"r", id, none⟩

def package (id : String) (dependencies : List String) : Package :=
  ⟨named id, ⟨0, "2"⟩, dependencies.map named, .full, none⟩

/-- An application, a library below it and a tool, both on one base. -/
def snapshot : Snapshot where
  generation := 1
  repositories :=
    [[package "app" ["lib"], package "base" [], package "lib" ["base"],
      package "tool" ["base"]].foldl Repository.insert (Repository.empty "r" none)]

/-- The user's library is up to date, its base is not; the system has the tool. -/
def store : ScriptedStore :=
  { ScriptedStore.empty with
    installed := [((named "lib", .user), true), ((named "base", .user), false),
      ((named "tool", .system), true), ((named "base", .system), true)] }

def resolver : Resolver := ⟨snapshot, fun key target => store.status key target, true⟩

/-- To get the application for the user and to be rid of the system's base. -/
def request : List Action :=
  [⟨.install, .user, named "app"⟩, ⟨.uninstall, .system, named "base"⟩]

/-- The application waits for the base below the library, the base for the tool above. -/
def steps : List Step :=
  [⟨named "base", .user, .install, ⟨0, "2"⟩, false, 0, []⟩,
    ⟨named "app", .user, .install, ⟨0, "2"⟩, true, 1, [0]⟩,
    ⟨named "tool", .system, .uninstall, ⟨0, "2"⟩, false, 2, []⟩,
    ⟨named "base", .system, .uninstall, ⟨0, "2"⟩, true, 3, [2]⟩]

theorem faithful : snapshot.Faithful := by
  unfold Snapshot.Faithful
  decide +kernel

theorem resolve_request : resolver.resolve request = .ok steps := by
  decide +kernel

end Sample

/-- The sample request is feasible because it is resolved. -/
theorem sample_feasible : Sample.resolver.snapshot.Faithful ∧
    Feasible Sample.resolver Sample.request :=
  ⟨Sample.faithful, (resolves_iff_feasible Sample.resolver Sample.faithful Sample.request).mp
    ⟨Sample.steps, Sample.resolve_request⟩⟩

end Provision.Plan
