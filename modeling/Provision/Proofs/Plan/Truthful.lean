import Provision.Proofs.Plan.Feasible
import Provision.Proofs.Plan.Refused

/-!
# What refusals tell

A refusal names packages, and what it says about them is so.  `Truthful` states this error by
error in terms of the packages, their dependencies and their statuses.  When every key of the
snapshot names its package, every refusal of the resolver is truthful (`truthful_of_resolve`).

The list of dependents that block a removal is complete, although the walk that collects it
also goes through packages that are not installed and passes by those that are to go anyway.
Its order is kept from the walk: a package comes before the others that it depends on, unless
they lie on cycles (`Blockers.order`).

Reported cycles are real whatever the snapshot is (`cycle_of_resolve`).  An install reports a
cycle along the dependencies.  A cycle of removals is reported as the removals wait for each
other, and so against the dependencies; packages without a removal are left out of it
(`backward_cycle`).
-/
namespace Provision.Plan
open Relation Resolver

namespace Resolver
variable (r : Resolver) (actions : List Action)

/-- A cycle of dependencies below a package to be installed. -/
def InstallCycle (path : List PackageKey) : Prop :=
  ∃ root target, (⟨.install, target, root⟩ : Action) ∈ actions ∧
    IsCycle r.snapshot.DependsOn path ∧
    ∀ key ∈ path, ReflTransGen r.snapshot.DependsOn root key

/-- A cycle of installed packages that go away with one to be uninstalled.  Each of them
depends on the one **before** it, directly or by way of packages that are not installed. -/
def RemovalCycle (path : List PackageKey) : Prop :=
  ∃ target, IsCycle (fun key key' => r.snapshot.DependsVia
      (fun x => (r.status x target).isInstalled = false) key' key) path ∧
    ∀ key ∈ path, (r.status key target).isInstalled = true ∧ r.Doomed actions key target

/-- **The installed packages that stand in the way of a removal.** -/
structure Blockers (key : PackageKey) (target : Target) (dependents : List PackageKey) :
    Prop where
  ne_nil : dependents ≠ []
  nodup : dependents.Nodup
  mem_iff : ∀ dependent, dependent ∈ dependents ↔
    (r.status dependent target).isInstalled = true ∧
      TransGen r.snapshot.DependsOn dependent key ∧
      (⟨.uninstall, target, dependent⟩ : Action) ∉ actions
  /-- Whatever depends on a package comes before it, if the package lies on no cycle. -/
  order : ∀ (i j : Nat) (above below : PackageKey), dependents[i]? = some above →
    dependents[j]? = some below → TransGen r.snapshot.DependsOn above below →
    ¬ TransGen r.snapshot.DependsOn below below → i < j

/-- What can be said of a refusal that gives its reason as a text. -/
def Undecided (reason : String) : Prop :=
  (∃ p target, r.Sought actions p.key target ∧ r.snapshot.get? p.key = some p ∧
    p.supports target = false ∧
    reason = s!"`{p.key}` is not available for the {target} target") ∨
  (∃ key target cause,
    (r.Needed actions key target ∨ (⟨.uninstall, target, key⟩ : Action) ∈ actions) ∧
    r.status key target = .unknown cause ∧
    reason = s!"unable to determine status of `{key}`: {cause}") ∨
  ∃ key removed target cause, (⟨.uninstall, target, removed⟩ : Action) ∈ actions ∧
    (r.status removed target).isInstalled = true ∧ TransGen r.snapshot.DependsOn key removed ∧
    r.status key target = .unknown cause ∧
    reason = s!"unable to determine status of dependent `{key}`: {cause}"

end Resolver

/-- **What a refusal tells is so.**  Planning fails for no other reasons. -/
def Truthful (r : Resolver) (actions : List Action) : TransactionError → Prop
  | .unknownPackage key => r.snapshot.get? key = none ∧
      ((∃ a ∈ actions, a.key = key) ∨
        ∃ needed target, r.Needed actions needed target ∧ r.snapshot.DependsOn needed key)
  | .contradiction key => ∃ target, r.Needed actions key target ∧
      ((⟨.uninstall, target, key⟩ : Action) ∈ actions ∨
        (r.status key target).isInstalled = true ∧ ∃ removed,
          (⟨.uninstall, target, removed⟩ : Action) ∈ actions ∧
          (r.status removed target).isInstalled = true ∧
          TransGen r.snapshot.DependsOn key removed)
  | .dependency (.requiredBy key dependents) => r.cascade = false ∧ ∃ target,
      (⟨.uninstall, target, key⟩ : Action) ∈ actions ∧
        (r.status key target).isInstalled = true ∧ r.Blockers actions key target dependents
  | .dependency (.cycle path) => r.InstallCycle actions path ∨ r.RemovalCycle actions path
  | .resolve reason => r.Undecided actions reason
  | .download .. => False
  | .install .. => False
  | .uninstall .. => False
  | .cancelled _ => False
  | .alreadyRun _ => False

variable {r : Resolver} {actions : List Action} {key root : PackageKey} {target : Target}

/-! ## Cycles -/

/-- Below a package that goes away, to stay and not to be installed are the same. -/
theorem dependsVia_of_planned {key' : PackageKey}
    (hplanned : (key', target, .uninstall) ∈ r.planned actions)
    (h : r.snapshot.DependsVia (fun x => (x, target, .uninstall) ∉ r.planned actions) key key') :
    r.snapshot.DependsVia (fun x => (r.status x target).isInstalled = false) key key' := by
  obtain ⟨⟨root, ha, hroot, hreach⟩, -, -⟩ := r.mem_planned_uninstall.mp hplanned
  refine h.mono_last fun x hx hstays => Bool.eq_false_iff.mpr fun hinst => hstays ?_
  have hdoomed : ReflTransGen r.dependents.Leads key' x := by
    have hback : TransGen (Function.swap r.dependents.Leads) x key' :=
      TransGen.mono (fun _ _ hdep => hdep.mem_dependentsOf) x key' hx
    exact (transGen_swap.mp hback).to_reflTransGen
  exact r.mem_planned_uninstall.mpr
    ⟨⟨root, ha, hroot, hreach.trans hdoomed⟩, contains_of_transGen hx, hinst⟩

theorem removalCycle_of_planned {path : List PackageKey}
    (hcycle : IsCycle (fun key key' =>
      r.snapshot.DependsVia (fun x => (x, target, .uninstall) ∉ r.planned actions) key' key) path)
    (hplanned : ∀ key ∈ path, (key, target, .uninstall) ∈ r.planned actions) :
    r.RemovalCycle actions path := by
  refine ⟨target, ?_, fun key hkey => ?_⟩
  · exact hcycle.imp fun key hkey _ _ hvia => dependsVia_of_planned (hplanned key hkey) hvia
  · obtain ⟨hdoomed, -, hinst⟩ := r.mem_planned_uninstall.mp (hplanned key hkey)
    exact ⟨hinst, hdoomed⟩

/-- **A reported cycle is real**, whatever the snapshot, the statuses and the request are: it
is one of dependencies, told along them for an install and against them for removals. -/
theorem cycle_of_resolve (r : Resolver) (actions : List Action) (path : List PackageKey)
    (h : r.resolve actions = .error (.dependency (.cycle path))) :
    r.InstallCycle actions path ∨ r.RemovalCycle actions path := by
  cases refuses_of_resolve h with
  | installCycle ha hcycle hreach => exact Or.inl ⟨_, _, ha, hcycle, hreach⟩
  | removalCycle hcycle hplanned => exact Or.inr (removalCycle_of_planned hcycle hplanned)

/-! ## Dependents that block a removal -/

/-- The blocking packages are selected from the walk of the dependents. -/
theorem blocking_eq (names : List PackageKey) : r.blocking names root target =
    (r.dependents.reachable [root]).filter fun key => key ≠ root ∧
      (r.snapshot.contains key && (r.status key target).isInstalled) = true ∧ key ∉ names := by
  rw [Resolver.blocking, map_key_presentPackages, above, List.filter_filter, List.filter_filter]
  refine List.filter_congr fun key _ => ?_
  rw [Bool.eq_iff_iff]
  simp
  tauto

/-- **The blocking packages, when every key names its package.** -/
theorem blockers_blocking (h : r.snapshot.Faithful) {names : List PackageKey}
    (hnames : ∀ key, key ∈ names ↔ (⟨.uninstall, target, key⟩ : Action) ∈ actions)
    (ha : (⟨.uninstall, target, root⟩ : Action) ∈ actions)
    (hne : r.blocking names root target ≠ []) :
    r.Blockers actions root target (r.blocking names root target) := by
  have hnodup : (r.blocking names root target).Nodup := by
    rw [blocking_eq]
    exact (Digraph.nodup_reachable _).filter _
  constructor
  case ne_nil => exact hne
  case nodup => exact hnodup
  case mem_iff =>
    intro key
    rw [blocking_eq, List.mem_filter, Digraph.mem_reachable_singleton, reach_dependents h,
      reflTransGen_iff_eq_or_transGen]
    simp only [decide_eq_true_eq, Bool.and_eq_true, hnames]
    constructor
    · rintro ⟨heq | hdep, hne, ⟨-, hinst⟩, hstays⟩
      · exact absurd heq.symm hne
      · exact ⟨hinst, hdep, hstays⟩
    · rintro ⟨hinst, hdep, hstays⟩
      -- The package that is to go was asked to go, so it does not block itself.
      refine ⟨Or.inr hdep, ?_, ⟨contains_of_transGen hdep, hinst⟩, hstays⟩
      rintro rfl
      exact hstays ha
  case order =>
    intro i j above below hi hj hdep hacyclic
    have hselected := (List.mem_filter.mp (blocking_eq names ▸ List.mem_of_getElem? hi)).2
    have hpre := prefix_of_getElem? hj
    rw [blocking_eq, ← List.map_id (List.filter _ _)] at hpre
    obtain ⟨init, _, rfl, hinit, hkept⟩ := exists_prefix_of_map_filter hpre
    rw [← transGen_dependents h] at hdep hacyclic
    -- The walk of the dependents left `above` before `below`.
    have hmem := hkept above (Digraph.mem_of_transGen hinit hacyclic hdep) hselected
    rw [List.map_id, ← blocking_eq] at hmem
    obtain ⟨k, hlt, hk⟩ := exists_lt_of_mem_take hmem
    rw [eq_of_getElem?_of_nodup hnodup hi hk]
    exact hlt

/-! ## Every refusal -/

/-- What is missing is named by an action or listed by a package that an install needs. -/
theorem exists_of_sought (h : r.Sought actions key target) : (∃ a ∈ actions, a.key = key) ∨
    ∃ needed target, r.Needed actions needed target ∧ r.snapshot.DependsOn needed key := by
  rcases h with ⟨kind, ha⟩ | ⟨root, ha, hreach⟩
  · exact Or.inl ⟨_, ha, rfl⟩
  · rcases ReflTransGen.cases_tail hreach with rfl | ⟨needed, hneeded, hlists⟩
    · exact Or.inl ⟨_, ha, rfl⟩
    · exact Or.inr ⟨needed, target, ⟨root, ha, hneeded⟩, hlists⟩

/-- **Every refusal is truthful**, when every key of the snapshot names its package. -/
theorem truthful_of_resolve (r : Resolver) (hfaithful : r.snapshot.Faithful)
    (actions : List Action) (e : TransactionError) (h : r.resolve actions = .error e) :
    Truthful r actions e := by
  cases refuses_of_resolve h with
  | unknownPackage hsought hget => exact ⟨hget, exists_of_sought hsought⟩
  | unsupported hsought hget hsupports =>
    exact Or.inl ⟨_, _, hsought, hget, hsupports, rfl⟩
  | unknownStatus hasked hstatus => exact Or.inr (Or.inl ⟨_, _, _, hasked, hstatus, rfl⟩)
  | unknownDependent ha hinst habove hstatus =>
    exact Or.inr (Or.inr ⟨_, _, _, _, ha, hinst, ((mem_above_iff hfaithful).mp habove).2,
      hstatus, rfl⟩)
  | requiredBy hnames ha hinst hcascade hne =>
    exact ⟨hcascade, _, ha, hinst, blockers_blocking hfaithful hnames ha hne⟩
  | contradiction hneeded hgoes =>
    refine ⟨_, hneeded, ?_⟩
    rcases hgoes with ha | hplanned
    · exact Or.inl ha
    · obtain ⟨⟨removed, ha, hroot, hreach⟩, -, hinst⟩ := r.mem_planned_uninstall.mp hplanned
      rw [reach_dependents hfaithful, reflTransGen_iff_eq_or_transGen] at hreach
      rcases hreach with rfl | hdep
      · exact Or.inl ha
      · exact Or.inr ⟨hinst, removed, ha, hroot, hdep⟩
  | installCycle ha hcycle hreach => exact Or.inl ⟨_, _, ha, hcycle, hreach⟩
  | removalCycle hcycle hplanned => exact Or.inr (removalCycle_of_planned hcycle hplanned)

/-! ## Refusals on small snapshots -/

namespace Sample

/-- The user has the application and the tool, but not the library between the application
and the base. -/
def gappedStore : ScriptedStore :=
  { ScriptedStore.empty with
    installed := [((named "app", .user), true), ((named "tool", .user), true),
      ((named "base", .user), true)] }

def cautious : Resolver := ⟨snapshot, fun key target => gappedStore.status key target, false⟩

theorem resolve_cautious : cautious.resolve [⟨.uninstall, .user, named "base"⟩] =
    .error (.dependency (.requiredBy (named "base") [named "app", named "tool"])) := by
  decide +kernel

/-- Three packages that depend on each other in turn, all of them installed. -/
def ring : Resolver where
  snapshot :=
    ⟨1, [[package "a" ["b"], package "b" ["c"], package "c" ["a"]].foldl Repository.insert
      (Repository.empty "r" none)]⟩
  status _ _ := .upToDate
  cascade := true

theorem resolve_ring : ring.resolve [⟨.uninstall, .user, named "a"⟩] =
    .error (.dependency (.cycle [named "b", named "a", named "c", named "b"])) := by
  decide +kernel

end Sample

/-- The base is not removed without the application, which needs it by way of the library. -/
theorem sample_truthful : Sample.cautious.snapshot.Faithful ∧
    Sample.cautious.resolve [⟨.uninstall, .user, Sample.named "base"⟩] =
      .error (.dependency
        (.requiredBy (Sample.named "base") [Sample.named "app", Sample.named "tool"])) ∧
    Truthful Sample.cautious [⟨.uninstall, .user, Sample.named "base"⟩]
      (.dependency
        (.requiredBy (Sample.named "base") [Sample.named "app", Sample.named "tool"])) :=
  ⟨Sample.faithful, Sample.resolve_cautious,
    truthful_of_resolve Sample.cautious Sample.faithful _ _ Sample.resolve_cautious⟩

/-- The three packages cannot be removed one after the other. -/
theorem sample_cycle : Sample.ring.resolve [⟨.uninstall, .user, Sample.named "a"⟩] =
      .error (.dependency (.cycle [Sample.named "b", Sample.named "a", Sample.named "c",
        Sample.named "b"])) ∧
    (Sample.ring.InstallCycle [⟨.uninstall, .user, Sample.named "a"⟩]
        [Sample.named "b", Sample.named "a", Sample.named "c", Sample.named "b"] ∨
      Sample.ring.RemovalCycle [⟨.uninstall, .user, Sample.named "a"⟩]
        [Sample.named "b", Sample.named "a", Sample.named "c", Sample.named "b"]) :=
  ⟨Sample.resolve_ring, cycle_of_resolve Sample.ring _ _ Sample.resolve_ring⟩

/-- The cycle that the three packages are refused for is told against the dependencies. -/
theorem backward_cycle : ∃ path,
    Sample.ring.resolve [⟨.uninstall, .user, Sample.named "a"⟩] =
      .error (.dependency (.cycle path)) ∧
    ¬ path.IsChain Sample.ring.snapshot.DependsOn ∧
    path.reverse.IsChain Sample.ring.snapshot.DependsOn := by
  refine ⟨_, Sample.resolve_ring, ?_, ?_⟩
  · decide +kernel
  · decide +kernel

end Provision.Plan
