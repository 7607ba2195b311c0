import Provision.Proofs.Plan.Cycle
import Provision.Proofs.Plan.Resolution

/-!
# Why requests are refused

Planning can fail in each of its stages, and every stage stops at the first thing that it
finds wrong.  `Refuses` lists what that can be, in terms of the request, the packages and
their statuses alone; a refused request is refused for one of these reasons
(`refuses_of_resolve`).

Two stages report cycles.  An install finds one on its walk of the dependencies.  Lining the
steps up finds one among the steps that wait for each other, which are removals: what installs
need was found to lie on no cycle before (`removals_of_isCycle`).
-/
namespace Provision.Plan
open Relation Resolver StepGraph

/-- Whether a package has to be on offer at a target: an action names it, or an install needs
it. -/
def Resolver.Sought (r : Resolver) (actions : List Action) (key : PackageKey)
    (target : Target) : Prop :=
  (∃ kind, (⟨kind, target, key⟩ : Action) ∈ actions) ∨ r.Needed actions key target

/-- **The reasons to refuse a request.** -/
inductive Refuses (r : Resolver) (actions : List Action) : TransactionError → Prop
  | unknownPackage {key target} : r.Sought actions key target → r.snapshot.get? key = none →
      Refuses r actions (.unknownPackage key)
  | unsupported {p target} : r.Sought actions p.key target → r.snapshot.get? p.key = some p →
      p.supports target = false → Refuses r actions (unsupported p target)
  | unknownStatus {key target reason} :
      r.Needed actions key target ∨ (⟨.uninstall, target, key⟩ : Action) ∈ actions →
      r.status key target = .unknown reason →
      Refuses r actions (.resolve s!"unable to determine status of `{key}`: {reason}")
  | unknownDependent {root key target reason} :
      (⟨.uninstall, target, root⟩ : Action) ∈ actions → (r.status root target).isInstalled = true →
      key ∈ r.above root → r.status key target = .unknown reason →
      Refuses r actions (.resolve s!"unable to determine status of dependent `{key}`: {reason}")
  /-- The dependents are those that are installed and not among the names to be uninstalled. -/
  | requiredBy {root target names} :
      (∀ key, key ∈ names ↔ (⟨.uninstall, target, key⟩ : Action) ∈ actions) →
      (⟨.uninstall, target, root⟩ : Action) ∈ actions → (r.status root target).isInstalled = true →
      r.cascade = false → r.blocking names root target ≠ [] →
      Refuses r actions (.dependency (.requiredBy root (r.blocking names root target)))
  | contradiction {key target} : r.Needed actions key target →
      (⟨.uninstall, target, key⟩ : Action) ∈ actions ∨
        (key, target, .uninstall) ∈ r.planned actions →
      Refuses r actions (.contradiction key)
  | installCycle {root target path} : (⟨.install, target, root⟩ : Action) ∈ actions →
      IsCycle r.snapshot.DependsOn path →
      (∀ key ∈ path, ReflTransGen r.snapshot.DependsOn root key) →
      Refuses r actions (.dependency (.cycle path))
  /-- Removals wait against the dependencies. -/
  | removalCycle {target path} :
      IsCycle (fun key key' =>
        r.snapshot.DependsVia (fun x => (x, target, .uninstall) ∉ r.planned actions) key' key) path →
      (∀ key ∈ path, (key, target, .uninstall) ∈ r.planned actions) →
      Refuses r actions (.dependency (.cycle path))

variable {r : Resolver} {actions : List Action} {d : Draft} {key root : PackageKey}
  {target : Target} {e : TransactionError}

/-! ## Installs -/

theorem addInstall_eq_error {p : Package} {explicit : Bool}
    (h : r.addInstall d p target explicit = .error e) : ∃ reason,
      r.status p.key target = .unknown reason ∧
        e = .resolve s!"unable to determine status of `{p.key}`: {reason}" := by
  by_cases hknown : (r.status p.key target).Known
  · obtain ⟨d', hd'⟩ : ∃ d', r.addInstall d p target explicit = .ok d' :=
      exists_addInstall_eq_ok hknown
    rw [hd'] at h
    cases h
  · obtain ⟨reason, hreason⟩ := InstallStatus.exists_reason_of_not_known hknown
    rw [addInstall, hreason] at h
    exact ⟨reason, hreason, (Except.error.inj h).symm⟩

/-- What a walk of the dependencies comes upon is needed. -/
theorem refuses_of_installVisit (ha : (⟨.install, target, root⟩ : Action) ∈ actions)
    {settled : List PackageKey} {visits : List (Visit PackageKey)}
    (ht : Digraph.Trail r.dependencies settled [root] [] visits) {v : Visit PackageKey}
    (hv : v ∈ visits) (h : r.installVisit root target d v = .error e) : Refuses r actions e := by
  have hneeded : ∀ key, key ∈ Visit.lefts visits → r.Needed actions key target := by
    intro key hkey
    obtain ⟨root', hroot', hreach⟩ := ht.reached (Or.inr hkey)
    exact ⟨root, ha, List.mem_singleton.mp hroot' ▸ hreach⟩
  cases v with
  | entered key =>
    have hkey := hneeded key ((ht.entered_iff.mp hv).resolve_left List.not_mem_nil)
    rw [installVisit] at h
    cases hget : r.snapshot.get? key with
    | none =>
      rw [hget] at h
      cases h
      exact .unknownPackage (Or.inr hkey) hget
    | some p =>
      obtain rfl := (Snapshot.mem_of_get? hget).2
      rw [hget] at h
      dsimp only at h
      split at h
      · cases h
      · rename_i hsupports
        cases h
        exact .unsupported (Or.inr hkey) hget (Bool.eq_false_iff.mpr hsupports)
  | closed path =>
    cases h
    obtain ⟨hcycle, root', hroot', hreach⟩ := ht.isCycle hv
    exact .installCycle ha hcycle (List.mem_singleton.mp hroot' ▸ hreach)
  | left key =>
    have hkey := hneeded key (Visit.mem_lefts.mpr hv)
    cases hget : r.snapshot.get? key with
    | none =>
      rw [installVisit, hget] at h
      cases h
      exact .unknownPackage (Or.inr hkey) hget
    | some p =>
      obtain rfl := (Snapshot.mem_of_get? hget).2
      rw [installVisit_left hget] at h
      obtain ⟨reason, hstatus, rfl⟩ := addInstall_eq_error h
      exact .unknownStatus (Or.inl hkey) hstatus

theorem refuses_of_expandInstall (ha : (⟨.install, target, root⟩ : Action) ∈ actions)
    (h : r.expandInstall d root target = .error e) : Refuses r actions e := by
  rw [expandInstall] at h
  split at h
  · split at h <;> cases h
  · obtain ⟨v, hv, c, hvisit⟩ := exists_of_foldlM_eq_error h
    exact refuses_of_installVisit ha (r.dependencies.explore_trail _ _) hv hvisit

/-! ## Removals -/

theorem installedDependents_eq_error (h : r.installedDependents root target = .error e) :
    ∃ key ∈ r.above root, ∃ reason, r.status key target = .unknown reason ∧
      e = .resolve s!"unable to determine status of dependent `{key}`: {reason}" := by
  obtain ⟨key, hkey, found, hcollect⟩ := exists_of_foldlM_eq_error h
  refine ⟨key, hkey, ?_⟩
  rw [collectDependent] at hcollect
  split at hcollect
  · cases hcollect
  · split at hcollect
    · rename_i reason hstatus
      exact ⟨reason, hstatus, (Except.error.inj hcollect).symm⟩
    · cases hcollect

theorem refuses_of_expandUninstall {p : Package} {names : List PackageKey}
    (ha : (⟨.uninstall, target, p.key⟩ : Action) ∈ actions)
    (hnames : ∀ key, key ∈ names ↔ (⟨.uninstall, target, key⟩ : Action) ∈ actions)
    (h : r.expandUninstall d p target names = .error e) : Refuses r actions e := by
  by_cases hknown : (r.status p.key target).Known
  · rw [expandUninstall_of_known hknown] at h
    split at h
    · rename_i hinst
      rcases bind_eq_error.mp h with h | ⟨dependents, hdependents, h⟩
      · obtain ⟨key, hkey, reason, hstatus, rfl⟩ := installedDependents_eq_error h
        exact .unknownDependent ha hinst hkey hstatus
      · obtain ⟨-, rfl⟩ := installedDependents_eq_ok_iff.mp hdependents
        dsimp only at h
        split at h
        · rename_i hblocked
          cases h
          rw [Bool.and_eq_true, Bool.not_eq_true', Bool.not_eq_true'] at hblocked
          exact .requiredBy hnames ha hinst hblocked.2 (List.isEmpty_eq_false_iff.mp hblocked.1)
        · cases h
    · cases h
  · obtain ⟨reason, hreason⟩ := InstallStatus.exists_reason_of_not_known hknown
    rw [expandUninstall, hreason] at h
    cases h
    exact .unknownStatus (Or.inr ha) hreason

/-! ## Contradictions -/

/-- What is refused as a contradiction is needed, and asked to go or goes. -/
theorem checkContradictions_eq_error {requested : List (PackageKey × Target)}
    (hinstalls : ∀ key target, (key, target, .install) ∈ changes d.graph → (key, target) ∈ d.places)
    (h : checkContradictions d requested = .error e) : ∃ key target, e = .contradiction key ∧
      (key, target) ∈ d.places ∧
        ((key, target) ∈ requested ∨ (key, target, .uninstall) ∈ changes d.graph) := by
  rw [checkContradictions] at h
  split at h
  · rename_i key hfound
    obtain ⟨target, hinstall, huninstall⟩ :=
      (Validation.findContradiction?_eq_some_iff.mp hfound).exists_both
    exact ⟨key, target, (Except.error.inj h).symm, hinstalls key target hinstall, Or.inr huninstall⟩
  · dsimp only at h
    split at h
    · rename_i key target hfound
      refine ⟨key, target, (Except.error.inj h).symm, ?_, ?_⟩
      · have hneeds := List.find?_some
          (p := fun place : PackageKey × Target => d.needs place.1 place.2) hfound
        exact Draft.needs_iff.mp hneeds
      · have hmem := List.mem_of_find?_eq_some hfound
        rwa [List.mem_append, mem_removed] at hmem
    · cases h

theorem Drafted.refuses_of_checkContradictions
    (h : Drafted r (requestedRemovals actions) actions d)
    (hcheck : checkContradictions { d with graph := r.orderUninstalls d.graph }
      (requestedRemovals actions) = .error e) : Refuses r actions e := by
  obtain ⟨key, target, rfl, hplace, hgoes⟩ := checkContradictions_eq_error (fun key target hmem => by
    dsimp only at hmem
    rw [changes_orderUninstalls] at hmem
    exact ((h.linked.installs key target).mp hmem).1) hcheck
  rw [mem_requestedRemovals, changes_orderUninstalls, h.changes] at hgoes
  exact .contradiction ((h.places key target).mp hplace) hgoes

/-! ## Steps that wait for each other -/

theorem ordered_eq_error {g : StepGraph} {cause : DependencyError} (h : g.ordered = .error cause) :
    ∃ path, IsCycle g.waits.Leads path ∧ cause = .cycle (g.keys path) := by
  obtain ⟨v, hv, order, hvisit⟩ := exists_of_foldlM_eq_error h
  cases v with
  | entered i => cases hvisit
  | left i => cases hvisit
  | closed path =>
    have ht := g.waits.explore_trail [] (List.range g.steps.length)
    exact ⟨path, (ht.isCycle hv).1, (Except.error.inj hvisit).symm⟩

/-- **A cycle of steps is one of planned changes**, all of one kind at one target. -/
theorem Plans.isCycle_keys {g : StepGraph} (h : Plans r actions g) {path : List Nat}
    (hpath : IsCycle g.waits.Leads path) : ∃ place : Target × ActionKind,
      IsCycle (fun key key' => Awaits r.snapshot (r.planned actions) (key, place) (key', place))
        (g.keys path) ∧
      ∀ key ∈ g.keys path, (key, place) ∈ r.planned actions := by
  have hstep : ∀ i j, g.waits.Leads i j → ∃ c c', (r.planned actions)[i]? = some c ∧
      (r.planned actions)[j]? = some c' ∧ Awaits r.snapshot (r.planned actions) c c' :=
    fun i j hij => (h.orders i j).mp (leads_waits.mp hij).2
  obtain ⟨i, j, rest, rfl⟩ : ∃ i j rest, path = i :: j :: rest := by
    match path, hpath.long with
    | i :: j :: rest, _ => exact ⟨i, j, rest, rfl⟩
  obtain ⟨⟨first, place⟩, -, hfirst, -, -⟩ := hstep i j (List.isChain_cons_cons.mp hpath.chain).1
  -- Awaiting stays with one kind of change at one target, so the whole cycle does.
  have hplace : ∀ k ∈ i :: j :: rest, ∃ key, (r.planned actions)[k]? = some (key, place) := by
    refine hpath.chain.induction _ _ ?_ fun _ => ⟨first, hfirst⟩
    rintro k l hkl ⟨key, hkey⟩
    obtain ⟨c, ⟨key', place'⟩, hc, hc', hawaits⟩ := hstep k l hkl
    rw [hkey] at hc
    cases hc
    obtain rfl : place = place' := hawaits.1
    exact ⟨key', hc'⟩
  let name (k : Nat) : PackageKey := (((r.planned actions)[k]?).map Prod.fst).getD first
  have hname : ∀ k ∈ i :: j :: rest, (r.planned actions)[k]? = some (name k, place) := by
    intro k hk
    obtain ⟨key, hkey⟩ := hplace k hk
    simp [name, hkey]
  have hkeys : g.keys (i :: j :: rest) = (i :: j :: rest).map name := by
    rw [keys, ← List.filterMap_eq_map]
    refine List.filterMap_congr fun k hk => ?_
    have hchange := hname k hk
    rw [← h.changes, getElem?_changes] at hchange
    obtain ⟨s, hs, heq⟩ := Option.map_eq_some_iff.mp hchange
    rw [hs]
    exact congrArg some (congrArg Prod.fst heq)
  rw [hkeys]
  refine ⟨place, hpath.map ?_ ?_, ?_⟩
  · intro k hk l hl heq
    refine eq_of_getElem?_of_nodup (r.nodup_planned actions) (hname k hk) ?_
    rw [heq]
    exact hname l hl
  · intro k hk l hl hkl
    obtain ⟨c, c', hc, hc', hawaits⟩ := hstep k l hkl
    rw [hname k hk] at hc
    rw [hname l hl] at hc'
    cases hc
    cases hc'
    exact hawaits
  · intro key hkey
    obtain ⟨k, hk, rfl⟩ := List.mem_map.mp hkey
    exact List.mem_of_getElem? (hname k hk)

/-- **Only removals wait for each other in a cycle.**  What installs need was added after all
that it depends on. -/
theorem Drafted.refuses_of_ordered (h : Drafted r (requestedRemovals actions) actions d)
    {cause : DependencyError} (hordered : (r.orderUninstalls d.graph).ordered = .error cause) :
    Refuses r actions (.dependency cause) := by
  obtain ⟨path, hpath, rfl⟩ := ordered_eq_error hordered
  obtain ⟨⟨target, kind⟩, hcycle, hplanned⟩ := h.plans.isCycle_keys hpath
  cases kind with
  | uninstall => exact .removalCycle (hcycle.imp fun _ _ _ _ hawaits => hawaits.2) hplanned
  | install =>
    have hdepends := hcycle.imp (S := TransGen r.snapshot.DependsOn)
      fun _ _ _ _ hawaits => Snapshot.DependsVia.transGen hawaits.2
    obtain ⟨key, hkey, hself⟩ := hdepends.transGen
    rw [transGen_eq_self] at hself
    have hneeded := (r.mem_planned_install.mp (hplanned key hkey)).1
    exact absurd hself (h.linked.grounded.acyclic ((h.places key target).mpr hneeded))

/-! ## All stages -/

theorem refuses_of_requestedPackage {a : Action} (ha : a ∈ actions)
    (h : r.requestedPackage a = .error e) : Refuses r actions e := by
  rw [requestedPackage] at h
  split at h
  · rename_i hget
    cases h
    exact .unknownPackage (Or.inl ⟨a.kind, ha⟩) hget
  · rename_i p hget
    obtain ⟨kind, target, key⟩ := a
    obtain rfl := (Snapshot.mem_of_get? hget).2
    split at h
    · cases h
    · rename_i hsupports
      cases h
      exact .unsupported (Or.inl ⟨kind, ha⟩) hget (Bool.eq_false_iff.mpr hsupports)

theorem refuses_of_expand {a : Action} {p : Package} (ha : a ∈ actions)
    (hp : r.snapshot.get? a.key = some p)
    (h : r.expand (requestedRemovals actions) d (a, p) = .error e) : Refuses r actions e := by
  obtain ⟨kind, target, key⟩ := a
  obtain rfl := (Snapshot.mem_of_get? hp).2
  cases kind with
  | install => exact refuses_of_expandInstall ha h
  | uninstall =>
    refine refuses_of_expandUninstall ha (fun key => ?_) h
    exact mem_requestedNames.trans mem_requestedRemovals

/-- **A refused request is refused for a reason.** -/
theorem refuses_of_resolve (h : r.resolve actions = .error e) : Refuses r actions e := by
  rw [resolve] at h
  rcases bind_eq_error.mp h with h | ⟨packages, hpackages, h⟩
  · obtain ⟨a, ha, hrefused⟩ := exists_of_mapM_eq_error h
    exact refuses_of_requestedPackage ha hrefused
  obtain ⟨hfst, hpairs⟩ := paired_of_mapM hpackages
  rcases bind_eq_error.mp h with h | ⟨d, hd, h⟩
  · obtain ⟨⟨a, p⟩, hmem, c, hrefused⟩ := exists_of_foldlM_eq_error h
    have ha : a ∈ actions := hfst ▸ List.mem_map_of_mem hmem
    exact refuses_of_expand ha (hpairs _ hmem) hrefused
  have hdrafted := drafted_of_foldlM hpairs hd
  rw [hfst] at hdrafted
  rcases bind_eq_error.mp h with h | ⟨-, -, h⟩
  · exact hdrafted.refuses_of_checkContradictions h
  split at h
  · rename_i cause hordered
    cases h
    exact hdrafted.refuses_of_ordered hordered
  · cases h

end Provision.Plan
