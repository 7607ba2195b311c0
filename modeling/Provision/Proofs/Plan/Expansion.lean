import Provision.Proofs.Plan.Installing
import Provision.Proofs.Plan.Planned

/-!
# What one action adds to a draft

Whatever the draft holds already, an action adds to it what the action calls for
(`Expands`): the changes of `Resolver.called` that are new, the packages that it needs, and
the marks of what is asked for.  `expandInstall` and `expandUninstall` both do this.

Whether they succeed does not depend on the draft either.  An install is accepted if
everything it needs can be had (`Resolver.Obtainable`), a removal if the store can tell
what depends on the package, and all of it may go (`Resolver.Removable`).
-/
namespace Provision.Plan
open Relation Resolver StepGraph

variable {r : Resolver} {d d' : Draft} {root : PackageKey} {target : Target}
  {requested : List (PackageKey × Target)}

/-- **What an action adds to a draft.** -/
structure Expands (r : Resolver) (requested : List (PackageKey × Target)) (a : Action)
    (d d' : Draft) : Prop where
  linked : Linked r d'
  places : ∀ key target, (key, target) ∈ d'.places ↔
    (key, target) ∈ d.places ∨ r.Needed [a] key target
  changes : Resolver.changes d'.graph = (Resolver.changes d.graph ++ r.called a).eraseDups
  asked : ∀ c, c ∈ d'.graph.asked ↔ c ∈ d.graph.asked ∨ r.Asks requested a c

/-! ## Installs -/

theorem needed_install {key : PackageKey} {target' : Target} :
    r.Needed [⟨.install, target, root⟩] key target' ↔
      target' = target ∧ ReflTransGen r.snapshot.DependsOn root key := by
  simp [Needed]

theorem asks_install {c : Change} : r.Asks requested ⟨.install, target, root⟩ c ↔
    r.status root target ≠ .upToDate ∧ c = (root, target, .install) := by
  constructor
  · rintro ⟨hcalled, rfl | ⟨hkind, -⟩⟩
    · obtain ⟨_, heq, -, hstatus⟩ := (mem_called_install r).mp hcalled
      exact ⟨hstatus, rfl⟩
    · obtain ⟨key, target', kind⟩ := c
      cases hkind
      obtain ⟨_, heq, -⟩ := (mem_called_uninstall r).mp hcalled
      cases heq
  · rintro ⟨hstatus, rfl⟩
    exact ⟨(mem_called_install r).mpr ⟨root, rfl, ReflTransGen.refl, hstatus⟩, Or.inl rfl⟩

/-- What is needed already is needed with all it depends on, so nothing is added. -/
theorem Linked.called_subset (h : Linked r d) (hroot : (root, target) ∈ d.places) :
    ∀ c ∈ r.called ⟨.install, target, root⟩, c ∈ changes d.graph := by
  rintro ⟨key, target', kind⟩ hc
  cases kind with
  | install =>
    obtain ⟨_, heq, hreach, hstatus⟩ := (mem_called_install r).mp hc
    cases heq
    exact (h.installs _ _).mpr ⟨h.grounded.mem_of_reach hroot hreach, hstatus⟩
  | uninstall =>
    obtain ⟨_, heq, -⟩ := (mem_called_uninstall r).mp hc
    cases heq

/-- Changes that are there already are not added. -/
theorem changes_append_called_of_subset {a : Action} (hnodup : (changes d.graph).Nodup)
    (hsubset : ∀ c ∈ r.called a, c ∈ changes d.graph) :
    (changes d.graph ++ r.called a).eraseDups = changes d.graph := by
  rw [eraseDups_append_of_nodup hnodup (r.nodup_called a), List.append_right_eq_self]
  refine List.filter_eq_nil_iff.mpr fun c hc => ?_
  simpa using hsubset c hc

/-- An install of what is needed already marks its step. -/
theorem Linked.expandInstall_of_mem (h : Linked r d) (hroot : (root, target) ∈ d.places)
    (hok : r.expandInstall d root target = .ok d') :
    Expands r requested ⟨.install, target, root⟩ d d' := by
  have hplaces : ∀ key target', (key, target') ∈ d.places ↔ (key, target') ∈ d.places ∨
      r.Needed [⟨.install, target, root⟩] key target' := by
    intro key target'
    refine (or_iff_left_of_imp ?_).symm
    rw [needed_install]
    rintro ⟨rfl, hreach⟩
    exact h.grounded.mem_of_reach hroot hreach
  have hchanges := changes_append_called_of_subset h.nodup (h.called_subset hroot)
  rw [expandInstall, if_pos (Draft.needs_iff.mpr hroot)] at hok
  cases hfind : d.graph.find? root target .install with
  | some i =>
    rw [hfind] at hok
    cases hok
    have hi := (find?_eq_some_iff h.nodup).mp hfind
    refine ⟨h.markExplicit i, hplaces, ?_, fun c => ?_⟩
    · rw [changes_markExplicit, hchanges]
    · rw [mem_asked_markExplicit, hi, asks_install]
      refine or_congr_right ?_
      constructor
      · intro heq
        exact ⟨((h.installs _ _).mp (List.mem_of_getElem? hi)).2, (Option.some.inj heq).symm⟩
      · rintro ⟨-, rfl⟩
        rfl
  | none =>
    rw [hfind] at hok
    cases hok
    -- What is needed and has no step is up to date, so nothing is asked for.
    refine ⟨h, hplaces, hchanges.symm, fun c => ?_⟩
    refine (or_iff_left ?_).symm
    rw [asks_install]
    rintro ⟨hstatus, -⟩
    exact find?_eq_none_iff.mp hfind ((h.installs _ _).mpr ⟨hroot, hstatus⟩)

/-- An install of something new brings what it depends on and what was not needed yet. -/
theorem Linked.expandInstall_of_not_mem (h : Linked r d) (hroot : (root, target) ∉ d.places)
    (hok : r.expandInstall d root target = .ok d') :
    Expands r requested ⟨.install, target, root⟩ d d' := by
  rw [expandInstall, if_neg fun hneeds => hroot (Draft.needs_iff.mp hneeds)] at hok
  obtain ⟨hbrings, -, -⟩ := accepted_of_trail h
    (r.dependencies.explore_trail (d.presentAt target) [root]) hok
  have hclosed : r.dependencies.Closed (d.presentAt target) := by
    intro x hx y hy
    rw [Draft.mem_presentAt] at hx ⊢
    exact h.grounded.mem_of_dependsOn hx hy
  have hmem : ∀ key, key ∈ Visit.lefts (r.dependencies.explore (d.presentAt target) [root]) ↔
      (key, target) ∉ d.places ∧ ReflTransGen r.snapshot.DependsOn root key := by
    intro key
    rw [Digraph.mem_lefts_explore hclosed, Draft.mem_presentAt]
    simp only [List.mem_singleton, exists_eq_left]
    exact Iff.rfl
  refine ⟨hbrings.linked, fun key target' => ?_, ?_, fun c => ?_⟩
  · rw [hbrings.places, List.mem_append, needed_install, List.mem_reverse, List.mem_map, or_comm]
    simp only [hmem, Prod.mk.injEq]
    by_cases hplace : (key, target') ∈ d.places
    · simp [hplace]
    · simp only [hplace, false_or]
      constructor
      · rintro ⟨_, ⟨-, hreach⟩, rfl, rfl⟩
        exact ⟨rfl, hreach⟩
      · rintro ⟨rfl, hreach⟩
        exact ⟨key, ⟨hplace, hreach⟩, rfl, rfl⟩
  · rw [hbrings.changes, eraseDups_append_of_nodup h.nodup (r.nodup_called _),
      Digraph.lefts_explore_settled hclosed]
    -- Both sides select from one walk the packages that are new and not up to date.
    refine congrArg (_ ++ ·) ?_
    simp only [called, List.filter_map, List.filter_filter]
    refine congrArg _ (List.filter_congr fun key _ => ?_)
    rw [Bool.eq_iff_iff]
    simp only [Draft.mem_presentAt, Function.comp, Bool.and_eq_true, decide_eq_true_eq,
      Bool.not_eq_true', List.contains_eq_mem, decide_eq_false_iff_not, h.installs]
    tauto
  · rw [hbrings.asked, hmem, asks_install]
    simp only [ReflTransGen.refl, hroot, not_false_eq_true, and_self, true_and]

/-- **An install adds what it calls for.** -/
theorem Linked.expandInstall (h : Linked r d) (hok : r.expandInstall d root target = .ok d') :
    Expands r requested ⟨.install, target, root⟩ d d' := by
  by_cases hroot : (root, target) ∈ d.places
  · exact h.expandInstall_of_mem hroot hok
  · exact h.expandInstall_of_not_mem hroot hok

/-- **Installs that are accepted**, whatever the draft holds. -/
theorem Linked.exists_expandInstall_iff (h : Linked r d) :
    (∃ d', r.expandInstall d root target = .ok d') ↔ r.Obtainable root target := by
  constructor
  · rintro ⟨d', hok⟩ key hreach
    have hexpands : Expands r [] ⟨.install, target, root⟩ d d' := h.expandInstall hok
    obtain ⟨hlinked, hplaces, -, -⟩ := hexpands
    have hmem := (hplaces key target).mpr (Or.inr (needed_install.mpr ⟨rfl, hreach⟩))
    exact ⟨hlinked.grounded.installable hmem, hlinked.grounded.acyclic hmem⟩
  · intro hroot
    rw [Resolver.expandInstall]
    split
    · split
      · exact ⟨_, rfl⟩
      · exact ⟨_, rfl⟩
    · exact hroot.exists_visits d (r.dependencies.explore_trail _ _)

/-! ## Removals -/

/-- What a walk of dependents takes over, and when it can. -/
theorem foldlM_collectDependent {found found' : List Package} :
    ∀ keys : List PackageKey, keys.foldlM (r.collectDependent target) found = .ok found' ↔
      (∀ key ∈ keys, r.snapshot.contains key = true → (r.status key target).Known) ∧
        found' = found ++ keys.filterMap fun key =>
          if (r.status key target).isInstalled then r.snapshot.get? key else none := by
  intro keys
  induction keys generalizing found with
  | nil => simp [pure, Except.pure, eq_comm (a := found)]
  | cons key keys ih =>
    rw [List.foldlM_cons, bind_eq_ok, List.forall_mem_cons, List.filterMap_cons]
    cases hget : r.snapshot.get? key with
    | none =>
      have hstep : r.collectDependent target found key = .ok found := by
        rw [collectDependent, hget]
      simp [hstep, ih, Snapshot.contains, hget]
    | some p =>
      by_cases hknown : (r.status key target).Known
      · have hstep : r.collectDependent target found key =
            .ok (if (r.status key target).isInstalled then found ++ [p] else found) := by
          rw [collectDependent, hget]
          cases hstatus : r.status key target with
          | unknown reason => exact absurd hstatus (hknown reason)
          | _ => rfl
        by_cases hinst : (r.status key target).isInstalled = true
        · simp [hstep, ih, hknown, hinst]
        · simp [hstep, ih, hknown, hinst]
      · have hstep : ∀ c, r.collectDependent target found key ≠ .ok c := by
          obtain ⟨reason, hreason⟩ := InstallStatus.exists_reason_of_not_known hknown
          intro c hok
          rw [collectDependent, hget, hreason] at hok
          cases hok
        simp [hstep, hknown, Snapshot.contains, hget]

/-- The packages other than `root` that depend on it. -/
def Resolver.above (r : Resolver) (root : PackageKey) : List PackageKey :=
  (r.dependents.reachable [root]).filter (· ≠ root)

theorem mem_above {key : PackageKey} :
    key ∈ r.above root ↔ ReflTransGen r.dependents.Leads root key ∧ key ≠ root := by
  simp [Resolver.above, Digraph.mem_reachable_singleton]

/-- The installed ones among packages, with what the snapshot says about them. -/
def Resolver.presentPackages (r : Resolver) (target : Target) (keys : List PackageKey) :
    List Package :=
  keys.filterMap fun key => if (r.status key target).isInstalled then r.snapshot.get? key else none

theorem mem_presentPackages {keys : List PackageKey} {p : Package} :
    p ∈ r.presentPackages target keys ↔ p.key ∈ keys ∧ r.snapshot.get? p.key = some p ∧
      (r.status p.key target).isInstalled = true := by
  simp only [Resolver.presentPackages, List.mem_filterMap]
  constructor
  · rintro ⟨key, hkey, hp⟩
    split at hp
    · rename_i hinst
      obtain rfl := (Snapshot.mem_of_get? hp).2
      exact ⟨hkey, hp, hinst⟩
    · cases hp
  · rintro ⟨hkey, hp, hinst⟩
    exact ⟨p.key, hkey, by rw [if_pos hinst, hp]⟩

theorem map_key_presentPackages (keys : List PackageKey) :
    (r.presentPackages target keys).map Package.key = keys.filter fun key =>
      r.snapshot.contains key && (r.status key target).isInstalled := by
  induction keys with
  | nil => rfl
  | cons key keys ih =>
    rw [Resolver.presentPackages, List.filterMap_cons, List.filter_cons, ← ih]
    by_cases hinst : (r.status key target).isInstalled = true
    · cases hget : r.snapshot.get? key with
      | none => simp [Snapshot.contains, hget, hinst, Resolver.presentPackages]
      | some p =>
        simp [Snapshot.contains, hget, hinst, Resolver.presentPackages,
          (Snapshot.mem_of_get? hget).2]
    · simp [hinst, Resolver.presentPackages]

theorem installedDependents_eq_ok_iff {found : List Package} :
    r.installedDependents root target = .ok found ↔
      (∀ key ∈ r.above root, r.snapshot.contains key = true → (r.status key target).Known) ∧
        found = r.presentPackages target (r.above root) :=
  foldlM_collectDependent _

/-- **What a removal asks for**: the store can tell whether the package is there; if it is,
the store can tell of all its dependents, and those that are there may go, too. -/
structure Resolver.Removable (r : Resolver) (requested : List (PackageKey × Target))
    (root : PackageKey) (target : Target) : Prop where
  known : (r.status root target).Known
  dependents : (r.status root target).isInstalled = true → ∀ key ∈ r.above root,
    r.snapshot.contains key = true → (r.status key target).Known
  unblocked : (r.status root target).isInstalled = true → r.cascade = false →
    ∀ key ∈ r.above root, r.snapshot.contains key = true →
      (r.status key target).isInstalled = true → (key, target) ∈ requested

theorem Resolver.Removable.mono {requested' : List (PackageKey × Target)}
    (h : r.Removable requested root target)
    (hsub : ∀ key, (key, target) ∈ requested → (key, target) ∈ requested') :
    r.Removable requested' root target where
  known := h.known
  dependents := h.dependents
  unblocked hinst hcascade key habove hcontains hpresent :=
    hsub key (h.unblocked hinst hcascade key habove hcontains hpresent)

/-- Adding removals one after the other. -/
theorem Linked.addSteps (h : Linked r d) (steps : List PlannedStep)
    (hall : ∀ s ∈ steps, s.kind = .uninstall ∧ r.snapshot.get? s.package.key = some s.package) :
    Linked r { d with graph := steps.foldl (fun g s => (g.addStep s).1) d.graph } ∧
      changes (steps.foldl (fun g s => (g.addStep s).1) d.graph) =
        (changes d.graph ++ steps.map PlannedStep.change).eraseDups ∧
      ∀ c, c ∈ (steps.foldl (fun g s => (g.addStep s).1) d.graph).asked ↔
        c ∈ d.graph.asked ∨ ∃ s ∈ steps, s.explicit = true ∧ c = s.change := by
  induction steps using List.reverseRecOn with
  | nil => exact ⟨h, by simp [eraseDups_of_nodup h.nodup], by simp⟩
  | append_singleton steps s ih =>
    obtain ⟨hlinked, hchanges, hasked⟩ := ih fun s hs => hall s (List.mem_append_left _ hs)
    obtain ⟨hkind, hs⟩ := hall s (List.mem_append_right _ (List.mem_singleton_self s))
    rw [List.foldl_append, List.foldl_cons, List.foldl_nil]
    have hadds := adds_addStep hlinked.nodup (s := s)
    refine ⟨hlinked.adds hadds hkind hs, ?_, fun c => ?_⟩
    · rw [hadds.changes, List.map_append, List.map_singleton, ← List.append_assoc,
        eraseDups_concat, hchanges]
      simp only [List.mem_eraseDups]
    · rw [hadds.asked, hasked, or_assoc]
      refine or_congr_right ?_
      simp [or_and_right, exists_or]

/-- The steps that remove a package and what depends on it. -/
def Resolver.removals (r : Resolver) (names : List PackageKey) (root : Package)
    (target : Target) : List PlannedStep :=
  (r.presentPackages target (r.above root.key)).map
    (fun p => ⟨p, target, .uninstall, names.contains p.key⟩) ++ [⟨root, target, .uninstall, true⟩]

/-- The packages that keep `root` from being removed unless the planner may cascade. -/
def Resolver.blocking (r : Resolver) (names : List PackageKey) (root : PackageKey)
    (target : Target) : List PackageKey :=
  ((r.presentPackages target (r.above root)).map Package.key).filter (! names.contains ·)

theorem blocking_eq_nil_iff {names : List PackageKey} :
    r.blocking names root target = [] ↔ ∀ key ∈ r.above root, r.snapshot.contains key = true →
      (r.status key target).isInstalled = true → key ∈ names := by
  rw [Resolver.blocking, map_key_presentPackages, List.filter_eq_nil_iff]
  constructor
  · intro h key hkey hcontains hinst
    have hmem := h key (List.mem_filter.mpr ⟨hkey, by rw [hcontains, hinst]; rfl⟩)
    simpa using hmem
  · intro h key hkey
    obtain ⟨hkey, hpresent⟩ := List.mem_filter.mp hkey
    rw [Bool.and_eq_true] at hpresent
    simpa using h key hkey hpresent.1 hpresent.2

theorem expandUninstall_of_known {names : List PackageKey} {p : Package}
    (hknown : (r.status p.key target).Known) : r.expandUninstall d p target names =
      if (r.status p.key target).isInstalled then
        r.installedDependents p.key target >>= fun dependents =>
          let blocking := (dependents.map Package.key).filter (! names.contains ·)
          if !blocking.isEmpty && !r.cascade then
            .error (.dependency (.requiredBy p.key blocking))
          else
            .ok { d with graph := ((dependents.foldl
              (fun g p => (g.addStep ⟨p, target, .uninstall, names.contains p.key⟩).1)
              d.graph).addStep ⟨p, target, .uninstall, true⟩).1 }
      else .ok d := by
  rw [expandUninstall]
  cases hstatus : r.status p.key target with
  | unknown reason => exact absurd hstatus (hknown reason)
  | notInstalled => rfl
  | upToDate => rfl
  | needsUpdate => rfl
  | atOtherTarget => rfl

/-- When a package that is there may be removed. -/
theorem removable_iff {names : List PackageKey}
    (hnames : ∀ key, key ∈ names ↔ (key, target) ∈ requested)
    (hknown : (r.status root target).Known) (hinst : (r.status root target).isInstalled = true) :
    r.Removable requested root target ↔
      (∀ key ∈ r.above root, r.snapshot.contains key = true → (r.status key target).Known) ∧
        ¬ (!(r.blocking names root target).isEmpty && !r.cascade) = true := by
  have hblocking := @blocking_eq_nil_iff r root target names
  simp only [hnames] at hblocking
  constructor
  · rintro ⟨-, hdependents, hunblocked⟩
    refine ⟨hdependents hinst, fun hrefused => ?_⟩
    rw [Bool.and_eq_true, Bool.not_eq_true', Bool.not_eq_true'] at hrefused
    rw [hblocking.mpr (hunblocked hinst hrefused.2)] at hrefused
    exact absurd hrefused.1 (by simp)
  · rintro ⟨hdependents, hallowed⟩
    refine ⟨hknown, fun _ => hdependents, fun _ hcascade => hblocking.mp ?_⟩
    simpa [hcascade] using hallowed

theorem foldl_removals (names : List PackageKey) (p : Package) (target : Target) (g : StepGraph) :
    (r.removals names p target).foldl (fun g s => (g.addStep s).1) g =
      (((r.presentPackages target (r.above p.key)).foldl
        (fun g p => (g.addStep ⟨p, target, .uninstall, names.contains p.key⟩).1) g).addStep
        ⟨p, target, .uninstall, true⟩).1 := by
  rw [Resolver.removals, List.foldl_append, List.foldl_map]
  rfl

/-- The removal of a package that is there, as steps added in turn. -/
theorem expandUninstall_eq_ok_iff {names : List PackageKey} {p : Package}
    (hnames : ∀ key, key ∈ names ↔ (key, target) ∈ requested) :
    r.expandUninstall d p target names = .ok d' ↔ r.Removable requested p.key target ∧
      d' = if (r.status p.key target).isInstalled then
        { d with graph := (r.removals names p target).foldl (fun g s => (g.addStep s).1) d.graph }
      else d := by
  by_cases hknown : (r.status p.key target).Known
  · rw [expandUninstall_of_known hknown]
    by_cases hinst : (r.status p.key target).isInstalled = true
    · rw [if_pos hinst, if_pos hinst, bind_eq_ok, removable_iff hnames hknown hinst, and_assoc,
        foldl_removals]
      simp only [installedDependents_eq_ok_iff, and_assoc]
      constructor
      · rintro ⟨_, hdependents, rfl, hok⟩
        refine ⟨hdependents, ?_⟩
        split at hok
        · cases hok
        · rename_i hallowed
          exact ⟨hallowed, (Except.ok.inj hok).symm⟩
      · rintro ⟨hdependents, hallowed, rfl⟩
        exact ⟨_, hdependents, rfl, if_neg hallowed⟩
    · rw [if_neg hinst, if_neg hinst, Except.ok.injEq, eq_comm]
      refine (and_iff_right ⟨hknown, fun h => absurd h hinst, fun h => absurd h hinst⟩).symm
  · constructor
    · intro hok
      obtain ⟨reason, hreason⟩ := InstallStatus.exists_reason_of_not_known hknown
      rw [expandUninstall, hreason] at hok
      cases hok
    · exact fun h => absurd h.1.known hknown

theorem not_needed_uninstall {key : PackageKey} {target' : Target} :
    ¬ r.Needed [⟨.uninstall, target, root⟩] key target' := by
  simp [Needed]

theorem change_removals {names : List PackageKey} {p : Package}
    (hp : r.snapshot.get? p.key = some p) (hinst : (r.status p.key target).isInstalled = true) :
    (r.removals names p target).map PlannedStep.change =
      r.called ⟨.uninstall, target, p.key⟩ := by
  have hroot : [p.key].filter (fun key =>
      r.snapshot.contains key && (r.status key target).isInstalled) = [p.key] := by
    simp [Snapshot.contains, hp, hinst]
  rw [called_uninstall r hinst, Digraph.reachable_singleton, List.filter_append, hroot,
    List.map_append, ← Resolver.above, ← map_key_presentPackages, Resolver.removals,
    List.map_append, List.map_map, List.map_map]
  rfl

/-- The removals act on packages of the snapshot. -/
theorem forall_mem_removals {names : List PackageKey} {p : Package}
    (hp : r.snapshot.get? p.key = some p) : ∀ s ∈ r.removals names p target,
      s.kind = .uninstall ∧ r.snapshot.get? s.package.key = some s.package := by
  intro s hs
  rcases List.mem_append.mp hs with hs | hs
  · obtain ⟨p', hp', rfl⟩ := List.mem_map.mp hs
    exact ⟨rfl, (mem_presentPackages.mp hp').2.1⟩
  · rw [List.mem_singleton.mp hs]
    exact ⟨rfl, hp⟩

/-- Of the removals those are asked for that the action asks for. -/
theorem exists_explicit_removal_iff {names : List PackageKey} {p : Package}
    (hp : r.snapshot.get? p.key = some p) (hinst : (r.status p.key target).isInstalled = true)
    (hnames : ∀ key, key ∈ names ↔ (key, target) ∈ requested) {c : Change} :
    (∃ s ∈ r.removals names p target, s.explicit = true ∧ c = s.change) ↔
      r.Asks requested ⟨.uninstall, target, p.key⟩ c := by
  rw [Asks, ← @change_removals r target names p hp hinst, List.mem_map]
  constructor
  · rintro ⟨s, hs, hexplicit, rfl⟩
    refine ⟨⟨s, hs, rfl⟩, ?_⟩
    rcases List.mem_append.mp hs with hs | hs
    · obtain ⟨p', -, rfl⟩ := List.mem_map.mp hs
      exact Or.inr ⟨rfl, (hnames p'.key).mp (by simpa using hexplicit)⟩
    · rw [List.mem_singleton.mp hs]
      exact Or.inl rfl
  · rintro ⟨⟨s, hs, rfl⟩, hasks⟩
    refine ⟨s, hs, ?_, rfl⟩
    rcases List.mem_append.mp hs with hs | hs
    · obtain ⟨p', hp', rfl⟩ := List.mem_map.mp hs
      -- A dependent is not the package that the action names, so it has been requested.
      rcases hasks with heq | ⟨-, hmem⟩
      · exact absurd (congrArg Prod.fst heq) (mem_above.mp (mem_presentPackages.mp hp').1).2
      · simpa using (hnames p'.key).mpr hmem
    · rw [List.mem_singleton.mp hs]

/-- **A removal adds what it calls for.** -/
theorem Linked.expandUninstall (h : Linked r d) {names : List PackageKey} {p : Package}
    (hp : r.snapshot.get? p.key = some p) (hnames : ∀ key, key ∈ names ↔ (key, target) ∈ requested)
    (hok : r.expandUninstall d p target names = .ok d') :
    Expands r requested ⟨.uninstall, target, p.key⟩ d d' := by
  obtain ⟨-, rfl⟩ := (expandUninstall_eq_ok_iff hnames).mp hok
  by_cases hinst : (r.status p.key target).isInstalled = true
  · rw [if_pos hinst]
    obtain ⟨hlinked, hchanges, hasked⟩ := h.addSteps (r.removals names p target) (forall_mem_removals hp)
    refine ⟨hlinked, fun key target' => (or_iff_left not_needed_uninstall).symm, ?_, fun c => ?_⟩
    · rw [hchanges, change_removals hp hinst]
    · rw [hasked, exists_explicit_removal_iff hp hinst hnames]
  · rw [if_neg hinst]
    have hcalled := called_uninstall_of_absent r hinst
    refine ⟨h, fun key target' => (or_iff_left not_needed_uninstall).symm, ?_, fun c => ?_⟩
    · rw [hcalled, List.append_nil, eraseDups_of_nodup h.nodup]
    · refine (or_iff_left ?_).symm
      rintro ⟨hc, -⟩
      rw [hcalled] at hc
      cases hc

end Provision.Plan
