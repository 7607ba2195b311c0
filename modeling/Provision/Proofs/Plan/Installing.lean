import Provision.Proofs.Plan.Draft

/-!
# What one install adds to a draft

`addInstall` is called for a package whose dependencies are present.  It refuses an unknown
status, puts the package among the present ones, and makes a step unless the package is up
to date.  `Brings` states that for any number of packages added one after the other:
the invariant is kept, the packages are present, those that are not up to date get steps
in turn, and the package that the walk began with is marked as asked for.

`Brings.refl`, `brings_addInstall` and `Brings.trans` are the three steps of the induction
over a walk.
-/
namespace Provision.Plan
open Relation Resolver StepGraph

variable {r : Resolver} {d d' d'' : Draft} {p : Package} {target : Target} {explicit : Bool}

/-! ## The steps to wait for -/

/-- The steps that something which lists present dependencies waits for. -/
theorem Linked.mem_frontier (h : Linked r d) {key : PackageKey}
    (hp : r.snapshot.get? key = some p)
    (hdeps : ∀ x, r.snapshot.DependsOn key x → (x, target) ∈ d.places) {i : Nat} :
    i ∈ d.frontier p.dependencies target ↔
      ∃ key', (changes d.graph)[i]? = some (key', target, .install) ∧
        r.snapshot.DependsVia (fun x => r.status x target = .upToDate) key key' := by
  have hlists : ∀ x, r.snapshot.DependsOn key x ↔ x ∈ p.dependencies :=
    fun x => Snapshot.dependsOn_of_get? hp
  rw [Draft.frontier, List.mem_eraseDups, List.mem_flatMap]
  constructor
  · rintro ⟨x, hx, hi⟩
    obtain ⟨steps, hlookup, hentry⟩ := Draft.exists_mem_present (hdeps x ((hlists x).mpr hx))
    rw [hlookup] at hi
    obtain ⟨key', hkey', hreach⟩ := (h.waits x target steps hentry i).mp hi
    exact ⟨key', hkey', x, (hlists x).mpr hx, hreach⟩
  · rintro ⟨key', hkey', x, hx, hreach⟩
    obtain ⟨steps, hlookup, hentry⟩ := Draft.exists_mem_present (hdeps x hx)
    refine ⟨x, (hlists x).mp hx, ?_⟩
    rw [hlookup]
    exact (h.waits x target steps hentry i).mpr ⟨key', hkey', hreach⟩

/-- The graph of a draft installs needed packages only. -/
theorem Linked.mem_places (h : Linked r d) {key : PackageKey} {i : Nat}
    (hi : (changes d.graph)[i]? = some (key, target, .install)) : (key, target) ∈ d.places :=
  ((h.installs key target).mp (List.mem_of_getElem? hi)).1

/-- Passing on from a package gets to it or to something it depends on. -/
theorem reach_passes_iff {key key' : PackageKey} :
    ReflTransGen (r.Passes target) key key' ↔ key' = key ∨ (r.status key target = .upToDate ∧
      r.snapshot.DependsVia (fun x => r.status x target = .upToDate) key key') := by
  constructor
  · intro h
    rcases ReflTransGen.cases_head h with rfl | ⟨first, hfirst, hrest⟩
    · exact Or.inl rfl
    · exact Or.inr ⟨hfirst.1, first, hfirst.2, hrest⟩
  · rintro (rfl | ⟨hstatus, first, hfirst, hrest⟩)
    · exact ReflTransGen.refl
    · exact ReflTransGen.head ⟨hstatus, hfirst⟩ hrest

theorem orders_foldl_addOrder {i : Nat} (before : List Nat) (g : StepGraph) :
    (before.foldl (fun g j => g.addOrder j i) g).steps = g.steps ∧
      ∀ j k, (j, k) ∈ (before.foldl (fun g j => g.addOrder j i) g).orders ↔
        (j, k) ∈ g.orders ∨ (j ∈ before ∧ k = i) := by
  induction before generalizing g with
  | nil => simp
  | cons j' before ih =>
    obtain ⟨hsteps, horders⟩ := ih (g.addOrder j' i)
    refine ⟨hsteps, fun j k => ?_⟩
    rw [List.foldl_cons, horders]
    simp only [addOrder, List.mem_cons, Prod.mk.injEq]
    tauto

/-! ## One install -/

theorem known_of_addInstall (hok : r.addInstall d p target explicit = .ok d') :
    (r.status p.key target).Known := by
  intro reason hunknown
  rw [addInstall, hunknown] at hok
  cases hok

theorem addInstall_of_upToDate (h : r.status p.key target = .upToDate) :
    r.addInstall d p target explicit = .ok { d with
      present := ((p.key, target), d.frontier p.dependencies target) :: d.present } := by
  rw [addInstall, h]

theorem addInstall_of_known (hknown : (r.status p.key target).Known)
    (h : r.status p.key target ≠ .upToDate) :
    r.addInstall d p target explicit = .ok
      { graph := (d.frontier p.dependencies target).foldl
          (fun g j => g.addOrder j (d.graph.addStep ⟨p, target, .install, explicit⟩).2)
          (d.graph.addStep ⟨p, target, .install, explicit⟩).1
        present := ((p.key, target), [(d.graph.addStep ⟨p, target, .install, explicit⟩).2]) ::
          d.present } := by
  rw [addInstall]
  cases hstatus : r.status p.key target with
  | unknown reason => exact absurd hstatus (hknown reason)
  | upToDate => exact absurd hstatus h
  | notInstalled => rfl
  | needsUpdate => rfl
  | atOtherTarget => rfl

/-- **What adding packages in turn does to a draft.** -/
structure Brings (r : Resolver) (root : PackageKey) (target : Target) (keys : List PackageKey)
    (d d' : Draft) : Prop where
  linked : Linked r d'
  places : d'.places = (keys.map (·, target)).reverse ++ d.places
  changes : Resolver.changes d'.graph = Resolver.changes d.graph ++
    (keys.filter fun key => r.status key target ≠ .upToDate).map (·, target, .install)
  asked : ∀ c, c ∈ d'.graph.asked ↔ c ∈ d.graph.asked ∨
    (root ∈ keys ∧ r.status root target ≠ .upToDate ∧ c = (root, target, .install))

theorem Brings.refl (h : Linked r d) (root : PackageKey) (target : Target) :
    Brings r root target [] d d where
  linked := h
  places := rfl
  changes := by simp
  asked := by simp

theorem Brings.trans {root : PackageKey} {keys keys' : List PackageKey}
    (h : Brings r root target keys d d') (h' : Brings r root target keys' d' d'') :
    Brings r root target (keys ++ keys') d d'' where
  linked := h'.linked
  places := by rw [h'.places, h.places, List.map_append, List.reverse_append, List.append_assoc]
  changes := by
    rw [h'.changes, h.changes, List.filter_append, List.map_append, List.append_assoc]
  asked := by
    intro c
    rw [h'.asked, h.asked, List.mem_append]
    tauto

/-- A package that is up to date passes on what it waits for. -/
theorem Linked.addInstall_upToDate (h : Linked r d) (hp : r.snapshot.get? p.key = some p)
    (hsupports : p.supports target = true) (hnew : (p.key, target) ∉ d.places)
    (hdeps : ∀ x, r.snapshot.DependsOn p.key x → (x, target) ∈ d.places)
    (hstatus : r.status p.key target = .upToDate) :
    Linked r { d with
      present := ((p.key, target), d.frontier p.dependencies target) :: d.present } where
  nodup := h.nodup
  packages := h.packages
  grounded := h.grounded.cons hnew ⟨p, hp, hsupports, by simp [hstatus, InstallStatus.Known]⟩ hdeps
  installs := by
    intro key target'
    refine (h.installs key target').trans (and_congr_left fun hne => ?_)
    refine (List.mem_cons.trans (or_iff_right ?_)).symm
    rintro heq
    cases heq
    exact hne hstatus
  waits := by
    intro key target' steps hentry i
    rcases List.mem_cons.mp hentry with heq | hentry
    · cases heq
      rw [h.mem_frontier hp hdeps]
      refine exists_congr fun key' => and_congr_right fun hi => ?_
      -- Being up to date, the package passes on what its dependencies pass on.
      rw [reach_passes_iff, hstatus]
      constructor
      · exact fun hvia => Or.inr ⟨rfl, hvia⟩
      · rintro (rfl | ⟨-, hvia⟩)
        · exact absurd (h.mem_places hi) hnew
        · exact hvia
    · exact h.waits key target' steps hentry i
  orders := h.orders

/-- Whether the `i`th change of a graph is an install, the graph having been extended by an
install of `p`. -/
def InstalledAt (d : Draft) (p : Package) (target : Target) (i : Nat) (key : PackageKey)
    (target' : Target) : Prop :=
  (changes d.graph)[i]? = some (key, target', .install) ∨
    (i = d.graph.steps.length ∧ key = p.key ∧ target' = target)

theorem installedAt_iff {g : StepGraph}
    (hsteps : g.steps = d.graph.steps ++ [⟨p, target, .install, explicit⟩]) {i : Nat}
    {key : PackageKey} {target' : Target} :
    (changes g)[i]? = some (key, target', .install) ↔ InstalledAt d p target i key target' := by
  rw [getElem?_changes_of_concat hsteps]
  simp [InstalledAt, PlannedStep.change]

/-- What depends on the new package, or on what was present, waits for the right installs. -/
theorem Linked.waits_install (h : Linked r d) (hnew : (p.key, target) ∉ d.places)
    (hstatus : r.status p.key target ≠ .upToDate) {key : PackageKey} {target' : Target}
    {steps : List Nat}
    (hentry : ((key, target'), steps) ∈ ((p.key, target), [d.graph.steps.length]) :: d.present)
    {i : Nat} : i ∈ steps ↔ ∃ key', InstalledAt d p target i key' target' ∧
      ReflTransGen (r.Passes target') key key' := by
  rcases List.mem_cons.mp hentry with heq | hentry
  · cases heq
    rw [List.mem_singleton]
    constructor
    · rintro rfl
      exact ⟨p.key, Or.inr ⟨rfl, rfl, rfl⟩, ReflTransGen.refl⟩
    · rintro ⟨key', hi, hreach⟩
      -- The package is not up to date, so nothing is passed on from below it.
      obtain rfl : key' = p.key :=
        (reach_passes_iff.mp hreach).resolve_right fun hpass => hstatus hpass.1
      rcases hi with hi | hi
      · exact absurd (h.mem_places hi) hnew
      · exact hi.1
  · rw [h.waits key target' steps hentry i]
    -- What was present leads to nothing new.
    have hplace : (key, target') ∈ d.places := List.mem_map_of_mem hentry
    refine exists_congr fun key' => and_congr_left fun hreach => ?_
    refine (or_iff_left ?_).symm
    rintro ⟨-, rfl, rfl⟩
    exact hnew (h.grounded.mem_of_reach hplace (ReflTransGen.mono (fun _ _ h => h.2) _ _ hreach))

/-- The new step waits for its frontier, and the orders there are stay. -/
theorem Linked.orders_install (h : Linked r d) (hp : r.snapshot.get? p.key = some p)
    (hnew : (p.key, target) ∉ d.places)
    (hdeps : ∀ x, r.snapshot.DependsOn p.key x → (x, target) ∈ d.places) {i j : Nat} :
    ((j, i) ∈ d.graph.orders ∨
        (j ∈ d.frontier p.dependencies target ∧ i = d.graph.steps.length)) ↔
      ∃ key key' target', InstalledAt d p target i key target' ∧
        InstalledAt d p target j key' target' ∧
        r.snapshot.DependsVia (fun x => r.status x target' = .upToDate) key key' := by
  rw [h.orders]
  constructor
  · rintro (⟨key, key', target', hi, hj, hvia⟩ | ⟨hj, rfl⟩)
    · exact ⟨key, key', target', Or.inl hi, Or.inl hj, hvia⟩
    · obtain ⟨key', hj, hvia⟩ := (h.mem_frontier hp hdeps).mp hj
      exact ⟨p.key, key', target, Or.inr ⟨rfl, rfl, rfl⟩, Or.inl hj, hvia⟩
  · rintro ⟨key, key', target', hi, hj, hvia⟩
    -- Whatever `key` depends on was present before, so `j` cannot be the new step.
    have hplace : (key', target') ∈ d.places := by
      rcases hi with hi | ⟨-, rfl, rfl⟩
      · exact h.grounded.mem_of_reach (h.mem_places hi) hvia.transGen.to_reflTransGen
      · obtain ⟨first, hfirst, hrest⟩ := TransGen.head'_iff.mp hvia.transGen
        exact h.grounded.mem_of_reach (hdeps first hfirst) hrest
    replace hj : (changes d.graph)[j]? = some (key', target', .install) := by
      rcases hj with hj | ⟨-, rfl, rfl⟩
      · exact hj
      · exact absurd hplace hnew
    rcases hi with hi | ⟨rfl, rfl, rfl⟩
    · exact Or.inl ⟨key, key', target', hi, hj, hvia⟩
    · exact Or.inr ⟨(h.mem_frontier hp hdeps).mpr ⟨key', hj, hvia⟩, rfl⟩

theorem Linked.change_not_mem (h : Linked r d) (hnew : (p.key, target) ∉ d.places) :
    (p.key, target, .install) ∉ changes d.graph :=
  fun hmem => hnew ((h.installs p.key target).mp hmem).1

/-- A package that is not up to date gets a step, which waits for the installs below it. -/
theorem Linked.addInstall_step (h : Linked r d) (hp : r.snapshot.get? p.key = some p)
    (hinst : r.Installable p.key target) (hnew : (p.key, target) ∉ d.places)
    (hdeps : ∀ x, r.snapshot.DependsOn p.key x → (x, target) ∈ d.places)
    (hstatus : r.status p.key target ≠ .upToDate) {g : StepGraph}
    (hsteps : g.steps = d.graph.steps ++ [⟨p, target, .install, explicit⟩])
    (horders : ∀ j i, (j, i) ∈ g.orders ↔ (j, i) ∈ d.graph.orders ∨
      (j ∈ d.frontier p.dependencies target ∧ i = d.graph.steps.length)) :
    Linked r ⟨g, ((p.key, target), [d.graph.steps.length]) :: d.present⟩ := by
  constructor
  case nodup => exact nodup_of_concat hsteps h.nodup (h.change_not_mem hnew)
  case packages =>
    intro p' hp'
    change p' ∈ g.packages at hp'
    rw [packages_of_concat hsteps, List.mem_append, List.mem_singleton] at hp'
    rcases hp' with hp' | rfl
    · exact h.packages p' hp'
    · exact hp
  case grounded => exact h.grounded.cons hnew hinst hdeps
  case installs =>
    intro key target'
    change _ ∈ changes g ↔ _ ∈ (p.key, target) :: d.places ∧ _
    rw [changes_of_concat hsteps, List.mem_append, h.installs, List.mem_singleton, List.mem_cons,
      or_and_right, or_comm]
    refine or_congr_left ?_
    simp only [PlannedStep.change, Prod.mk.injEq, and_true]
    constructor
    · rintro ⟨rfl, rfl⟩
      exact ⟨⟨rfl, rfl⟩, hstatus⟩
    · exact fun h => h.1
  case waits =>
    intro key target' steps hentry i
    change _ ↔ ∃ key', (changes g)[i]? = _ ∧ _
    simp only [installedAt_iff hsteps]
    exact h.waits_install hnew hstatus hentry
  case orders =>
    intro i j
    change _ ∈ g.orders ↔ ∃ key key' target, (changes g)[i]? = _ ∧ (changes g)[j]? = _ ∧ _
    simp only [installedAt_iff hsteps]
    rw [horders]
    exact h.orders_install hp hnew hdeps

/-- **Adding a package brings it.** -/
theorem brings_addInstall (h : Linked r d) (hp : r.snapshot.get? p.key = some p)
    (hsupports : p.supports target = true) (hnew : (p.key, target) ∉ d.places)
    (hdeps : ∀ x, r.snapshot.DependsOn p.key x → (x, target) ∈ d.places) {root : PackageKey}
    (hok : r.addInstall d p target (p.key = root) = .ok d') :
    Brings r root target [p.key] d d' := by
  have hknown := known_of_addInstall hok
  by_cases hstatus : r.status p.key target = .upToDate
  · rw [addInstall_of_upToDate hstatus] at hok
    cases hok
    refine ⟨h.addInstall_upToDate hp hsupports hnew hdeps hstatus, rfl, by simp [hstatus], ?_⟩
    intro c
    refine (or_iff_left ?_).symm
    rintro ⟨hroot, hne, -⟩
    rw [List.mem_singleton.mp hroot] at hne
    exact hne hstatus
  · rw [addInstall_of_known hknown hstatus] at hok
    rw [addStep_of_not_mem (s := ⟨p, target, .install, p.key = root⟩)
      (h.change_not_mem hnew)] at hok
    cases hok
    obtain ⟨hsteps, horders⟩ := orders_foldl_addOrder (i := d.graph.steps.length)
      (d.frontier p.dependencies target)
      { d.graph with steps := d.graph.steps ++ [⟨p, target, .install, p.key = root⟩] }
    refine ⟨h.addInstall_step hp ⟨p, hp, hsupports, hknown⟩ hnew hdeps hstatus hsteps horders,
      rfl, ?_, ?_⟩
    · rw [changes_eq, hsteps, List.map_append]
      simp [hstatus, changes_eq, PlannedStep.change]
    · intro c
      rw [mem_asked_of_concat hsteps, decide_eq_true_eq, List.mem_singleton]
      refine or_congr_right ?_
      constructor
      · rintro ⟨rfl, rfl⟩
        exact ⟨rfl, hstatus, rfl⟩
      · rintro ⟨rfl, -, rfl⟩
        exact ⟨rfl, rfl⟩

/-! ## A walk of dependencies -/

theorem installVisit_entered {root key : PackageKey} :
    r.installVisit root target d (.entered key) = .ok d' ↔
      d' = d ∧ ∃ p, r.snapshot.get? key = some p ∧ p.supports target = true := by
  rw [installVisit]
  cases r.snapshot.get? key with
  | none => simp
  | some p =>
    by_cases hp : p.supports target = true
    · simp [hp, eq_comm (a := d)]
    · simp [hp]

theorem installVisit_left {root key : PackageKey} (hp : r.snapshot.get? key = some p) :
    r.installVisit root target d (.left key) = r.addInstall d p target (p.key = root) := by
  rw [installVisit, hp, (Snapshot.mem_of_get? hp).2]

/-- What an accepted record of a walk shows. -/
structure Accepted (r : Resolver) (root : PackageKey) (target : Target)
    (visits : List (Visit PackageKey)) (d d' : Draft) : Prop where
  brings : Brings r root target (Visit.lefts visits) d d'
  uncycled : ∀ cycle, .closed cycle ∉ visits
  supports : ∀ key, .entered key ∈ visits →
    ∃ p, r.snapshot.get? key = some p ∧ p.supports target = true

/-- Leaving a package adds it: it is new, and what it depends on was settled or left. -/
theorem Accepted.leave {c : Draft} {root key : PackageKey} {path : List PackageKey}
    {visits : List (Visit PackageKey)} (h : Accepted r root target visits d c)
    (ht : Digraph.Trail r.dependencies (d.presentAt target) [root] (key :: path) visits)
    (hdealt : ∀ x, r.dependencies.Leads key x →
      Digraph.Dealt (d.presentAt target) path key visits x)
    (hok : r.installVisit root target c (.left key) = .ok d') :
    Accepted r root target (visits ++ [.left key]) d d' := by
  obtain ⟨hbrings, huncycled, hall⟩ := h
  obtain ⟨p, hp, hsupports⟩ := hall key (ht.entered_iff.mpr (Or.inl (List.mem_cons_self ..)))
  obtain ⟨-, rfl⟩ := Snapshot.mem_of_get? hp
  rw [installVisit_left hp] at hok
  -- Present by now is what the walk found present and what it has left.
  have hplaces : ∀ x, (x, target) ∈ c.places ↔
      x ∈ d.presentAt target ∨ x ∈ Visit.lefts visits := by
    intro x
    rw [hbrings.places, List.mem_append, Draft.mem_presentAt, or_comm]
    simp
  have hnew : (p.key, target) ∉ c.places := by
    rw [hplaces]
    have hfresh := ht.fresh
    rintro (hx | hx)
    · exact hfresh.2 p.key (by simp) hx
    · exact (List.nodup_cons.mp hfresh.1).1 (List.mem_append_right _ hx)
  have hdeps : ∀ x, r.snapshot.DependsOn p.key x → (x, target) ∈ c.places := by
    intro x hx
    rw [hplaces]
    rcases hdealt x hx with hx | hx | ⟨-, hx⟩
    · exact Or.inl hx
    · exact Or.inr hx
    · exact absurd hx (huncycled _)
  refine ⟨?_, by simpa using huncycled, by simpa using hall⟩
  rw [Visit.lefts_append, Visit.lefts_left]
  exact hbrings.trans (brings_addInstall hbrings.linked hp hsupports hnew hdeps hok)

/-- **A walk of dependencies brings the packages that it leaves.** -/
theorem accepted_of_trail (h : Linked r d) {root : PackageKey} {path : List PackageKey}
    {visits : List (Visit PackageKey)}
    (ht : Digraph.Trail r.dependencies (d.presentAt target) [root] path visits)
    (hok : visits.foldlM (r.installVisit root target) d = .ok d') :
    Accepted r root target visits d d' := by
  induction ht generalizing d' with
  | start =>
    cases hok
    exact ⟨Brings.refl h root target, by simp, by simp⟩
  | @enter path visits key _ _ _ _ _ ih =>
    obtain ⟨c, hc, hvisit⟩ := foldlM_concat_eq_ok.mp hok
    obtain ⟨rfl, hsupports⟩ := installVisit_entered.mp hvisit
    obtain ⟨hbrings, huncycled, hall⟩ := ih hc
    refine ⟨by simpa using hbrings, by simpa using huncycled, fun key' hkey' => ?_⟩
    rcases List.mem_append.mp hkey' with hkey' | hkey'
    · exact hall key' hkey'
    · cases List.mem_singleton.mp hkey'
      exact hsupports
  | close _ _ _ _ =>
    -- Taking over a closed cycle is refused.
    obtain ⟨c, -, hvisit⟩ := foldlM_concat_eq_ok.mp hok
    cases hvisit
  | leave ht hdealt ih =>
    obtain ⟨c, hc, hvisit⟩ := foldlM_concat_eq_ok.mp hok
    exact (ih hc).leave ht hdealt hvisit

theorem exists_addInstall_eq_ok (hknown : (r.status p.key target).Known) :
    ∃ d', r.addInstall d p target explicit = .ok d' := by
  by_cases h : r.status p.key target = .upToDate
  · exact ⟨_, addInstall_of_upToDate h⟩
  · exact ⟨_, addInstall_of_known hknown h⟩

/-- Whether everything that an install of `root` needs can be had. -/
def Resolver.Obtainable (r : Resolver) (root : PackageKey) (target : Target) : Prop :=
  ∀ key, ReflTransGen r.snapshot.DependsOn root key →
    r.Installable key target ∧ ¬ TransGen r.snapshot.DependsOn key key

/-- A walk of what can be had is accepted. -/
theorem Resolver.Obtainable.exists_visits {root : PackageKey}
    (hroot : r.Obtainable root target) (d : Draft) {settled : List PackageKey}
    {visits : List (Visit PackageKey)}
    (ht : Digraph.Trail r.dependencies settled [root] [] visits) :
    ∃ d', visits.foldlM (r.installVisit root target) d = .ok d' := by
  have hreach : ∀ key, key ∈ Visit.lefts visits → ReflTransGen r.snapshot.DependsOn root key := by
    intro key hkey
    obtain ⟨root', hroot', hreach⟩ := ht.reached (Or.inr hkey)
    exact List.mem_singleton.mp hroot' ▸ hreach
  refine exists_foldlM_eq_ok visits d fun v hv c => ?_
  cases v with
  | entered key =>
    have hkey := (ht.entered_iff.mp hv).resolve_left List.not_mem_nil
    obtain ⟨⟨p, hp, hsupports, -⟩, -⟩ := hroot key (hreach key hkey)
    exact ⟨c, installVisit_entered.mpr ⟨rfl, p, hp, hsupports⟩⟩
  | left key =>
    obtain ⟨⟨p, hp, -, hknown⟩, -⟩ := hroot key (hreach key (Visit.mem_lefts.mpr hv))
    rw [installVisit_left hp]
    exact exists_addInstall_eq_ok ((Snapshot.mem_of_get? hp).2 ▸ hknown)
  | closed path =>
    obtain ⟨hcycle, root', hroot', hwithin⟩ := ht.isCycle hv
    obtain ⟨key, hkey, hdepends⟩ := hcycle.transGen
    have hneeded := hwithin key hkey
    rw [List.mem_singleton.mp hroot'] at hneeded
    exact absurd hdepends (hroot key hneeded).2

end Provision.Plan
