import Provision.Proofs.Plan.Expansion
import Provision.Proofs.Plan.Ordering
import Provision.Proofs.Validation

/-!
# Resolving a whole request

A request is granted under conditions that speak of its actions and of the snapshot only
(`Granted`).  Working the actions off then leads to a draft that holds what they call for
together (`Drafted`, by induction on the actions), and with the removals ordered to a graph
that realizes the plan (`Plans`).  Nothing but a cycle among the waiting steps can refuse
the request after that (`Granted.exists_graph`, `granted_of_resolve`).
-/
namespace Provision.Plan
open Relation Resolver StepGraph

variable {r : Resolver} {actions : List Action} {d : Draft}

/-- The removals that a request asks for. -/
def requestedRemovals (actions : List Action) : List (PackageKey × Target) :=
  (actions.filter (·.kind = .uninstall)).map fun a => (a.key, a.target)

theorem mem_requestedRemovals {key : PackageKey} {target : Target} :
    (key, target) ∈ requestedRemovals actions ↔
      (⟨.uninstall, target, key⟩ : Action) ∈ actions := by
  simp only [requestedRemovals, List.mem_map, List.mem_filter, decide_eq_true_eq]
  constructor
  · rintro ⟨⟨kind, target', key'⟩, ⟨ha, rfl⟩, heq⟩
    cases heq
    exact ha
  · exact fun ha => ⟨_, ⟨ha, rfl⟩, rfl⟩

/-- **What a request has to satisfy**, before the order of its steps is looked at. -/
structure Granted (r : Resolver) (actions : List Action) : Prop where
  /-- The packages of the actions are on offer. -/
  offered : ∀ a ∈ actions, ∃ p, r.snapshot.get? a.key = some p ∧ p.supports a.target = true
  obtainable : ∀ root target, (⟨.install, target, root⟩ : Action) ∈ actions →
    r.Obtainable root target
  removable : ∀ root target, (⟨.uninstall, target, root⟩ : Action) ∈ actions →
    r.Removable (requestedRemovals actions) root target
  /-- Nothing that an install needs is to be removed. -/
  compatible : ∀ key target, r.Needed actions key target →
    (⟨.uninstall, target, key⟩ : Action) ∉ actions ∧ (key, target, .uninstall) ∉ r.planned actions

/-! ## Working the actions off -/

/-- **What a draft holds** after the actions in `done`. -/
structure Drafted (r : Resolver) (requested : List (PackageKey × Target)) (done : List Action)
    (d : Draft) : Prop where
  linked : Linked r d
  places : ∀ key target, (key, target) ∈ d.places ↔ r.Needed done key target
  changes : Resolver.changes d.graph = r.planned done
  asked : ∀ c, c ∈ d.graph.asked ↔ ∃ a ∈ done, r.Asks requested a c

variable {requested : List (PackageKey × Target)} {done : List Action}

theorem drafted_empty : Drafted r requested [] Draft.empty where
  linked := linked_empty r
  places := by simp [Draft.empty, Draft.places, Needed]
  changes := rfl
  asked := by simp [Draft.empty, StepGraph.empty, StepGraph.asked]

theorem Drafted.expand {d' : Draft} {a : Action} (h : Drafted r requested done d)
    (ha : Expands r requested a d d') : Drafted r requested (done ++ [a]) d' where
  linked := ha.linked
  places := by
    intro key target
    rw [ha.places, h.places]
    simp only [Needed, List.mem_append, or_and_right, exists_or]
  changes := by
    rw [ha.changes, h.changes, planned_append]
    simp
  asked := by
    intro c
    rw [ha.asked, h.asked]
    simp [or_and_right, exists_or]

/-- The names that removals at a target are compared with. -/
theorem mem_requestedNames {key : PackageKey} {target : Target} :
    (key ∈ requested.filterMap fun (key, target') => if target' = target then some key else none) ↔
      (key, target) ∈ requested := by
  rw [List.mem_filterMap]
  constructor
  · rintro ⟨⟨key', target'⟩, hmem, h⟩
    dsimp only at h
    split at h
    · rename_i htarget
      cases htarget
      cases Option.some.inj h
      exact hmem
    · cases h
  · exact fun hmem => ⟨_, hmem, if_pos rfl⟩

/-- What is asked for by a single action. -/
def Resolver.Grants (r : Resolver) (requested : List (PackageKey × Target)) (a : Action) : Prop :=
  match a.kind with
  | .install => r.Obtainable a.key a.target
  | .uninstall => r.Removable requested a.key a.target

theorem expands_of_expand {d' : Draft} {a : Action} {p : Package} (h : Linked r d)
    (hp : r.snapshot.get? a.key = some p) (hok : r.expand requested d (a, p) = .ok d') :
    Expands r requested a d d' := by
  obtain ⟨kind, target, key⟩ := a
  obtain rfl := (Snapshot.mem_of_get? hp).2
  cases kind with
  | install => exact h.expandInstall hok
  | uninstall => exact h.expandUninstall hp (fun _ => mem_requestedNames) hok

theorem exists_expand_iff {a : Action} {p : Package} (h : Linked r d)
    (hp : r.snapshot.get? a.key = some p) :
    (∃ d', r.expand requested d (a, p) = .ok d') ↔ r.Grants requested a := by
  obtain ⟨kind, target, key⟩ := a
  obtain rfl := (Snapshot.mem_of_get? hp).2
  cases kind with
  | install => exact h.exists_expandInstall_iff
  | uninstall =>
    change (∃ d', r.expandUninstall d p target _ = .ok d') ↔ r.Removable requested p.key target
    simp only [expandUninstall_eq_ok_iff fun _ => mem_requestedNames, exists_and_left,
      exists_eq, and_true]

/-- **Every action does its part**, in turn. -/
theorem drafted_of_foldlM {pairs : List (Action × Package)}
    (hpairs : ∀ e ∈ pairs, r.snapshot.get? e.1.key = some e.2)
    (hok : pairs.foldlM (r.expand requested) Draft.empty = .ok d) :
    Drafted r requested (pairs.map Prod.fst) d := by
  induction pairs using List.reverseRecOn generalizing d with
  | nil =>
    cases hok
    exact drafted_empty
  | append_singleton pairs e ih =>
    obtain ⟨c, hc, hstep⟩ := foldlM_concat_eq_ok.mp hok
    have hdrafted := ih (fun e he => hpairs e (List.mem_append_left _ he)) hc
    have he := hpairs e (List.mem_append_right _ (List.mem_singleton_self e))
    rw [List.map_append]
    exact hdrafted.expand (expands_of_expand hdrafted.linked he hstep)

/-- The actions are worked off exactly if each of them is granted. -/
theorem exists_foldlM_expand_iff {pairs : List (Action × Package)}
    (hpairs : ∀ e ∈ pairs, r.snapshot.get? e.1.key = some e.2) :
    (∃ d, pairs.foldlM (r.expand requested) Draft.empty = .ok d) ↔
      ∀ e ∈ pairs, r.Grants requested e.1 := by
  induction pairs using List.reverseRecOn with
  | nil => exact ⟨fun _ => by simp, fun _ => ⟨_, rfl⟩⟩
  | append_singleton pairs e ih =>
    have hrest : ∀ e ∈ pairs, r.snapshot.get? e.1.key = some e.2 :=
      fun e he => hpairs e (List.mem_append_left _ he)
    have he := hpairs e (List.mem_append_right _ (List.mem_singleton_self e))
    simp only [foldlM_concat_eq_ok, List.forall_mem_append, List.forall_mem_singleton]
    -- What the last action asks for does not depend on the draft that it finds.
    rw [← ih hrest]
    constructor
    · rintro ⟨d, c, hc, hstep⟩
      have hlinked := (drafted_of_foldlM hrest hc).linked
      exact ⟨⟨c, hc⟩, (exists_expand_iff hlinked he).mp ⟨d, hstep⟩⟩
    · rintro ⟨⟨c, hc⟩, hgrants⟩
      have hlinked := (drafted_of_foldlM hrest hc).linked
      obtain ⟨d, hstep⟩ := (exists_expand_iff hlinked he).mpr hgrants
      exact ⟨d, c, hc, hstep⟩

/-! ## Contradictions -/

/-- A plan in which nothing needed is removed has no two changes that oppose each other. -/
theorem findContradiction?_eq_none
    (hinstalls : ∀ key target, (key, target, .install) ∈ changes d.graph → (key, target) ∈ d.places)
    (hfree : ∀ key target, (key, target) ∈ d.places → (key, target, .uninstall) ∉ changes d.graph) :
    Validation.findContradiction? (changes d.graph) = none := by
  rw [Validation.findContradiction?_eq_none_iff]
  rintro ⟨key, target, hinstall, huninstall⟩
  exact hfree key target (hinstalls key target hinstall) huninstall

/-- The packages that the steps of a graph remove. -/
theorem mem_removed {g : StepGraph} {key : PackageKey} {target : Target} :
    (key, target) ∈ (g.steps.filter (·.kind = .uninstall)).map
        (fun s => (s.package.key, s.target)) ↔ (key, target, .uninstall) ∈ changes g := by
  simp only [changes_eq, List.mem_map, List.mem_filter, decide_eq_true_eq, PlannedStep.change,
    Prod.mk.injEq]
  constructor
  · rintro ⟨s, ⟨hs, hkind⟩, hkey, htarget⟩
    exact ⟨s, hs, hkey, htarget, hkind⟩
  · rintro ⟨s, hs, hkey, htarget, hkind⟩
    exact ⟨s, ⟨hs, hkind⟩, hkey, htarget⟩

/-- **Which plans are free of contradictions**: nothing needed is asked to go or goes. -/
theorem checkContradictions_eq_ok_iff
    (hinstalls : ∀ key target, (key, target, .install) ∈ changes d.graph → (key, target) ∈ d.places) :
    checkContradictions d requested = .ok () ↔ ∀ key target, (key, target) ∈ d.places →
      (key, target) ∉ requested ∧ (key, target, .uninstall) ∉ changes d.graph := by
  have hfind : (requested ++ (d.graph.steps.filter (·.kind = .uninstall)).map
      fun s => (s.package.key, s.target)).find? (fun (key, target) => d.needs key target) = none ↔
      ∀ key target, (key, target) ∈ d.places →
        (key, target) ∉ requested ∧ (key, target, .uninstall) ∉ changes d.graph := by
    rw [List.find?_eq_none]
    simp only [Prod.forall, List.mem_append, mem_removed, Draft.needs_iff, ← not_or]
    exact forall_congr' fun key => forall_congr' fun target => imp_not_comm
  rw [checkContradictions]
  constructor
  · intro hok
    split at hok
    · cases hok
    · dsimp only at hok
      split at hok
      · cases hok
      · rename_i hnone
        exact hfind.mp hnone
  · intro hfree
    rw [findContradiction?_eq_none hinstalls fun key target h => (hfree key target h).2]
    dsimp only
    rw [hfind.mpr hfree]

/-! ## The graph of a granted request -/

/-- **Graphs that realize a plan.** -/
structure Plans (r : Resolver) (actions : List Action) (g : StepGraph) : Prop where
  changes : Resolver.changes g = r.planned actions
  packages : ∀ p ∈ g.packages, r.snapshot.get? p.key = some p
  asked : ∀ c, c ∈ g.asked ↔
    c ∈ r.planned actions ∧ (⟨c.2.2, c.2.1, c.1⟩ : Action) ∈ actions
  orders : ∀ i j, (j, i) ∈ g.orders ↔ ∃ c c', (r.planned actions)[i]? = some c ∧
    (r.planned actions)[j]? = some c' ∧ Awaits r.snapshot (r.planned actions) c c'

/-- What is asked for is what is planned and named by an action. -/
theorem exists_asks_iff {c : Change} :
    (∃ a ∈ actions, r.Asks (requestedRemovals actions) a c) ↔
      c ∈ r.planned actions ∧ (⟨c.2.2, c.2.1, c.1⟩ : Action) ∈ actions := by
  obtain ⟨key, target, kind⟩ := c
  constructor
  · rintro ⟨a, ha, hcalled, heq | ⟨rfl, hrequested⟩⟩
    · cases heq
      exact ⟨(r.mem_planned).mpr ⟨a, ha, hcalled⟩, ha⟩
    · exact ⟨(r.mem_planned).mpr ⟨a, ha, hcalled⟩, mem_requestedRemovals.mp hrequested⟩
  · rintro ⟨hplanned, ha⟩
    cases kind with
    | install =>
      have hstatus := (r.mem_planned_install.mp hplanned).2
      exact ⟨_, ha, (r.mem_called_install).mpr ⟨key, rfl, ReflTransGen.refl, hstatus⟩, Or.inl rfl⟩
    | uninstall =>
      obtain ⟨a, ha', hcalled⟩ := (r.mem_planned).mp hplanned
      exact ⟨a, ha', hcalled, Or.inr ⟨rfl, mem_requestedRemovals.mpr ha⟩⟩

/-- Below something needed, being up to date and not being installed are the same. -/
theorem Drafted.dependsVia_iff (h : Drafted r requested actions d) {key key' : PackageKey}
    {target : Target} (hkey : (key, target) ∈ d.places) :
    r.snapshot.DependsVia (fun x => r.status x target = .upToDate) key key' ↔
      r.snapshot.DependsVia (fun x => (x, target, .install) ∉ r.planned actions) key key' := by
  refine Snapshot.DependsVia.congr fun x hx => ?_
  have hplace := h.linked.grounded.mem_of_reach hkey hx.to_reflTransGen
  rw [← h.changes, h.linked.installs]
  simp [hplace]

/-- **Ordering the removals completes the plan.** -/
theorem Drafted.plans (h : Drafted r (requestedRemovals actions) actions d) :
    Plans r actions (r.orderUninstalls d.graph) where
  changes := by rw [changes_orderUninstalls, h.changes]
  packages := by
    rw [StepGraph.packages, steps_orderUninstalls]
    exact h.linked.packages
  asked := by
    intro c
    rw [StepGraph.asked, steps_orderUninstalls, ← exists_asks_iff]
    exact h.asked c
  orders := by
    intro i j
    -- Among installs the orders are those of the draft, among removals those added now.
    rw [mem_orders_orderUninstalls h.linked.nodup h.linked.packages, h.linked.orders, ← h.changes]
    constructor
    · rintro (⟨key, key', target, hi, hj, hvia⟩ | ⟨key, key', target, hi, hj, hvia⟩)
      · refine ⟨_, _, hi, hj, rfl, ?_⟩
        rw [h.dependsVia_iff (h.linked.mem_places hi), ← h.changes] at hvia
        exact hvia
      · exact ⟨_, _, hi, hj, rfl, hvia⟩
    · rintro ⟨⟨key, target, kind⟩, ⟨key', target', kind'⟩, hi, hj, hplace, hvia⟩
      cases hplace
      cases kind with
      | install =>
        refine Or.inl ⟨key, key', target, hi, hj, ?_⟩
        rw [h.dependsVia_iff (h.linked.mem_places hi), ← h.changes]
        exact hvia
      | uninstall => exact Or.inr ⟨key, key', target, hi, hj, hvia⟩

/-! ## The outcome -/

theorem requestedPackage_eq_ok_iff {a : Action} {p : Package} : r.requestedPackage a = .ok p ↔
    r.snapshot.get? a.key = some p ∧ p.supports a.target = true := by
  rw [requestedPackage]
  cases r.snapshot.get? a.key with
  | none => simp
  | some p' =>
    by_cases hp : p'.supports a.target = true
    · simp only [hp, if_true, Except.ok.injEq, Option.some.injEq]
      exact ⟨fun heq => ⟨heq, heq ▸ hp⟩, And.left⟩
    · simp only [hp, Option.some.injEq]
      exact ⟨fun h => absurd h (by simp), fun ⟨heq, h⟩ => absurd (heq ▸ h) hp⟩

/-- The stages of a resolution. -/
theorem resolve_eq_ok_iff {steps : List Step} : r.resolve actions = .ok steps ↔
    ∃ packages d, actions.mapM r.requestedPackage = .ok packages ∧
      (actions.zip packages).foldlM (r.expand (requestedRemovals actions)) Draft.empty = .ok d ∧
      checkContradictions { d with graph := r.orderUninstalls d.graph }
        (requestedRemovals actions) = .ok () ∧
      ∃ order, (r.orderUninstalls d.graph).ordered = .ok order ∧
        steps = toSteps (r.orderUninstalls d.graph) order := by
  rw [resolve, bind_eq_ok]
  refine exists_congr fun packages => ?_
  rw [exists_and_left, ← requestedRemovals]
  refine and_congr_right fun _ => ?_
  rw [bind_eq_ok]
  refine exists_congr fun d => and_congr_right fun _ => ?_
  rw [bind_eq_ok]
  constructor
  · rintro ⟨⟨⟩, hcheck, hok⟩
    refine ⟨hcheck, ?_⟩
    split at hok
    · cases hok
    · rename_i order horder
      exact ⟨order, horder, (Except.ok.inj hok).symm⟩
  · rintro ⟨hcheck, order, horder, rfl⟩
    refine ⟨(), hcheck, ?_⟩
    rw [horder]

theorem Drafted.checkContradictions_iff (h : Drafted r (requestedRemovals actions) actions d) :
    checkContradictions { d with graph := r.orderUninstalls d.graph }
        (requestedRemovals actions) = .ok () ↔
      ∀ key target, r.Needed actions key target → (⟨.uninstall, target, key⟩ : Action) ∉ actions ∧
        (key, target, .uninstall) ∉ r.planned actions := by
  rw [checkContradictions_eq_ok_iff]
  · simp only [changes_orderUninstalls, h.changes, mem_requestedRemovals, ← h.places]
    rfl
  · intro key target hmem
    dsimp only at hmem
    rw [changes_orderUninstalls] at hmem
    exact ((h.linked.installs key target).mp hmem).1

theorem grants_iff : (∀ a ∈ actions, r.Grants requested a) ↔
    (∀ root target, (⟨.install, target, root⟩ : Action) ∈ actions → r.Obtainable root target) ∧
      ∀ root target, (⟨.uninstall, target, root⟩ : Action) ∈ actions →
        r.Removable requested root target := by
  constructor
  · exact fun h => ⟨fun _ _ ha => h _ ha, fun _ _ ha => h _ ha⟩
  · rintro ⟨hinstall, huninstall⟩ ⟨kind, target, root⟩ ha
    cases kind with
    | install => exact hinstall root target ha
    | uninstall => exact huninstall root target ha

/-- The actions with their packages. -/
theorem paired_of_mapM {packages : List Package}
    (h : actions.mapM r.requestedPackage = .ok packages) :
    (actions.zip packages).map Prod.fst = actions ∧
      ∀ e ∈ actions.zip packages, r.snapshot.get? e.1.key = some e.2 := by
  obtain ⟨hfst, hall⟩ := zip_of_mapM_eq_ok h
  exact ⟨hfst, fun e he => (requestedPackage_eq_ok_iff.mp (hall e he)).1⟩

/-- **A resolved request is granted, and its steps realize a plan.** -/
theorem granted_of_resolve {steps : List Step} (h : r.resolve actions = .ok steps) :
    Granted r actions ∧ ∃ g order, Plans r actions g ∧ g.ordered = .ok order ∧
      steps = toSteps g order := by
  obtain ⟨packages, d, hpackages, hd, hcheck, order, horder, rfl⟩ := resolve_eq_ok_iff.mp h
  obtain ⟨hfst, hpairs⟩ := paired_of_mapM hpackages
  have hdrafted := drafted_of_foldlM hpairs hd
  rw [hfst] at hdrafted
  refine ⟨?_, _, order, hdrafted.plans, horder, rfl⟩
  have hgrants : ∀ a ∈ actions, r.Grants (requestedRemovals actions) a := by
    intro a ha
    rw [← hfst] at ha
    obtain ⟨e, he, rfl⟩ := List.mem_map.mp ha
    exact (exists_foldlM_expand_iff hpairs).mp ⟨d, hd⟩ e he
  constructor
  case offered =>
    intro a ha
    obtain ⟨p, hp⟩ := exists_mapM_eq_ok_iff.mp ⟨packages, hpackages⟩ a ha
    exact ⟨p, requestedPackage_eq_ok_iff.mp hp⟩
  case obtainable => exact (grants_iff.mp hgrants).1
  case removable => exact (grants_iff.mp hgrants).2
  case compatible => exact hdrafted.checkContradictions_iff.mp hcheck

/-- **A granted request is resolved, if its plan can be ordered.** -/
theorem Granted.exists_graph (h : Granted r actions) :
    ∃ g, Plans r actions g ∧ ∀ order, g.ordered = .ok order →
      r.resolve actions = .ok (toSteps g order) := by
  obtain ⟨packages, hpackages⟩ : ∃ packages, actions.mapM r.requestedPackage = .ok packages := by
    refine exists_mapM_eq_ok_iff.mpr fun a ha => ?_
    obtain ⟨p, hp⟩ := h.offered a ha
    exact ⟨p, requestedPackage_eq_ok_iff.mpr hp⟩
  obtain ⟨hfst, hpairs⟩ := paired_of_mapM hpackages
  have hgrants := grants_iff.mpr ⟨h.obtainable, h.removable⟩
  obtain ⟨d, hd⟩ := (exists_foldlM_expand_iff hpairs).mpr fun e he =>
    hgrants e.1 (hfst ▸ List.mem_map_of_mem he)
  have hdrafted := drafted_of_foldlM hpairs hd
  rw [hfst] at hdrafted
  refine ⟨_, hdrafted.plans, fun order horder => resolve_eq_ok_iff.mpr ?_⟩
  exact ⟨packages, d, hpackages, hd, hdrafted.checkContradictions_iff.mpr h.compatible, order,
    horder, rfl⟩

end Provision.Plan
