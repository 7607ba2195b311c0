import Provision.Proofs.Plan.Resolution

/-!
# The steps of a resolved request

A graph that realizes a plan is written down as steps that realize it, whatever order
`StepGraph.ordered` finds (`Plans.realizes`).  So the steps of a resolved request make the
planned changes, each after those it waits for (`realizes_of_resolve`); and if the changes
are called for in such an order in the first place, a granted request is resolved to them
in the order in which they are called for (`Granted.resolve_of_ascending`).
-/
namespace Provision.Plan
open Relation Resolver StepGraph

variable {r : Resolver} {actions : List Action} {g : StepGraph} {order : List Nat}

theorem filterMap_getElem?_range {α : Type} (l : List α) :
    (List.range l.length).filterMap (l[·]?) = l := by
  refine List.ext_getElem? fun k => ?_
  rw [getElem?_filterMap_of_isSome]
  · by_cases hk : k < l.length
    · rw [List.getElem?_range hk]
      rfl
    · rw [List.getElem?_eq_none (by simpa using hk), List.getElem?_eq_none (by simpa using hk)]
      rfl
  · intro k hk
    rw [List.getElem?_eq_getElem (List.mem_range.mp hk)]
    rfl

/-- The changes of a plan, in the order of its steps. -/
def lineUp (planned : List Change) (order : List Nat) : List Change :=
  order.filterMap (planned[·]?)

namespace Plans

theorem length_steps (h : Plans r actions g) : g.steps.length = (r.planned actions).length := by
  rw [← h.changes, length_changes]

theorem perm_lineUp (h : Plans r actions g) (horder : g.ordered = .ok order) :
    (lineUp (r.planned actions) order).Perm (r.planned actions) := by
  have hperm := (perm_of_ordered horder).filterMap ((r.planned actions)[·]?)
  rwa [h.length_steps, filterMap_getElem?_range] at hperm

theorem getElem?_lineUp (h : Plans r actions g) (horder : g.ordered = .ok order) (k : Nat) :
    (lineUp (r.planned actions) order)[k]? = order[k]?.bind ((r.planned actions)[·]?) := by
  refine getElem?_filterMap_of_isSome (fun i hi => ?_) k
  have hlt := List.mem_range.mp ((perm_of_ordered horder).subset hi)
  rw [h.length_steps] at hlt
  rw [List.getElem?_eq_getElem hlt]
  rfl

/-- The steps come from planned steps. -/
theorem exists_of_getElem?_toSteps (horder : g.ordered = .ok order) {k : Nat} {s : Step}
    (hs : (toSteps g order)[k]? = some s) : ∃ i planned, order[k]? = some i ∧
      g.steps[i]? = some planned ∧ s = planned.toStep k (requiredPlaces g order i) := by
  rw [getElem?_toSteps (perm_of_ordered horder)] at hs
  obtain ⟨i, hi, hs⟩ := Option.bind_eq_some_iff.mp hs
  obtain ⟨planned, hplanned, rfl⟩ := Option.map_eq_some_iff.mp hs
  exact ⟨i, planned, hi, hplanned, rfl⟩

theorem exists_of_mem_toSteps (horder : g.ordered = .ok order) {s : Step}
    (hs : s ∈ toSteps g order) : ∃ (k i : Nat) (planned : PlannedStep), order[k]? = some i ∧
      g.steps[i]? = some planned ∧ s = planned.toStep k (requiredPlaces g order i) := by
  obtain ⟨k, hk⟩ := List.mem_iff_getElem?.mp hs
  exact ⟨k, exists_of_getElem?_toSteps horder hk⟩

theorem explicit_iff (h : Plans r actions g) {i : Nat} {s : PlannedStep}
    (hs : g.steps[i]? = some s) :
    s.explicit = true ↔ (⟨s.kind, s.target, s.package.key⟩ : Action) ∈ actions := by
  have hchange : (r.planned actions)[i]? = some s.change := by
    rw [← h.changes, getElem?_changes, hs]
    rfl
  have hasked : s.explicit = true ↔ s.change ∈ g.asked := by
    rw [mem_asked]
    constructor
    · exact fun hexplicit => ⟨s, List.mem_of_getElem? hs, hexplicit, rfl⟩
    · rintro ⟨s', hs', hexplicit, heq⟩
      obtain ⟨i', hi'⟩ := List.mem_iff_getElem?.mp hs'
      have hchange' : (r.planned actions)[i']? = some s.change := by
        rw [← h.changes, getElem?_changes, hi', ← heq]
        rfl
      -- No other step makes this change, so the step that was asked for is `s`.
      have hplace := eq_of_getElem?_of_nodup (r.nodup_planned actions) hchange' hchange
      rw [hplace, hs] at hi'
      rw [Option.some.inj hi']
      exact hexplicit
  rw [hasked, h.asked]
  exact and_iff_right (List.mem_of_getElem? hchange)

/-- What a step requires is what its change awaits. -/
theorem mem_requiredPlaces_iff (h : Plans r actions g) (horder : g.ordered = .ok order) {i : Nat}
    {c : Change} (hc : (r.planned actions)[i]? = some c) {k : Nat} :
    k ∈ requiredPlaces g order i ↔ ∃ c', (lineUp (r.planned actions) order)[k]? = some c' ∧
      Awaits r.snapshot (lineUp (r.planned actions) order) c c' := by
  rw [mem_requiredPlaces (nodup_of_ordered horder)]
  simp only [h.getElem?_lineUp horder, mem_predecessors, h.orders,
    Awaits.congr fun c => (h.perm_lineUp horder).mem_iff]
  constructor
  · rintro ⟨j, ⟨-, c₀, c', hc₀, hc', hawaits⟩, hj⟩
    obtain rfl : c = c₀ := Option.some.inj (hc.symm.trans hc₀)
    exact ⟨c', by rw [hj]; exact hc', hawaits⟩
  · rintro ⟨c', hc', hawaits⟩
    obtain ⟨j, hj, hc'⟩ := Option.bind_eq_some_iff.mp hc'
    have hlt : j < g.steps.length := by
      rw [h.length_steps]
      exact (List.getElem?_eq_some_iff.mp hc').1
    exact ⟨j, ⟨hlt, c, c', hc, hc', hawaits⟩, hj⟩

/-- **The steps of an ordered graph realize its plan.** -/
theorem realizes (h : Plans r actions g) (horder : g.ordered = .ok order) :
    Realizes r actions (lineUp (r.planned actions) order) (toSteps g order) := by
  have hnodup := nodup_of_ordered horder
  have hget := getElem?_toSteps (perm_of_ordered horder)
  constructor
  case change =>
    refine List.ext_getElem? fun k => ?_
    rw [List.getElem?_map, hget, h.getElem?_lineUp horder, ← h.changes]
    cases order[k]? with
    | none => rfl
    | some i =>
      simp only [Option.bind_some, getElem?_changes, Option.map_map]
      rfl
  case order =>
    intro k s hs
    obtain ⟨i, planned, -, -, rfl⟩ := exists_of_getElem?_toSteps horder hs
    rfl
  case version =>
    intro s hs
    obtain ⟨k, i, planned, -, hplanned, rfl⟩ := exists_of_mem_toSteps horder hs
    exact ⟨planned.package, h.packages _ (List.mem_map_of_mem (List.mem_of_getElem? hplanned)), rfl⟩
  case explicit =>
    intro s hs
    obtain ⟨k, i, planned, -, hplanned, rfl⟩ := exists_of_mem_toSteps horder hs
    exact h.explicit_iff hplanned
  case requires =>
    intro s hs j
    obtain ⟨k, i, planned, -, hplanned, rfl⟩ := exists_of_mem_toSteps horder hs
    have hchange : (r.planned actions)[i]? = some planned.change := by
      rw [← h.changes, getElem?_changes, hplanned]
      rfl
    change j ∈ requiredPlaces g order i ↔ ∃ c, _ ∧ Awaits _ _ planned.change c
    exact h.mem_requiredPlaces_iff horder hchange
  case ascending =>
    intro s hs
    obtain ⟨k, i, planned, -, -, rfl⟩ := exists_of_mem_toSteps horder hs
    exact ascending_requiredPlaces hnodup

/-- Steps only wait for earlier ones. -/
theorem requires_lt (horder : g.ordered = .ok order) {s : Step} (hs : s ∈ toSteps g order)
    {j : Nat} (hj : j ∈ s.requires) : j < s.order := by
  have hnodup := nodup_of_ordered horder
  obtain ⟨k, i, planned, hi, -, rfl⟩ := exists_of_mem_toSteps horder hs
  obtain ⟨i', hpred, hi'⟩ := (mem_requiredPlaces hnodup).mp hj
  have hbefore := mem_of_ordered horder (prefix_of_getElem? hi) hpred
  obtain ⟨j', hlt, hj'⟩ := exists_lt_of_mem_take hbefore
  rw [eq_of_getElem?_of_nodup hnodup hi' hj']
  exact hlt

end Plans

/-- **What a resolution amounts to**: the request is granted, and the steps realize its plan
in an order that puts every step after those it waits for. -/
theorem realizes_of_resolve {steps : List Step} (h : r.resolve actions = .ok steps) :
    Granted r actions ∧ ∃ planned, planned.Perm (r.planned actions) ∧
      Realizes r actions planned steps ∧ ∀ s ∈ steps, ∀ j ∈ s.requires, j < s.order := by
  obtain ⟨hgranted, g, order, hplans, horder, rfl⟩ := granted_of_resolve h
  exact ⟨hgranted, _, hplans.perm_lineUp horder, hplans.realizes horder,
    fun s hs j hj => Plans.requires_lt horder hs hj⟩

/-- A plan without contradictions makes one change to a package at a target. -/
theorem Granted.eq_of_place (h : Granted r actions) {c c' : Change}
    (hc : c ∈ r.planned actions) (hc' : c' ∈ r.planned actions)
    (heq : (c.1, c.2.1) = (c'.1, c'.2.1)) : c = c' := by
  obtain ⟨key, target, kind⟩ := c
  obtain ⟨key', target', kind'⟩ := c'
  cases heq
  have hopposed : (key, target, .install) ∈ r.planned actions →
      (key, target, .uninstall) ∉ r.planned actions :=
    fun hinstall => (h.compatible key target (r.mem_planned_install.mp hinstall).1).2
  cases kind <;> cases kind'
  · rfl
  · exact absurd hc' (hopposed hc)
  · exact absurd hc (hopposed hc')
  · rfl

/-- **A plan that is called for in order is resolved to that order.** -/
theorem Granted.resolve_of_ascending (h : Granted r actions)
    (hascending : ∀ (i j : Nat) (c c' : Change), (r.planned actions)[i]? = some c →
      (r.planned actions)[j]? = some c' → Awaits r.snapshot (r.planned actions) c c' → j < i) :
    ∃ steps, r.resolve actions = .ok steps ∧ Realizes r actions (r.planned actions) steps := by
  obtain ⟨g, hplans, hresolve⟩ := h.exists_graph
  have horder : g.ordered = .ok (List.range g.steps.length) := by
    refine ordered_of_ascending fun j i _ hmem => ?_
    obtain ⟨c, c', hc, hc', hawaits⟩ := (hplans.orders i j).mp hmem
    exact hascending i j c c' hc hc' hawaits
  refine ⟨_, hresolve _ horder, ?_⟩
  have hline : lineUp (r.planned actions) (List.range g.steps.length) = r.planned actions := by
    rw [lineUp, hplans.length_steps, filterMap_getElem?_range]
  have hrealizes := hplans.realizes horder
  rw [hline] at hrealizes
  exact hrealizes

end Provision.Plan
