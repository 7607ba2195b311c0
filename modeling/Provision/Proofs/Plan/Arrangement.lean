import Provision.Proofs.Plan.DependencyOrder
import Provision.Proofs.Plan.Postorder

/-!
# The order of a plan, in any snapshot

When every key names its package, changes are called for in an order that will do.  In a
snapshot with shadowed packages they need not be: the walk of dependents may go through a
package that `get?` does not find, and so call for a removal before one that it has to wait
for.  The steps are then rearranged by the walk in `StepGraph.ordered`.

What comes out depends on the planned changes and the snapshot alone.  The graph of
`awaiting` leads from each planned change to those it awaits, and `arranged` lists the
changes as a walk leaves them.  The graph of a resolution has numbers for changes and is
walked in the same order (`Plans.lineUp_eq`).  With that a resolution is told completely
without mentioning drafts or graphs of steps: a request is resolved when it is `Resolvable`
(`resolves_iff_resolvable`), and then to the steps that realize its arranged plan
(`resolve_eq_ok_iff_realizes`).

Part of a plan may stand on its own, awaiting nothing that the rest makes (`Detached`).  The
plan then has that part in the order in which it is arranged by itself: at the start, if the
part is called for first, and wherever it is called for, if nothing else waits for it.
-/
namespace Provision.Plan
open Relation Resolver StepGraph

variable {r : Resolver} {actions : List Action} {steps : List Step} {s : Snapshot}
  {planned : List Change} {c c' : Change} {key : PackageKey} {target : Target}

/-! ## Planned changes, arranged -/

/-- The graph that leads from each planned change to those it awaits. -/
noncomputable def awaiting (s : Snapshot) (planned : List Change) : Digraph Change where
  nodes := planned
  next c := planned.filter fun c' =>
    @decide (c ∈ planned ∧ Awaits s planned c c') (Classical.propDecidable _)
  next_eq_nil c hc := by
    refine List.filter_eq_nil_iff.mpr fun c' _ => ?_
    simp only [hc, false_and, decide_false, Bool.false_eq_true, not_false_eq_true]

/-- **The planned changes in the order in which a plan makes them.** -/
noncomputable def arranged (s : Snapshot) (planned : List Change) : List Change :=
  (awaiting s planned).reachable planned

theorem leads_awaiting : (awaiting s planned).Leads c c' ↔
    c ∈ planned ∧ c' ∈ planned ∧ Awaits s planned c c' := by
  simp only [Digraph.Leads, awaiting, List.mem_filter, decide_eq_true_eq]
  exact and_left_comm

theorem nodup_arranged : (arranged s planned).Nodup :=
  Digraph.nodup_reachable planned

theorem mem_arranged : c ∈ arranged s planned ↔ c ∈ planned := by
  rw [arranged, Digraph.mem_reachable]
  constructor
  · rintro ⟨root, hroot, hreach⟩
    rcases ReflTransGen.cases_tail hreach with rfl | ⟨c', -, hc'⟩
    · exact hroot
    · exact (leads_awaiting.mp hc').2.1
  · exact fun hc => ⟨c, hc, ReflTransGen.refl⟩

theorem map_idxOf_of_nodup {l : List Change} (h : l.Nodup) :
    l.map l.idxOf = List.range l.length := by
  refine List.ext_getElem (by simp) fun i hi _ => ?_
  rw [List.getElem_map, List.getElem_range]
  exact h.idxOf_getElem i (by simpa using hi)

/-! ## Parts of a plan -/

/-- **A part of a plan stands on its own** if its changes await nothing else, and await the
same when nothing else is planned. -/
def Detached (s : Snapshot) (planned : List Change) (keep : Change → Bool) : Prop :=
  ∀ c ∈ planned, keep c = true → ∀ c' ∈ planned,
    (Awaits s planned c c' ↔ keep c' = true ∧ Awaits s (planned.filter keep) c c')

namespace Detached
variable {keep : Change → Bool}

/-- No walk leads out of the part. -/
theorem mirrors (h : Detached s planned keep) :
    (awaiting s (planned.filter keep)).Mirrors (awaiting s planned) id
      (· ∈ planned.filter keep) where
  closed _ _ _ hlead := (leads_awaiting.mp hlead).2.1
  injective _ _ _ _ heq := heq
  next := by
    intro c hc
    obtain ⟨hplanned, hkeep⟩ := List.mem_filter.mp hc
    have hnext : (awaiting s planned).next c = (awaiting s (planned.filter keep)).next c := by
      show List.filter _ planned = List.filter _ (List.filter keep planned)
      rw [List.filter_filter]
      refine List.filter_congr fun c' hc' => ?_
      rw [Bool.eq_iff_iff, Bool.and_eq_true]
      simp only [decide_eq_true_eq, hplanned, hc, true_and, h c hplanned hkeep c' hc']
      exact and_comm
    rw [List.map_id]
    exact hnext

/-- A walk from the part arranges the part. -/
theorem reachable_eq (h : Detached s planned keep) :
    (awaiting s planned).reachable (planned.filter keep) = arranged s (planned.filter keep) := by
  have heq := h.mirrors.reachable fun c hc => hc
  rwa [List.map_id, List.map_id] at heq

/-- A part that is called for first is made first. -/
theorem isPrefix_arranged (h : Detached s planned keep)
    (hfirst : planned.filter keep <+: planned) :
    arranged s (planned.filter keep) <+: arranged s planned := by
  obtain ⟨rest, hrest⟩ := hfirst
  have hwalk := (awaiting s planned).reachable_isPrefix (planned.filter keep) rest
  rw [hrest, h.reachable_eq] at hwalk
  exact hwalk

/-- A part on which nothing else waits keeps its order in the plan. -/
theorem filter_arranged (h : Detached s planned keep)
    (hrest : ∀ c ∈ planned, ∀ c' ∈ planned, Awaits s planned c c' → keep c' = true →
      keep c = true) :
    (arranged s planned).filter keep = arranged s (planned.filter keep) := by
  rw [arranged, Digraph.filter_reachable, h.reachable_eq]
  intro c c' hlead
  obtain ⟨hc, hc', hawaits⟩ := leads_awaiting.mp hlead
  rw [Bool.eq_iff_iff]
  exact ⟨fun hkeep => ((h c hc hkeep c' hc').mp hawaits).1, hrest c hc c' hc' hawaits⟩

end Detached

/-! ## The order of a resolution -/

namespace Plans
variable {g : StepGraph} {order : List Nat}

/-- The graph of a resolution is the graph of its changes under the names of numbers. -/
theorem mirrors (h : Plans r actions g) :
    (awaiting r.snapshot (r.planned actions)).Mirrors g.waits (r.planned actions).idxOf
      (· ∈ r.planned actions) where
  closed _ _ _ hlead := (leads_awaiting.mp hlead).2.1
  injective _ _ hc _ heq := (List.idxOf_inj hc).mp heq
  next := by
    intro c hc
    have hplace := fun {c} (hc : c ∈ r.planned actions) => List.getElem?_idxOf hc
    -- Both sides select from the places of the changes, in their order.
    show g.predecessors _ = List.map _ (List.filter _ _)
    rw [StepGraph.predecessors, h.length_steps, ← map_idxOf_of_nodup (r.nodup_planned actions),
      List.filter_map]
    refine congrArg _ (List.filter_congr fun c' hc' => ?_)
    rw [Bool.eq_iff_iff, Function.comp, List.contains_iff_mem, h.orders]
    simp only [decide_eq_true_eq, hc, true_and]
    constructor
    · rintro ⟨c₀, c₁, hc₀, hc₁, hawaits⟩
      rw [hplace hc] at hc₀
      rw [hplace hc'] at hc₁
      cases hc₀
      cases hc₁
      exact hawaits
    · exact fun hawaits => ⟨c, c', hplace hc, hplace hc', hawaits⟩

/-- **The order of a resolution is that of its changes.** -/
theorem lineUp_eq (h : Plans r actions g) (horder : g.ordered = .ok order) :
    lineUp (r.planned actions) order = arranged r.snapshot (r.planned actions) := by
  obtain ⟨-, rfl⟩ := ordered_eq_ok_iff.mp horder
  rw [h.length_steps, ← map_idxOf_of_nodup (r.nodup_planned actions),
    h.mirrors.reachable fun _ hc => hc, ← arranged, lineUp, List.filterMap_map]
  have hplace : ∀ c ∈ arranged r.snapshot (r.planned actions),
      ((r.planned actions)[·]?) ((r.planned actions).idxOf c) = some c :=
    fun c hc => List.getElem?_idxOf (mem_arranged.mp hc)
  exact (List.filterMap_congr hplace).trans List.filterMap_some

/-- What a step waits for at some remove, its change has to follow. -/
theorem follows (h : Plans r actions g) {i j : Nat} (hreach : TransGen g.waits.Leads i j) :
    ∃ c c', (r.planned actions)[i]? = some c ∧ (r.planned actions)[j]? = some c' ∧
      Follows r.snapshot c c' := by
  have hstep : ∀ {i j}, g.waits.Leads i j → ∃ c c', (r.planned actions)[i]? = some c ∧
      (r.planned actions)[j]? = some c' ∧ Follows r.snapshot c c' := by
    intro i j hij
    obtain ⟨c, c', hc, hc', hawaits⟩ := (h.orders i j).mp (leads_waits.mp hij).2
    exact ⟨c, c', hc, hc', hawaits.follows⟩
  induction hreach with
  | single hij => exact hstep hij
  | tail _ hjk ih =>
    obtain ⟨c, c', hc, hc', hfollows⟩ := ih
    obtain ⟨c₀, c'', hc₀, hc'', hlast⟩ := hstep hjk
    obtain rfl : c' = c₀ := Option.some.inj (hc'.symm.trans hc₀)
    exact ⟨c, c'', hc, hc'', hfollows.trans hlast⟩

end Plans

/-! ## Resolvable requests -/

/-- **What a request has to satisfy in any snapshot**: it is granted, and nothing that it
removes lies on a cycle. -/
structure Resolvable (r : Resolver) (actions : List Action) : Prop where
  granted : Granted r actions
  acyclic : ∀ key target, (key, target, .uninstall) ∈ r.planned actions →
    ¬ TransGen r.snapshot.DependsOn key key

/-- **Whether a request is resolvable is told target by target**: it suffices that each target
it names is served by a resolvable request with the same actions there. -/
theorem Resolvable.of_targets (h : ∀ a ∈ actions, ∃ actions', Resolvable r actions' ∧
    ∀ b : Action, b.target = a.target → (b ∈ actions ↔ b ∈ actions')) :
    Resolvable r actions := by
  constructor
  case granted =>
    constructor
    case offered =>
      intro a ha
      obtain ⟨actions', h', hmem⟩ := h a ha
      exact h'.granted.offered a ((hmem a rfl).mp ha)
    case obtainable =>
      intro root target ha
      obtain ⟨actions', h', hmem⟩ := h _ ha
      exact h'.granted.obtainable root target ((hmem _ rfl).mp ha)
    case removable =>
      intro root target ha
      obtain ⟨actions', h', hmem⟩ := h _ ha
      refine (h'.granted.removable root target ((hmem _ rfl).mp ha)).mono fun key hkey => ?_
      have hasked := hmem ⟨.uninstall, target, key⟩ rfl
      exact mem_requestedRemovals.mpr (hasked.mpr (mem_requestedRemovals.mp hkey))
    case compatible =>
      rintro key target ⟨root, ha, hreach⟩
      obtain ⟨actions', h', hmem⟩ := h _ ha
      obtain ⟨hunasked, hunplanned⟩ :=
        h'.granted.compatible key target ⟨root, (hmem _ rfl).mp ha, hreach⟩
      have hasked := hmem ⟨.uninstall, target, key⟩ rfl
      exact ⟨hasked.not.mpr hunasked, (r.mem_planned_congr hmem).not.mpr hunplanned⟩
  case acyclic =>
    intro key target hplanned
    obtain ⟨a, ha, hcalled⟩ := r.mem_planned.mp hplanned
    obtain ⟨actions', h', hmem⟩ := h a ha
    rw [← r.target_of_mem_called hcalled] at hmem
    exact h'.acyclic key target ((r.mem_planned_congr hmem).mp hplanned)

/-- No change of a resolvable request has to follow itself. -/
theorem Resolvable.not_follows (h : Resolvable r actions) (hc : c ∈ r.planned actions) :
    ¬ Follows r.snapshot c c := by
  obtain ⟨key, target, kind⟩ := c
  rintro ⟨-, hcycle⟩
  cases kind with
  | install =>
    obtain ⟨root, ha, hreach⟩ := (r.mem_planned_install.mp hc).1
    exact (h.granted.obtainable root target ha key hreach).2 hcycle
  | uninstall => exact h.acyclic key target hc hcycle

/-- The steps of a resolved request realize its arranged plan. -/
theorem realizes_arranged_of_resolve (h : r.resolve actions = .ok steps) :
    Realizes r actions (arranged r.snapshot (r.planned actions)) steps := by
  obtain ⟨-, g, order, hplans, horder, rfl⟩ := granted_of_resolve h
  rw [← hplans.lineUp_eq horder]
  exact hplans.realizes horder

/-- **Resolution succeeds exactly on the resolvable requests.** -/
theorem resolves_iff_resolvable :
    (∃ steps, r.resolve actions = .ok steps) ↔ Resolvable r actions := by
  constructor
  · rintro ⟨steps, hsteps⟩
    exact ⟨(granted_of_resolve hsteps).1, fun _ _ => acyclic_of_resolve hsteps⟩
  · intro h
    obtain ⟨g, hplans, hresolve⟩ := h.granted.exists_graph
    have hacyclic : ∀ i, ¬ TransGen g.waits.Leads i i := by
      intro i hi
      obtain ⟨c, c', hc, hc', hfollows⟩ := hplans.follows hi
      obtain rfl : c = c' := Option.some.inj (hc.symm.trans hc')
      exact h.not_follows (List.mem_of_getElem? hc) hfollows
    obtain ⟨order, horder⟩ := exists_ordered_of_acyclic hacyclic
    exact ⟨_, hresolve order horder⟩

/-- **What a resolution comes to.** -/
theorem resolve_eq_ok_iff_realizes : r.resolve actions = .ok steps ↔ Resolvable r actions ∧
    Realizes r actions (arranged r.snapshot (r.planned actions)) steps := by
  constructor
  · exact fun h => ⟨resolves_iff_resolvable.mp ⟨steps, h⟩, realizes_arranged_of_resolve h⟩
  · rintro ⟨hresolvable, hrealizes⟩
    obtain ⟨steps', hsteps'⟩ := resolves_iff_resolvable.mpr hresolvable
    rw [hrealizes.unique (realizes_arranged_of_resolve hsteps')]
    exact hsteps'

end Provision.Plan
