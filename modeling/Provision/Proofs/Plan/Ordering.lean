import Provision.Proofs.Dependency
import Provision.Proofs.Plan.StepGraph

/-!
# Ordering removals and writing steps down

The two last stages of planning work on the finished graph.  `orderUninstalls` lets a
removal wait for every removal of something that depends on its package, directly or by
way of packages that are not removed (`mem_orders_orderUninstalls`).  `toSteps` writes an
order of the graph down; the step at a place is determined by the place that the order
gives to each planned step (`getElem?_toSteps`, `mem_requires`).
-/
namespace Provision.Plan
open Relation Resolver StepGraph

variable {r : Resolver} {g : StepGraph} {i j : Nat}

/-! ## Removals wait for what depends on them -/

/-- The removals that wait for the removal of `p`. -/
theorem mem_waiting (hnodup : (changes g).Nodup) {p : Package}
    (hp : r.snapshot.get? p.key = some p) {target : Target} :
    i ∈ r.waiting g p target ↔ ∃ key, (changes g)[i]? = some (key, target, .uninstall) ∧
      r.snapshot.DependsVia (fun x => (x, target, .uninstall) ∉ changes g) p.key key := by
  -- The walk goes through what the graph does not remove and stops at what it removes.
  have hleads : ∀ x y, (r.lookThrough g target).Leads x y ↔
      (x, target, .uninstall) ∉ changes g ∧ r.snapshot.DependsOn x y := by
    intro x y
    change y ∈ (if (g.find? x target .uninstall).isSome then [] else _) ↔ _
    rw [← find?_eq_none_iff]
    cases g.find? x target .uninstall with
    | none => simp [Snapshot.DependsOn, dependencies]
    | some i => simp
  rw [waiting, List.mem_filterMap]
  simp only [find?_eq_some_iff hnodup, Digraph.mem_reachable, ← Snapshot.dependsOn_of_get? hp]
  have hrel : (r.lookThrough g target).Leads = fun x y =>
      (x, target, .uninstall) ∉ changes g ∧ r.snapshot.DependsOn x y :=
    funext fun x => funext fun y => propext (hleads x y)
  rw [hrel]
  exact exists_congr fun key => and_comm

theorem foldl_addOrder (pairs : List (Nat × Nat)) (g : StepGraph) :
    (pairs.foldl (fun g (before, after) => g.addOrder before after) g).steps = g.steps ∧
      ∀ e, e ∈ (pairs.foldl (fun g (before, after) => g.addOrder before after) g).orders ↔
        e ∈ pairs ∨ e ∈ g.orders := by
  induction pairs generalizing g with
  | nil => simp
  | cons pair pairs ih =>
    obtain ⟨hsteps, horders⟩ := ih (g.addOrder pair.1 pair.2)
    refine ⟨hsteps, fun e => ?_⟩
    rw [List.foldl_cons, horders]
    simp only [addOrder, List.mem_cons]
    tauto

theorem steps_orderUninstalls (g : StepGraph) : (r.orderUninstalls g).steps = g.steps :=
  (foldl_addOrder _ g).1

theorem changes_orderUninstalls (g : StepGraph) :
    changes (r.orderUninstalls g) = changes g := by
  rw [changes_eq, steps_orderUninstalls, ← changes_eq]

/-- **What ordering the removals adds.** -/
theorem mem_orders_orderUninstalls (hnodup : (changes g).Nodup)
    (hpackages : ∀ p ∈ g.packages, r.snapshot.get? p.key = some p) :
    (j, i) ∈ (r.orderUninstalls g).orders ↔ (j, i) ∈ g.orders ∨ ∃ key key' target,
      (changes g)[i]? = some (key, target, .uninstall) ∧
      (changes g)[j]? = some (key', target, .uninstall) ∧
      r.snapshot.DependsVia (fun x => (x, target, .uninstall) ∉ changes g) key' key := by
  rw [orderUninstalls, (foldl_addOrder _ g).2, or_comm, List.mem_flatMap]
  refine or_congr_right ?_
  constructor
  · rintro ⟨⟨s, k⟩, hs, hpair⟩
    have hk := List.mem_zipIdx_iff_getElem?.mp hs
    obtain ⟨p, target, kind, explicit⟩ := s
    cases kind with
    | install => cases hpair
    | uninstall =>
      obtain ⟨after, hafter, heq⟩ := List.mem_map.mp hpair
      cases heq
      have hp := hpackages p (List.mem_map.mpr ⟨_, List.mem_of_getElem? hk, rfl⟩)
      obtain ⟨key, hkey, hvia⟩ := (mem_waiting hnodup hp).mp hafter
      refine ⟨key, p.key, target, hkey, ?_, hvia⟩
      rw [getElem?_changes, hk]
      rfl
  · rintro ⟨key, key', target, hi, hj, hvia⟩
    rw [getElem?_changes] at hj
    obtain ⟨⟨p, target', kind, explicit⟩, hs, heq⟩ := Option.map_eq_some_iff.mp hj
    cases heq
    have hp := hpackages p (List.mem_map.mpr ⟨_, List.mem_of_getElem? hs, rfl⟩)
    refine ⟨(_, j), List.mem_zipIdx_iff_getElem?.mpr hs, ?_⟩
    exact List.mem_map.mpr ⟨i, (mem_waiting hnodup hp).mpr ⟨key, hi, hvia⟩, rfl⟩

/-! ## Steps -/

theorem getElem?_filterMap_of_isSome {α β : Type} {f : α → Option β} {l : List α}
    (h : ∀ x ∈ l, (f x).isSome) (k : Nat) : (l.filterMap f)[k]? = l[k]?.bind f := by
  induction l generalizing k with
  | nil => simp
  | cons x l ih =>
    obtain ⟨y, hy⟩ := Option.isSome_iff_exists.mp (h x (List.mem_cons_self ..))
    rw [List.filterMap_cons_some hy]
    cases k with
    | zero => simp [hy]
    | succ k => simpa using ih (fun x hx => h x (List.mem_cons_of_mem _ hx)) k

/-- The places of the steps that step `i` waits for. -/
def requiredPlaces (g : StepGraph) (order : List Nat) (i : Nat) : List Nat :=
  ((g.predecessors i).filterMap order.idxOf?).mergeSort

/-- How a planned step is written down. -/
def PlannedStep.toStep (s : PlannedStep) (position : Nat) (requires : List Nat) : Step where
  key := s.package.key
  target := s.target
  kind := s.kind
  version := s.package.version
  explicit := s.explicit
  order := position
  requires := requires

/-- **The step at a place.** -/
theorem getElem?_toSteps {order : List Nat} (horder : order.Perm (List.range g.steps.length))
    (k : Nat) : (toSteps g order)[k]? = order[k]?.bind fun i =>
      (g.steps[i]?).map fun s => s.toStep k (requiredPlaces g order i) := by
  rw [toSteps, getElem?_filterMap_of_isSome, List.getElem?_zipIdx]
  · cases order[k]? with
    | none => rfl
    | some i => simp [PlannedStep.toStep, requiredPlaces]
  · rintro ⟨i, k⟩ hmem
    have hi : i ∈ List.range g.steps.length :=
      horder.subset (List.mem_of_getElem? (List.mem_zipIdx_iff_getElem?.mp hmem))
    rw [Option.isSome_map, List.getElem?_eq_getElem (List.mem_range.mp hi)]
    rfl

theorem mem_requiredPlaces {order : List Nat} (hnodup : order.Nodup) {k : Nat} :
    k ∈ requiredPlaces g order i ↔ ∃ j ∈ g.predecessors i, order[k]? = some j := by
  rw [requiredPlaces, List.mem_mergeSort, List.mem_filterMap]
  simp only [idxOf?_eq_some_of_nodup hnodup]

theorem ascending_requiredPlaces {order : List Nat} (hnodup : order.Nodup) :
    (requiredPlaces g order i).Pairwise (· < ·) := by
  -- Different steps have different places, so no two of the sorted places are equal.
  have hdistinct : (requiredPlaces g order i).Nodup := by
    refine (List.mergeSort_perm _ _).nodup_iff.mpr ?_
    refine (List.nodup_range.filter _).filterMap ?_
    intro j j' k hj hj'
    have hj := (idxOf?_eq_some_of_nodup hnodup).mp hj
    have hj' := (idxOf?_eq_some_of_nodup hnodup).mp hj'
    exact Option.some.inj (hj.symm.trans hj')
  have hsorted : (requiredPlaces g order i).Pairwise (· ≤ ·) := by
    refine (List.pairwise_mergeSort ?_ ?_ _).imp (fun h => by simpa using h)
    · intro a b c hab hbc
      simp only [decide_eq_true_eq] at hab hbc ⊢
      exact Nat.le_trans hab hbc
    · intro a b
      simp only [Bool.or_eq_true, decide_eq_true_eq]
      exact Nat.le_total a b
  exact hsorted.imp₂ (fun _ _ hle hne => Nat.lt_of_le_of_ne hle hne) hdistinct

end Provision.Plan
