import Provision.Plan.Resolver
import Provision.Proofs.Distinct
import Provision.Proofs.Plan.Cycle

/-!
# Graphs of steps, read by their changes

A step is known by the change it makes, and a graph never holds two steps for one change.
This module says what the operations of `StepGraph` do in these terms: `find?` is the place
of a change, `addStep` adds a change unless it is there, and of the flags only the changes
that were asked for (`asked`) matter.

`ordered` succeeds with every step once, each after those it waits for (`perm_of_ordered`,
`mem_of_ordered`), and keeps the order of creation whenever that will do
(`ordered_of_ascending`).
-/
namespace Provision.Plan
open Relation Visit Resolver

/-- The change that a step makes. -/
def PlannedStep.change (s : PlannedStep) : Change :=
  (s.package.key, s.target, s.kind)

namespace StepGraph
variable {g : StepGraph} {key : PackageKey} {target : Target} {kind : ActionKind} {c : Change}
  {s : PlannedStep} {i j : Nat}

/-- The changes that were asked for. -/
def asked (g : StepGraph) : List Change :=
  (g.steps.filter PlannedStep.explicit).map PlannedStep.change

/-- The packages that the steps act on. -/
def packages (g : StepGraph) : List Package :=
  g.steps.map PlannedStep.package

theorem changes_eq (g : StepGraph) : changes g = g.steps.map PlannedStep.change := rfl

theorem getElem?_changes : (changes g)[i]? = (g.steps[i]?).map PlannedStep.change := by
  rw [changes_eq, List.getElem?_map]

@[simp] theorem length_changes : (changes g).length = g.steps.length := by
  rw [changes_eq, List.length_map]

theorem find?_eq_idxOf? : g.find? key target kind = (changes g).idxOf? (key, target, kind) := by
  rw [changes_eq, find?, List.idxOf?, List.findIdx?_map]
  refine congrArg (List.findIdx? · g.steps) (funext fun s => ?_)
  rw [Bool.eq_iff_iff]
  simp [PlannedStep.change]

theorem find?_eq_some_iff (h : (changes g).Nodup) :
    g.find? key target kind = some i ↔ (changes g)[i]? = some (key, target, kind) := by
  rw [find?_eq_idxOf?]
  exact idxOf?_eq_some_of_nodup h

theorem find?_eq_none_iff :
    g.find? key target kind = none ↔ (key, target, kind) ∉ changes g := by
  rw [find?_eq_idxOf?, List.idxOf?_eq_none_iff]

theorem mem_predecessors : j ∈ g.predecessors i ↔ j < g.steps.length ∧ (j, i) ∈ g.orders := by
  simp [predecessors]

/-! ## Marking steps -/

theorem map_markExplicit {α : Type} {f : PlannedStep → α}
    (hf : ∀ s, f { s with explicit := true } = f s) :
    (g.markExplicit i).steps.map f = g.steps.map f := by
  refine List.ext_getElem? fun k => ?_
  simp only [markExplicit, List.getElem?_map, List.getElem?_modify]
  cases g.steps[k]? with
  | none => rfl
  | some s =>
    by_cases hik : i = k
    · simp [hik, hf]
    · simp [hik]

@[simp] theorem changes_markExplicit : changes (g.markExplicit i) = changes g :=
  map_markExplicit fun _ => rfl

@[simp] theorem packages_markExplicit : (g.markExplicit i).packages = g.packages :=
  map_markExplicit fun _ => rfl

@[simp] theorem orders_markExplicit : (g.markExplicit i).orders = g.orders := rfl

theorem mem_asked : c ∈ g.asked ↔ ∃ s ∈ g.steps, s.explicit = true ∧ s.change = c := by
  simp [asked, and_assoc]

theorem mem_asked_markExplicit :
    c ∈ (g.markExplicit i).asked ↔ c ∈ g.asked ∨ (changes g)[i]? = some c := by
  rw [mem_asked, mem_asked, getElem?_changes]
  simp only [List.mem_iff_getElem?, markExplicit, List.getElem?_modify]
  constructor
  · rintro ⟨s, ⟨k, hk⟩, hs, rfl⟩
    obtain ⟨s', hs', rfl⟩ := Option.map_eq_some_iff.mp hk
    by_cases hik : i = k
    · subst hik
      exact Or.inr (by simp [hs', PlannedStep.change])
    · rw [if_neg hik] at hs ⊢
      exact Or.inl ⟨s', ⟨k, hs'⟩, hs, rfl⟩
  · rintro (⟨s, ⟨k, hk⟩, hs, rfl⟩ | h)
    · by_cases hik : i = k
      · exact ⟨{ s with explicit := true }, ⟨k, by simp [hk, hik]⟩, rfl, rfl⟩
      · exact ⟨s, ⟨k, by simp [hk, hik]⟩, hs, rfl⟩
    · obtain ⟨s, hs, rfl⟩ := Option.map_eq_some_iff.mp h
      exact ⟨{ s with explicit := true }, ⟨i, by simp [hs]⟩, rfl, rfl⟩

/-! ## Adding steps -/

section Concat
variable {g' : StepGraph}

theorem changes_of_concat (h : g'.steps = g.steps ++ [s]) :
    changes g' = changes g ++ [s.change] := by
  rw [changes_eq, h, List.map_append]
  rfl

theorem packages_of_concat (h : g'.steps = g.steps ++ [s]) :
    g'.packages = g.packages ++ [s.package] := by
  rw [packages, h, List.map_append]
  rfl

theorem getElem?_changes_of_concat (h : g'.steps = g.steps ++ [s]) :
    (changes g')[i]? = some c ↔
      (changes g)[i]? = some c ∨ (i = g.steps.length ∧ c = s.change) := by
  rw [changes_of_concat h, getElem?_concat_eq_some, length_changes]

theorem nodup_of_concat (h : g'.steps = g.steps ++ [s]) (hnodup : (changes g).Nodup)
    (hnew : s.change ∉ changes g) : (changes g').Nodup := by
  rw [changes_of_concat h]
  exact nodup_concat_iff.mpr ⟨hnodup, hnew⟩

theorem mem_asked_of_concat (h : g'.steps = g.steps ++ [s]) :
    c ∈ g'.asked ↔ c ∈ g.asked ∨ (s.explicit = true ∧ c = s.change) := by
  rw [asked, h, List.filter_append, List.map_append, List.mem_append, asked]
  refine or_congr_right ?_
  by_cases hs : s.explicit = true
  · simp [hs]
  · simp [hs]

end Concat

theorem addStep_of_not_mem (h : s.change ∉ changes g) :
    g.addStep s = ({ g with steps := g.steps ++ [s] }, g.steps.length) := by
  rw [addStep, find?_eq_none_iff.mpr h]

theorem addStep_of_getElem? (hnodup : (changes g).Nodup) (h : (changes g)[i]? = some s.change) :
    g.addStep s = (if s.explicit then g.markExplicit i else g, i) := by
  rw [addStep, (find?_eq_some_iff hnodup).mpr h]

/-- What adding a step does to a graph. -/
structure Adds (g g' : StepGraph) (s : PlannedStep) : Prop where
  changes : Resolver.changes g' =
    if s.change ∈ Resolver.changes g then Resolver.changes g
    else Resolver.changes g ++ [s.change]
  asked : ∀ c, c ∈ g'.asked ↔ c ∈ g.asked ∨ (s.explicit = true ∧ c = s.change)
  packages : ∀ p ∈ g'.packages, p ∈ g.packages ∨ p = s.package
  orders : g'.orders = g.orders

theorem adds_of_concat {g' : StepGraph} (h : g'.steps = g.steps ++ [s])
    (hnew : s.change ∉ changes g) (horders : g'.orders = g.orders) : Adds g g' s where
  changes := by rw [if_neg hnew, changes_of_concat h]
  asked := fun c => mem_asked_of_concat h
  packages := by
    intro p hp
    rw [packages_of_concat h, List.mem_append, List.mem_singleton] at hp
    exact hp
  orders := horders

theorem adds_of_mem (h : (changes g)[i]? = some s.change) :
    Adds g (if s.explicit then g.markExplicit i else g) s := by
  have hmem := List.mem_of_getElem? h
  by_cases hs : s.explicit = true
  · rw [if_pos hs]
    refine ⟨by rw [if_pos hmem, changes_markExplicit], fun c => ?_, fun p hp => Or.inl ?_, rfl⟩
    · rw [mem_asked_markExplicit, h]
      simp [hs, eq_comm]
    · rw [packages_markExplicit] at hp
      exact hp
  · rw [if_neg hs]
    exact ⟨by rw [if_pos hmem], by simp [hs], fun p hp => Or.inl hp, rfl⟩

theorem adds_addStep (hnodup : (changes g).Nodup) : Adds g (g.addStep s).1 s := by
  by_cases hmem : s.change ∈ changes g
  · obtain ⟨i, hi⟩ := List.mem_iff_getElem?.mp hmem
    rw [addStep_of_getElem? hnodup hi]
    exact adds_of_mem hi
  · rw [addStep_of_not_mem hmem]
    exact adds_of_concat rfl hmem rfl

/-! ## Lining the steps up -/

/-- Taking over a record succeeds when no cycle was closed, with the steps left. -/
theorem foldlM_orderVisit {order order' : List Nat} :
    ∀ visits : List (Visit Nat), visits.foldlM g.orderVisit order = .ok order' ↔
      (∀ cycle, .closed cycle ∉ visits) ∧ order' = order ++ lefts visits := by
  intro visits
  induction visits generalizing order with
  | nil => simp [pure, Except.pure, eq_comm]
  | cons v visits ih =>
    rw [List.foldlM_cons]
    cases v with
    | entered i =>
      change visits.foldlM g.orderVisit order = _ ↔ _ ∧ _ = _ ++ lefts visits
      rw [ih]
      simp
    | left i =>
      change visits.foldlM g.orderVisit (order ++ [i]) = _ ↔ _ ∧ _ = _ ++ (i :: lefts visits)
      rw [ih]
      simp
    | closed path =>
      change Except.error _ = _ ↔ _
      simp only [reduceCtorEq, false_iff]
      exact fun h => h.1 path (List.mem_cons_self ..)

theorem ordered_eq_ok_iff {order : List Nat} : g.ordered = .ok order ↔
    (∀ cycle, .closed cycle ∉ g.waits.explore [] (List.range g.steps.length)) ∧
      order = g.waits.reachable (List.range g.steps.length) := by
  rw [ordered, foldlM_orderVisit, List.nil_append]
  rfl

theorem leads_waits : g.waits.Leads i j ↔ j < g.steps.length ∧ (j, i) ∈ g.orders :=
  mem_predecessors

/-- An order holds every step once. -/
theorem perm_of_ordered {order : List Nat} (h : g.ordered = .ok order) :
    order.Perm (List.range g.steps.length) := by
  obtain ⟨-, rfl⟩ := ordered_eq_ok_iff.mp h
  refine (List.perm_ext_iff_of_nodup (Digraph.nodup_reachable _) List.nodup_range).mpr fun i => ?_
  rw [Digraph.mem_reachable]
  constructor
  · rintro ⟨root, hroot, hreach⟩
    rcases ReflTransGen.cases_tail hreach with rfl | ⟨k, -, hk⟩
    · exact hroot
    · exact List.mem_range.mpr (leads_waits.mp hk).1
  · exact fun hi => ⟨i, hi, ReflTransGen.refl⟩

theorem nodup_of_ordered {order : List Nat} (h : g.ordered = .ok order) : order.Nodup :=
  (perm_of_ordered h).nodup_iff.mpr List.nodup_range

/-- In an order, every step comes after those it waits for. -/
theorem mem_of_ordered {order pre : List Nat} (h : g.ordered = .ok order)
    (hpre : pre ++ [i] <+: order) (hj : j ∈ g.predecessors i) : j ∈ pre := by
  obtain ⟨hno, rfl⟩ := ordered_eq_ok_iff.mp h
  have := (g.waits.explore_trail [] _).mem_of_next hno hpre hj
  simpa using this

/-- Steps that do not wait for themselves can be lined up. -/
theorem exists_ordered_of_acyclic (h : ∀ i, ¬ TransGen g.waits.Leads i i) :
    ∃ order, g.ordered = .ok order := by
  refine ⟨_, ordered_eq_ok_iff.mpr ⟨fun cycle hcycle => ?_, rfl⟩⟩
  obtain ⟨i, -, hi⟩ := ((g.waits.explore_trail [] _).isCycle hcycle).1.transGen
  exact h i hi

/-- **The order of creation is kept** when every step was created after those it waits
for. -/
theorem ordered_of_ascending (h : ∀ j i, i < g.steps.length → (j, i) ∈ g.orders → j < i) :
    g.ordered = .ok (List.range g.steps.length) := by
  have heq : g.waits.explore [] (List.range g.steps.length) =
      (List.range g.steps.length).flatMap fun i => [.entered i, .left i] := by
    refine Digraph.explore_of_ordered _ List.nodup_range fun pre i hpre j hj => ?_
    have hlen : i < g.steps.length := List.mem_range.mp (hpre.subset (by simp))
    rw [eq_range_of_isPrefix hpre, List.mem_range]
    exact h j i hlen (leads_waits.mp hj).2
  rw [ordered_eq_ok_iff, Digraph.reachable_eq, heq, lefts_flatMap]
  exact ⟨by simp, rfl⟩

end StepGraph
end Provision.Plan
