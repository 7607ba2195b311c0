import Provision.Proofs.Plan.Refused

/-!
# Lining up the steps of any graph

Planning only ever lines up graphs in which installs are ordered as they are made.  This module
is about every graph that adding steps and orders can lead to (`Built`), cycles included.

`StepGraph.ordered` accepts the graphs in which no step comes before itself
(`Built.exists_ordered_iff`).  The order it gives has every step once and behind all that come
before it (`Built.idxOf_lt_of_ordered`), and it is the order of creation whenever that will do
(`Built.ordered_of_before`).  A graph is refused by naming the packages of a closed way that
leads from each step to one that comes right before it (`Built.backward_of_ordered`).
-/
namespace Provision.Plan.StepGraph
open Relation

variable {g : StepGraph} {i j : Nat}

/-- **The graphs that can be built.**  Only steps that are there are put in order. -/
inductive Built : StepGraph → Prop
  | empty : Built empty
  | addStep {g : StepGraph} (s : PlannedStep) : Built g → Built (g.addStep s).1
  | addOrder {g : StepGraph} {before after : Nat} : Built g → before < g.steps.length →
      after < g.steps.length → Built (g.addOrder before after)

/-- Step `j` has to come right before step `i`. -/
def Before (g : StepGraph) (j i : Nat) : Prop :=
  (j, i) ∈ g.orders

/-- The package that a step is about. -/
def key? (g : StepGraph) (i : Nat) : Option PackageKey :=
  (g.steps[i]?).map fun s => s.package.key

/-! ## What building keeps -/

theorem length_addStep (s : PlannedStep) : g.steps.length ≤ (g.addStep s).1.steps.length := by
  rw [addStep]
  split
  · split
    · simp [markExplicit]
    · exact Nat.le_refl _
  · simp

theorem orders_addStep (s : PlannedStep) : (g.addStep s).1.orders = g.orders := by
  rw [addStep]
  split
  · split
    · rfl
    · rfl
  · rfl

/-- Orders are between steps that are there. -/
theorem Built.lt_of_before (h : Built g) (hji : g.Before j i) :
    j < g.steps.length ∧ i < g.steps.length := by
  induction h with
  | empty => cases hji
  | addStep s _ ih =>
    rw [Before, orders_addStep] at hji
    obtain ⟨hj, hi⟩ := ih hji
    exact ⟨Nat.lt_of_lt_of_le hj (length_addStep s), Nat.lt_of_lt_of_le hi (length_addStep s)⟩
  | addOrder _ hbefore hafter ih =>
    rcases List.mem_cons.mp hji with heq | hji
    · cases heq
      exact ⟨hbefore, hafter⟩
    · exact ih hji

/-- Steps wait for those that come right before them. -/
theorem Built.leads_waits_iff (h : Built g) : g.waits.Leads i j ↔ g.Before j i :=
  leads_waits.trans (and_iff_right_of_imp fun hji => (h.lt_of_before hji).1)

/-! ## Orders that are accepted -/

variable {order : List Nat}

/-- **In an order, every step is behind those that come before it.** -/
theorem Built.idxOf_lt_of_ordered (h : Built g) (hordered : g.ordered = .ok order)
    (hji : g.Before j i) : order.idxOf j < order.idxOf i := by
  have hi : i ∈ order :=
    (perm_of_ordered hordered).mem_iff.mpr (List.mem_range.mpr (h.lt_of_before hji).2)
  obtain ⟨pre, post, rfl, hpre⟩ := List.eq_append_cons_of_mem hi
  have hj : j ∈ pre := by
    refine mem_of_ordered hordered (i := i) ⟨post, by simp⟩ ?_
    exact mem_predecessors.mpr ⟨(h.lt_of_before hji).1, hji⟩
  rw [List.idxOf_append_of_mem hj, List.idxOf_append_of_notMem hpre, List.idxOf_cons_self]
  exact Nat.lt_of_lt_of_le (List.idxOf_lt_length_of_mem hj) (Nat.le_add_right _ _)

/-- Steps that can be lined up do not come before themselves. -/
theorem Built.acyclic_of_ordered (h : Built g) (hordered : g.ordered = .ok order) :
    ∀ i, ¬ TransGen g.Before i i := by
  have hlt : ∀ {j i}, TransGen g.Before j i → order.idxOf j < order.idxOf i := by
    intro j i hji
    induction hji with
    | single hji => exact h.idxOf_lt_of_ordered hordered hji
    | tail _ hki ih => exact ih.trans (h.idxOf_lt_of_ordered hordered hki)
  exact fun i hi => Nat.lt_irrefl _ (hlt hi)

/-- **The graphs that are accepted**: no step comes before itself. -/
theorem Built.exists_ordered_iff (h : Built g) :
    (∃ order, g.ordered = .ok order) ↔ ∀ i, ¬ TransGen g.Before i i := by
  constructor
  · rintro ⟨order, hordered⟩
    exact h.acyclic_of_ordered hordered
  · intro hacyclic
    refine exists_ordered_of_acyclic fun i hi => hacyclic i ?_
    rw [← transGen_swap]
    exact TransGen.mono (fun _ _ hleads => h.leads_waits_iff.mp hleads) i i hi

/-- The order of creation is kept if every step was made behind those that come before it. -/
theorem ordered_of_before (h : ∀ j i, g.Before j i → j < i) :
    g.ordered = .ok (List.range g.steps.length) :=
  ordered_of_ascending fun j i _ hji => h j i hji

/-! ## Graphs that are refused -/

/-- **A closed way through the graph, walked backward**: each of its steps comes right before
the one that precedes it on the way, and the last is the first again. -/
structure Backward (g : StepGraph) (way : List Nat) : Prop where
  long : 2 ≤ way.length
  returns : way.head? = way.getLast?
  within : ∀ i ∈ way, i < g.steps.length
  chain : way.IsChain fun i j => g.Before j i

/-- The keys of steps that are there. -/
theorem map_some_keys {way : List Nat} (h : ∀ i ∈ way, i < g.steps.length) :
    (g.keys way).map some = way.map g.key? := by
  induction way with
  | nil => rfl
  | cons i way ih =>
    obtain ⟨hi, hway⟩ := List.forall_mem_cons.mp h
    have hkey : g.key? i = some g.steps[i].package.key := by
      rw [key?, List.getElem?_eq_getElem hi]
      rfl
    have hkeys : g.keys (i :: way) = g.steps[i].package.key :: g.keys way :=
      List.filterMap_cons_some hkey
    rw [List.map_cons, ← ih hway, hkey, hkeys, List.map_cons]

/-- **What refuses an order is a closed way.** -/
theorem Built.backward_of_ordered (h : Built g) {cause : DependencyError}
    (hordered : g.ordered = .error cause) : ∃ path way, cause = .cycle path ∧
      g.Backward way ∧ path.map some = way.map g.key? := by
  obtain ⟨way, ⟨hlong, hreturns, -, hchain⟩, rfl⟩ := ordered_eq_error hordered
  have hbefore : way.IsChain fun i j => g.Before j i :=
    hchain.imp fun _ _ hleads => h.leads_waits_iff.mp hleads
  have hwithin : ∀ i ∈ way, i < g.steps.length := by
    match way, hlong with
    | first :: second :: rest, _ =>
      have hfirst := (h.lt_of_before (List.isChain_cons_cons.mp hbefore).1).2
      exact hbefore.induction _ _ (fun _ _ hij _ => (h.lt_of_before hij).1) fun _ => hfirst
  exact ⟨_, way, rfl, ⟨hlong, hreturns, hwithin, hbefore⟩, map_some_keys hwithin⟩

/-! ## All of it -/

/-- **How the steps of a graph are lined up.** -/
structure LinesUp (g : StepGraph) : Prop where
  accepts : (∃ order, g.ordered = .ok order) ↔ ∀ i, ¬ TransGen g.Before i i
  complete : ∀ order, g.ordered = .ok order → order.Perm (List.range g.steps.length) ∧
    ∀ j i, g.Before j i → order.idxOf j < order.idxOf i
  keeps : (∀ j i, g.Before j i → j < i) → g.ordered = .ok (List.range g.steps.length)
  refuses : ∀ cause, g.ordered = .error cause → ∃ path way, cause = .cycle path ∧
    g.Backward way ∧ path.map some = way.map g.key?

/-- **Every graph that can be built is lined up, or refused for a cycle.** -/
theorem linesUp_of_built (h : Built g) : LinesUp g where
  accepts := h.exists_ordered_iff
  complete _ hordered :=
    ⟨perm_of_ordered hordered, fun _ _ hji => h.idxOf_lt_of_ordered hordered hji⟩
  keeps := ordered_of_before
  refuses _ hordered := h.backward_of_ordered hordered

namespace Sample

def key (id : String) : PackageKey := ⟨"r", id, none⟩

def install (id : String) : PlannedStep :=
  ⟨⟨key id, ⟨0, "1"⟩, [], .full, none⟩, .user, .install, true⟩

/-- Three installs: the first is made behind the third, and that behind the second. -/
def crossed : StepGraph :=
  ((["a", "b", "c"].foldl (fun g id => (g.addStep (install id)).1) empty).addOrder 2 0).addOrder 1 2

/-- The same installs, the second behind the first. -/
def ring : StepGraph := crossed.addOrder 0 1

theorem built_crossed : Built crossed :=
  (((Built.empty.addStep _).addStep _).addStep _ |>.addOrder (by decide) (by decide)).addOrder
    (by decide) (by decide)

end Sample

/-- The crossed installs are lined up the other way round; with the last order they are
refused. -/
theorem sample_linesUp :
    Built Sample.crossed ∧ LinesUp Sample.crossed ∧ Sample.crossed.ordered = .ok [1, 2, 0] ∧
    Built Sample.ring ∧ LinesUp Sample.ring ∧ Sample.ring.ordered =
      .error (.cycle (["a", "c", "b", "a"].map Sample.key)) := by
  have hring : Built Sample.ring := Sample.built_crossed.addOrder (by decide) (by decide)
  refine ⟨Sample.built_crossed, linesUp_of_built Sample.built_crossed, ?_,
    hring, linesUp_of_built hring, ?_⟩
  · decide +kernel
  · decide +kernel

end Provision.Plan.StepGraph
