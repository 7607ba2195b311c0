import Provision.Proofs.Plan.Feasible

/-!
# The order that the requirements generate

A step lists what it waits for directly.  Following these lists from step to step leads to
all the steps that have to come first, and to no others: an install to the installs of what
its package depends on, a removal to the removals of what depends on its package
(`dependencyOrder_of_resolve`).  Packages that have no step may lie between the two.

A realized plan says this of single requirements, in terms of changes (`Awaits`).  The
closure is taken there (`transGen_awaits_iff`), by cutting a chain of dependencies at the
packages that the plan changes, and is carried over to places (`transGen_requires_iff`).
-/
namespace Provision.Plan
open Relation Resolver

/-- Step `i` requires step `j`. -/
def Requires (steps : List Step) (i j : Nat) : Prop :=
  ∃ step, steps[i]? = some step ∧ j ∈ step.requires

/-- **The order of steps, read off the dependencies.** -/
structure DependencyOrder (s : Snapshot) (steps : List Step) : Prop where
  order : ∀ (i : Nat) (step : Step), steps[i]? = some step → step.order = i
  ascending : ∀ step ∈ steps, step.requires.Pairwise (· < ·)
  earlier : ∀ i j, Requires steps i j → j < i
  /-- Following requirements leads from one step to another exactly along dependencies, for
  removals backwards. -/
  reaches : ∀ (i j : Nat) (a b : Step), steps[i]? = some a → steps[j]? = some b →
    (TransGen (Requires steps) i j ↔ a.target = b.target ∧ a.kind = b.kind ∧
      (a.kind = .install ∧ TransGen s.DependsOn a.key b.key ∨
        a.kind = .uninstall ∧ TransGen s.DependsOn b.key a.key))

variable {s : Snapshot} {planned : List Change} {c c' : Change}

/-- Among the changes of a plan, `c` has to come after `c'` at some remove. -/
def Follows (s : Snapshot) (c c' : Change) : Prop :=
  c.2 = c'.2 ∧
    match c.2.2 with
    | .install => TransGen s.DependsOn c.1 c'.1
    | .uninstall => TransGen s.DependsOn c'.1 c.1

theorem Awaits.follows (h : Awaits s planned c c') : Follows s c c' := by
  obtain ⟨key, target, kind⟩ := c
  refine ⟨h.1, ?_⟩
  cases kind with
  | install => exact h.2.transGen
  | uninstall => exact h.2.transGen

theorem Follows.trans {c'' : Change} (h : Follows s c c') (h' : Follows s c' c'') :
    Follows s c c'' := by
  obtain ⟨key, target, kind⟩ := c
  obtain ⟨key', target', kind'⟩ := c'
  obtain ⟨heq, hdep⟩ := h
  cases heq
  refine ⟨h'.1, ?_⟩
  cases kind with
  | install => exact hdep.trans h'.2
  | uninstall => exact TransGen.trans h'.2 hdep

/-- What a removal follows is reached through removals of the plan. -/
theorem transGen_awaits_uninstall {key key' : PackageKey} {target : Target}
    (hplanned' : (key', target, .uninstall) ∈ planned)
    (h : TransGen (fun x y => s.DependsVia (fun x => (x, target, .uninstall) ∉ planned) x y ∧
      ¬ (y, target, .uninstall) ∉ planned) key' key) :
    TransGen (fun c c' => Awaits s planned c c' ∧ c' ∈ planned) (key, target, .uninstall)
      (key', target, .uninstall) := by
  induction h using TransGen.head_induction_on with
  | single hvia => exact TransGen.single ⟨⟨rfl, hvia.1⟩, hplanned'⟩
  | head hvia _ ih =>
    exact (ih (Classical.not_not.mp hvia.2)).tail ⟨⟨rfl, hvia.1⟩, hplanned'⟩

/-- **Waiting generates the dependency order** among the changes of a plan. -/
theorem transGen_awaits_iff (hplanned : c ∈ planned) (hplanned' : c' ∈ planned) :
    TransGen (fun c c' => Awaits s planned c c' ∧ c' ∈ planned) c c' ↔ Follows s c c' := by
  constructor
  · intro h
    clear hplanned'
    induction h with
    | single h => exact h.1.follows
    | tail _ h ih => exact ih.trans h.1.follows
  · intro h
    obtain ⟨key, target, kind⟩ := c
    obtain ⟨key', target', kind'⟩ := c'
    obtain ⟨heq, hdep⟩ := h
    cases heq
    cases kind with
    | install =>
      have hchain := Snapshot.transGen_dependsVia
        (fun x => (x, target, ActionKind.install) ∉ planned) (not_not_intro hplanned') hdep
      exact hchain.lift (fun x => (x, target, ActionKind.install))
        fun x y hvia => ⟨⟨rfl, hvia.1⟩, Classical.not_not.mp hvia.2⟩
    | uninstall =>
      exact transGen_awaits_uninstall hplanned' (Snapshot.transGen_dependsVia
        (fun x => (x, target, ActionKind.uninstall) ∉ planned) (not_not_intro hplanned) hdep)

variable {r : Resolver} {actions : List Action} {steps : List Step} {i j : Nat}

namespace Realizes

/-- A step requires the steps whose changes its own awaits. -/
theorem requires_iff (h : Realizes r actions planned steps) (hc : planned[i]? = some c) :
    Requires steps i j ↔ ∃ c', planned[j]? = some c' ∧ Awaits r.snapshot planned c c' := by
  obtain ⟨step, hstep, rfl⟩ := h.exists_getElem? hc
  rw [← h.requires step (List.mem_of_getElem? hstep)]
  simp [Requires, hstep]

/-- Following requirements is following the changes that are awaited. -/
theorem transGen_requires (h : Realizes r actions planned steps) (hc : planned[i]? = some c)
    (hreach : TransGen (Requires steps) i j) : ∃ c', planned[j]? = some c' ∧
      TransGen (fun c c' => Awaits r.snapshot planned c c' ∧ c' ∈ planned) c c' := by
  induction hreach with
  | single hij =>
    obtain ⟨c', hc', hawaits⟩ := (h.requires_iff hc).mp hij
    exact ⟨c', hc', TransGen.single ⟨hawaits, List.mem_of_getElem? hc'⟩⟩
  | tail _ hjk ih =>
    obtain ⟨c', hc', hchain⟩ := ih
    obtain ⟨c'', hc'', hawaits⟩ := (h.requires_iff hc').mp hjk
    exact ⟨c'', hc'', hchain.tail ⟨hawaits, List.mem_of_getElem? hc''⟩⟩

/-- **Following requirements from step to step** leads along the dependency order. -/
theorem transGen_requires_iff (h : Realizes r actions planned steps) (hc : planned[i]? = some c)
    (hc' : planned[j]? = some c') : TransGen (Requires steps) i j ↔ Follows r.snapshot c c' := by
  rw [← transGen_awaits_iff (List.mem_of_getElem? hc) (List.mem_of_getElem? hc')]
  constructor
  · intro hreach
    obtain ⟨c₀, hc₀, hchain⟩ := h.transGen_requires hc hreach
    rw [hc'] at hc₀
    exact Option.some.inj hc₀ ▸ hchain
  · intro hchain
    -- A requirement holds for every place of the awaited change, so `j` may vary.
    induction hchain generalizing j with
    | single hawaits => exact TransGen.single ((h.requires_iff hc).mpr ⟨_, hc', hawaits.1⟩)
    | tail hchain hawaits ih =>
      obtain ⟨-, -, -, hmem⟩ := TransGen.tail'_iff.mp hchain
      obtain ⟨k, hk⟩ := List.mem_iff_getElem?.mp hmem
      exact (ih hk).tail ((h.requires_iff hk).mpr ⟨_, hc', hawaits.1⟩)

end Realizes

/-- **The requirements of a plan generate the dependency order**, whatever the snapshot, the
statuses and the request are. -/
theorem dependencyOrder_of_resolve (r : Resolver) (actions : List Action) (steps : List Step)
    (h : r.resolve actions = .ok steps) : DependencyOrder r.snapshot steps := by
  obtain ⟨-, planned, -, hrealizes, hlt⟩ := realizes_of_resolve h
  constructor
  case order => exact hrealizes.order
  case ascending => exact hrealizes.ascending
  case earlier =>
    rintro i j ⟨step, hstep, hj⟩
    rw [← hrealizes.order i step hstep]
    exact hlt step (List.mem_of_getElem? hstep) j hj
  case reaches =>
    intro i j a b ha hb
    have hplanned : ∀ (k : Nat) (step : Step), steps[k]? = some step →
        planned[k]? = some step.change := by
      intro k step hstep
      rw [hrealizes.getElem?_planned, hstep]
      rfl
    rw [hrealizes.transGen_requires_iff (hplanned i a ha) (hplanned j b hb)]
    simp only [Follows, Step.change, Prod.mk.injEq, and_assoc]
    refine and_congr_right fun _ => and_congr_right fun _ => ?_
    cases a.kind <;> simp

/-- The application comes after the base below the library that is up to date. -/
theorem sample_dependencyOrder : Sample.resolver.resolve Sample.request = .ok Sample.steps ∧
    DependencyOrder Sample.snapshot Sample.steps :=
  ⟨Sample.resolve_request, dependencyOrder_of_resolve Sample.resolver Sample.request Sample.steps
    Sample.resolve_request⟩

end Provision.Plan
