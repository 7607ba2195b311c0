import Provision.Proofs.Plan.Arrangement

/-!
# With and without cascading

A removal takes along whatever depends on the package.  A planner that may cascade does so
whether or not that was asked for; one that may not refuses instead.  This is the only
difference between the two.  What is planned and in which order does not depend on it, so a
plan that is made without cascading is made with it, too, and of the plans that are made
with cascading it is those that remove nothing on their own account
(`resolve_without_cascade`).

A refusal looks at the dependents of one action at a time.  No removal slips through between
the actions, because each is called for by one of them, and is either what that action names
or depends on it (`Granted.removesRequested`).
-/
namespace Provision.Plan
open Relation Resolver

variable {r : Resolver} {actions : List Action} {steps : List Step} {cascade cascade' : Bool}

/-- Every planned removal has been asked for. -/
def RemovesRequested (r : Resolver) (actions : List Action) : Prop :=
  ∀ key target, (key, target, .uninstall) ∈ r.planned actions →
    (⟨.uninstall, target, key⟩ : Action) ∈ actions

/-- **Without cascading, only what was asked for is removed.** -/
theorem Granted.removesRequested (h : Granted r actions) (hcascade : r.cascade = false) :
    RemovesRequested r actions := by
  intro key target hplanned
  obtain ⟨⟨root, ha, hroot, hreach⟩, hcontains, hinst⟩ := r.mem_planned_uninstall.mp hplanned
  by_cases heq : key = root
  · exact heq ▸ ha
  · have habove : key ∈ r.above root := mem_above.mpr ⟨hreach, heq⟩
    have hrequested := (h.removable root target ha).unblocked hroot hcascade key habove hcontains
    exact mem_requestedRemovals.mp (hrequested hinst)

/-- A request that removes only what it asks for is granted with and without cascading. -/
theorem Granted.of_cascade (h : Granted { r with cascade := cascade' } actions)
    (hrequested : cascade = false → RemovesRequested r actions) :
    Granted { r with cascade := cascade } actions where
  offered := h.offered
  obtainable := h.obtainable
  removable := by
    intro root target ha
    obtain ⟨hknown, hdependents, -⟩ := h.removable root target ha
    refine ⟨hknown, hdependents, fun hroot hcascade key habove hcontains hinst => ?_⟩
    have hdoomed : r.Doomed actions key target := ⟨root, ha, hroot, (mem_above.mp habove).1⟩
    have hplanned := r.mem_planned_uninstall.mpr ⟨hdoomed, hcontains, hinst⟩
    exact mem_requestedRemovals.mpr (hrequested hcascade key target hplanned)
  compatible := h.compatible

/-- **Whether the planner cascades changes no plan.** -/
theorem resolve_of_cascade
    (h : ({ r with cascade := cascade' } : Resolver).resolve actions = .ok steps)
    (hrequested : cascade = false → RemovesRequested r actions) :
    ({ r with cascade := cascade } : Resolver).resolve actions = .ok steps := by
  obtain ⟨hresolvable, hrealizes⟩ := resolve_eq_ok_iff_realizes.mp h
  refine resolve_eq_ok_iff_realizes.mpr ⟨?_, hrealizes.of_snapshot rfl⟩
  exact ⟨hresolvable.granted.of_cascade hrequested, hresolvable.acyclic⟩

/-- The planned removals have been asked for if the steps say so. -/
theorem removesRequested_iff (h : r.resolve actions = .ok steps) :
    RemovesRequested r actions ↔ ∀ s ∈ steps, s.kind = .uninstall → s.explicit = true := by
  have hrealizes := realizes_arranged_of_resolve h
  have hplanned : ∀ c, c ∈ r.planned actions ↔ ∃ s ∈ steps, s.change = c := by
    intro c
    rw [← hrealizes.mem_planned, mem_arranged]
  constructor
  · intro hrequested s hs hkind
    have hmem : (s.key, s.target, ActionKind.uninstall) ∈ r.planned actions :=
      (hplanned _).mpr ⟨s, hs, by rw [Step.change, hkind]⟩
    rw [hrealizes.explicit s hs, hkind]
    exact hrequested s.key s.target hmem
  · intro hexplicit key target hmem
    obtain ⟨s, hs, hchange⟩ := (hplanned _).mp hmem
    obtain ⟨rfl, rfl, hkind⟩ : s.key = key ∧ s.target = target ∧ s.kind = .uninstall := by
      simpa only [Step.change, Prod.mk.injEq] using hchange
    have hasked := (hrealizes.explicit s hs).mp (hexplicit s hs hkind)
    rwa [hkind] at hasked

/-- **Cascading adds nothing but permission.**  A plan is made without it exactly if it is made
with it and every removal in it is marked as asked for; so without cascading nothing is
removed that the request does not name. -/
theorem resolve_without_cascade (r : Resolver) (actions : List Action) (steps : List Step) :
    (({ r with cascade := false } : Resolver).resolve actions = .ok steps ↔
      ({ r with cascade := true } : Resolver).resolve actions = .ok steps ∧
        ∀ s ∈ steps, s.kind = .uninstall → s.explicit = true) ∧
      (({ r with cascade := false } : Resolver).resolve actions = .ok steps →
        ∀ s ∈ steps, s.kind = .uninstall →
          (⟨.uninstall, s.target, s.key⟩ : Action) ∈ actions) := by
  have hmarked : ({ r with cascade := false } : Resolver).resolve actions = .ok steps →
      ∀ s ∈ steps, s.kind = .uninstall → s.explicit = true := by
    intro h
    exact (removesRequested_iff h).mp ((granted_of_resolve h).1.removesRequested rfl)
  constructor
  · constructor
    · intro h
      exact ⟨resolve_of_cascade h fun hfalse => absurd hfalse (by decide), hmarked h⟩
    · rintro ⟨h, hexplicit⟩
      exact resolve_of_cascade h fun _ => (removesRequested_iff h).mpr hexplicit
  · intro h s hs hkind
    have hasked := ((realizes_arranged_of_resolve h).explicit s hs).mp (hmarked h s hs hkind)
    rwa [hkind] at hasked

/-- The sample plan removes the tool on its own account, so it is not made without cascading;
once the request names the tool, too, it is. -/
theorem sample_resolve_without_cascade :
    ({ Sample.resolver with cascade := false } : Resolver).resolve Sample.request ≠
        .ok Sample.steps ∧
      ({ Sample.resolver with cascade := false } : Resolver).resolve
        [⟨.uninstall, .system, Sample.named "base"⟩, ⟨.uninstall, .system, Sample.named "tool"⟩] =
        .ok [⟨Sample.named "tool", .system, .uninstall, ⟨0, "2"⟩, true, 0, []⟩,
          ⟨Sample.named "base", .system, .uninstall, ⟨0, "2"⟩, true, 1, [0]⟩] := by
  constructor
  · intro h
    have hexplicit := ((resolve_without_cascade Sample.resolver _ _).1.mp h).2
    exact absurd hexplicit (by decide)
  · refine (resolve_without_cascade Sample.resolver _ _).1.mpr ⟨?_, by decide⟩
    decide +kernel

end Provision.Plan
