import Mathlib.Data.Finset.Dedup
import Provision.Proofs.Plan.Arrangement

/-!
# Requests in another order

A request lists its actions in some order, and its plan keeps to that order where it can.
Nothing else about the plan depends on it: a request with the same actions is resolved under
the same conditions, and to the same steps (`sameSteps_of_perm`).

The steps of two plans stand in different places, so they are compared by their `outline`,
which names the steps that a step requires by their changes.  The outline of a realized
change can be read off the set of planned changes (`Realizes.mem_required`).
-/
namespace Provision.Plan
open Relation Resolver

/-- What a step says apart from its place. -/
structure Outline where
  key : PackageKey
  target : Target
  kind : ActionKind
  version : Version
  explicit : Bool
  /-- The changes of the steps that the step requires. -/
  required : Finset Change
deriving DecidableEq

/-- A step of a plan, without places. -/
def outline (steps : List Step) (s : Step) : Outline where
  key := s.key
  target := s.target
  kind := s.kind
  version := s.version
  explicit := s.explicit
  required := ((s.requires.filterMap (steps[·]?)).map Step.change).toFinset

/-- **Two plans with the same steps**, in whatever order. -/
def SameSteps (steps steps' : List Step) : Prop :=
  (steps.map (outline steps)).Perm (steps'.map (outline steps'))

instance (steps steps' : List Step) : Decidable (SameSteps steps steps') :=
  inferInstanceAs (Decidable (List.Perm _ _))

variable {r : Resolver} {actions actions' : List Action} {planned planned' : List Change}
  {steps steps' : List Step} {s s' : Step}

namespace Realizes

/-- A step requires the planned changes that its own awaits. -/
theorem mem_required (h : Realizes r actions planned steps) (hs : s ∈ steps) {c : Change} :
    c ∈ (outline steps s).required ↔ c ∈ planned ∧ Awaits r.snapshot planned s.change c := by
  simp only [outline, List.mem_toFinset, List.mem_map, List.mem_filterMap]
  constructor
  · rintro ⟨s', ⟨j, hj, hs'⟩, rfl⟩
    obtain ⟨c, hc, hawaits⟩ := (h.requires s hs j).mp hj
    obtain rfl := Option.some.inj (hc.symm.trans (h.planned_getElem? hs'))
    exact ⟨List.mem_of_getElem? hc, hawaits⟩
  · rintro ⟨hc, hawaits⟩
    obtain ⟨j, hj⟩ := List.mem_iff_getElem?.mp hc
    have hrequires := (h.requires s hs j).mpr ⟨c, hj, hawaits⟩
    obtain ⟨s', hs', hchange⟩ := h.exists_getElem? hj
    exact ⟨s', ⟨j, hrequires, hs'⟩, hchange⟩

theorem nodup_outlines (h : Realizes r actions planned steps) (hnodup : planned.Nodup) :
    (steps.map (outline steps)).Nodup := by
  -- No two steps make one change, and an outline tells the change.
  refine List.Nodup.of_map (fun o => (o.key, o.target, o.kind)) ?_
  rw [List.map_map]
  show (steps.map Step.change).Nodup
  rw [h.change]
  exact hnodup

/-- Steps that make one change in plans of the same changes look the same. -/
theorem outline_eq (h : Realizes r actions planned steps)
    (h' : Realizes r actions' planned' steps') (hactions : ∀ a, a ∈ actions ↔ a ∈ actions')
    (hplanned : ∀ c, c ∈ planned ↔ c ∈ planned') (hs : s ∈ steps) (hs' : s' ∈ steps')
    (hchange : s.change = s'.change) : outline steps s = outline steps' s' := by
  obtain ⟨hkey, htarget, hkind⟩ := Step.change_eq_iff.mp hchange
  have hversion : s.version = s'.version := h.version_eq h' hs hs' hkey
  have hexplicit : s.explicit = s'.explicit := by
    rw [Bool.eq_iff_iff, h.explicit s hs, h'.explicit s' hs', hactions, hkey, htarget, hkind]
  have hrequired : (outline steps s).required = (outline steps' s').required := by
    ext c
    rw [h.mem_required hs, h'.mem_required hs', hplanned, hchange, Awaits.congr hplanned]
  rw [outline, Outline.mk.injEq]
  exact ⟨hkey, htarget, hkind, hversion, hexplicit, hrequired⟩

/-- Plans of the same changes for the same actions have the same steps. -/
theorem outlines_subset (h : Realizes r actions planned steps)
    (h' : Realizes r actions' planned' steps') (hactions : ∀ a, a ∈ actions ↔ a ∈ actions')
    (hplanned : ∀ c, c ∈ planned ↔ c ∈ planned') :
    steps.map (outline steps) ⊆ steps'.map (outline steps') := by
  intro o ho
  obtain ⟨s, hs, rfl⟩ := List.mem_map.mp ho
  have hmem : s.change ∈ planned' := (hplanned _).mp (h.mem_planned.mpr ⟨s, hs, rfl⟩)
  obtain ⟨s', hs', hchange⟩ := h'.mem_planned.mp hmem
  rw [h.outline_eq h' hactions hplanned hs hs' hchange.symm]
  exact List.mem_map_of_mem hs'

theorem sameSteps (h : Realizes r actions planned steps)
    (h' : Realizes r actions' planned' steps') (hnodup : planned.Nodup)
    (hnodup' : planned'.Nodup) (hactions : ∀ a, a ∈ actions ↔ a ∈ actions')
    (hplanned : ∀ c, c ∈ planned ↔ c ∈ planned') : SameSteps steps steps' := by
  refine (List.perm_ext_iff_of_nodup (h.nodup_outlines hnodup) (h'.nodup_outlines hnodup')).mpr
    fun o => ⟨fun ho => ?_, fun ho => ?_⟩
  · exact h.outlines_subset h' hactions hplanned ho
  · exact h'.outlines_subset h (fun a => (hactions a).symm) (fun c => (hplanned c).symm) ho

end Realizes

/-- A request with the same actions is resolvable, too. -/
theorem Resolvable.congr (h : Resolvable r actions) (hactions : ∀ a, a ∈ actions ↔ a ∈ actions') :
    Resolvable r actions' :=
  Resolvable.of_targets fun _ _ => ⟨actions, h, fun b _ => (hactions b).symm⟩

/-- **A plan depends on the order of the request in its own order only.** -/
theorem sameSteps_of_perm (r : Resolver) (actions actions' : List Action)
    (hperm : actions.Perm actions') :
    ((∃ steps, r.resolve actions = .ok steps) ↔ ∃ steps, r.resolve actions' = .ok steps) ∧
      ∀ steps steps', r.resolve actions = .ok steps → r.resolve actions' = .ok steps' →
        SameSteps steps steps' := by
  have hactions : ∀ a, a ∈ actions ↔ a ∈ actions' := fun a => hperm.mem_iff
  constructor
  · rw [resolves_iff_resolvable, resolves_iff_resolvable]
    exact ⟨fun h => h.congr hactions, fun h => h.congr fun a => (hactions a).symm⟩
  · intro steps steps' h h'
    refine (realizes_arranged_of_resolve h).sameSteps (realizes_arranged_of_resolve h')
      nodup_arranged nodup_arranged hactions fun c => ?_
    rw [mem_arranged, mem_arranged]
    exact r.mem_planned_congr fun a _ => hactions a

/-- The sample request with the removal first: the removals come first, and the install of
the application still requires that of the base, which is in another place. -/
theorem sample_sameSteps : Sample.request.Perm Sample.request.reverse ∧
    SameSteps Sample.steps
      [⟨Sample.named "tool", .system, .uninstall, ⟨0, "2"⟩, false, 0, []⟩,
        ⟨Sample.named "base", .system, .uninstall, ⟨0, "2"⟩, true, 1, [0]⟩,
        ⟨Sample.named "base", .user, .install, ⟨0, "2"⟩, false, 2, []⟩,
        ⟨Sample.named "app", .user, .install, ⟨0, "2"⟩, true, 3, [2]⟩] := by
  have hperm : Sample.request.Perm Sample.request.reverse := (List.reverse_perm _).symm
  refine ⟨hperm, (sameSteps_of_perm Sample.resolver _ _ hperm).2 _ _ Sample.resolve_request ?_⟩
  decide +kernel

end Provision.Plan
