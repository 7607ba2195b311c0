import Provision.Proofs.Plan.Reordering

/-!
# Requests that were not validated

A resolver takes any list of actions.  What it makes of a list is known from the actions in it
and from the changes that they call for, each where it is first called for; so an action that
repeats an earlier one adds nothing (`planned_eraseDups`, `Realizes.of_actions`).  And what an
install names is needed, so a removal of the same package is a contradiction
(`Granted.not_contradictory`).  A list is therefore resolved exactly if validation accepts it and
what validation leaves of it, the list without its repetitions, is resolved, and to the same steps
(`resolve_eq_ok_iff_validated`).
-/
namespace Provision.Plan
open Relation Resolver Validation

variable {r : Resolver} {actions actions' : List Action} {planned : List Change}
  {steps : List Step}

/-- Actions that repeat earlier ones call for nothing new. -/
theorem planned_eraseDups (r : Resolver) (actions : List Action) :
    r.planned actions.eraseDups = r.planned actions :=
  eraseDups_flatMap_eraseDups r.called actions

/-- What steps realize looks at the request as a set. -/
theorem Realizes.of_actions (h : Realizes r actions planned steps)
    (hactions : ∀ a, a ∈ actions ↔ a ∈ actions') : Realizes r actions' planned steps where
  change := h.change
  order := h.order
  version := h.version
  explicit s hs := (h.explicit s hs).trans (hactions _)
  requires := h.requires
  ascending := h.ascending

/-- **A request that is granted does not contradict itself**, whether or not its actions lead to
any steps. -/
theorem Granted.not_contradictory (h : Granted r actions) :
    ¬ Contradictory (actions.map Action.change) := by
  rintro ⟨key, target, hinstall, huninstall⟩
  have hneeded : r.Needed actions key target :=
    ⟨key, Action.mem_map_change.mp hinstall, ReflTransGen.refl⟩
  exact (h.compatible key target hneeded).1 (Action.mem_map_change.mp huninstall)

/-- **A request is resolved alike without its repetitions.** -/
theorem resolve_eraseDups :
    r.resolve actions.eraseDups = .ok steps ↔ r.resolve actions = .ok steps := by
  have hactions (a : Action) : a ∈ actions.eraseDups ↔ a ∈ actions := List.mem_eraseDups
  rw [resolve_eq_ok_iff_realizes, resolve_eq_ok_iff_realizes, planned_eraseDups]
  constructor
  · exact fun h => ⟨h.1.congr hactions, h.2.of_actions hactions⟩
  · exact fun h => ⟨h.1.congr fun a => (hactions a).symm, h.2.of_actions fun a => (hactions a).symm⟩

/-- **Resolving takes in the validation.**  Any list of actions is resolved to some steps exactly
if it is accepted by validation and what is left of it, which is the list without its repetitions,
is resolved to them. -/
theorem resolve_eq_ok_iff_validated (r : Resolver) (actions : List Action) (steps : List Step) :
    r.resolve actions = .ok steps ↔
      ∃ kept, validate actions = .ok kept ∧ kept = actions.eraseDups ∧
        r.resolve kept = .ok steps := by
  constructor
  · intro h
    have hgranted := (resolve_eq_ok_iff_realizes.mp h).1.granted
    exact ⟨actions.eraseDups, validate_eq_ok_iff.mpr ⟨hgranted.not_contradictory, rfl⟩, rfl,
      resolve_eraseDups.mpr h⟩
  · rintro ⟨_, -, rfl, h⟩
    exact resolve_eraseDups.mp h

/-- The sample request is made twice, the second time in the other order. -/
example :
    validate (Sample.request ++ Sample.request.reverse) = .ok Sample.request ∧
      Sample.resolver.resolve (Sample.request ++ Sample.request.reverse) = .ok Sample.steps := by
  decide +kernel

end Provision.Plan
