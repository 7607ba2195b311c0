import Provision.Failure
import Provision.Package
import Provision.Plan.Digraph
import Provision.Target

/-!
# The graph of a plan's steps

Planning collects steps and the order in which they have to be applied.  A step is
known by its place in the order of creation.  `ordered` lines the steps up so that
every step follows those it waits for, and otherwise keeps the order of creation.
-/

namespace Provision.Plan

/-- A step being planned. -/
structure PlannedStep where
  package : Package
  target : Target
  kind : ActionKind
  explicit : Bool
deriving DecidableEq, Repr

/-- Steps in the order of their creation, and pairs of a step and one that waits for it. -/
structure StepGraph where
  steps : List PlannedStep
  orders : List (Nat × Nat)
deriving Repr

namespace StepGraph

/-- The graph without steps. -/
def empty : StepGraph := ⟨[], []⟩

/-- The step that does `kind` to a package at a target. -/
def find? (g : StepGraph) (key : PackageKey) (target : Target) (kind : ActionKind) :
    Option Nat :=
  g.steps.findIdx? fun s => s.package.key = key ∧ s.target = target ∧ s.kind = kind

/-- Notes that a step was asked for. -/
def markExplicit (g : StepGraph) (i : Nat) : StepGraph :=
  { g with steps := g.steps.modify i fun s => { s with explicit := true } }

/-- Adds a step, or finds the one that does the same.  Once a step was asked for, it
stays so. -/
def addStep (g : StepGraph) (step : PlannedStep) : StepGraph × Nat :=
  match g.find? step.package.key step.target step.kind with
  | some i => (if step.explicit then g.markExplicit i else g, i)
  | none => ({ g with steps := g.steps ++ [step] }, g.steps.length)

/-- Lets step `after` wait for step `before`. -/
def addOrder (g : StepGraph) (before after : Nat) : StepGraph :=
  { g with orders := (before, after) :: g.orders }

/-- The steps that step `i` waits for, in the order of their creation. -/
def predecessors (g : StepGraph) (i : Nat) : List Nat :=
  (List.range g.steps.length).filter fun j => g.orders.contains (j, i)

/-- The graph that leads from each step to those it waits for. -/
def waits (g : StepGraph) : Digraph Nat where
  nodes := g.orders.map Prod.snd
  next := g.predecessors
  next_eq_nil i hi := by
    refine List.filter_eq_nil_iff.2 fun j _ => ?_
    rw [List.contains_iff_mem]
    exact fun h => hi (List.mem_map.2 ⟨(j, i), h, rfl⟩)

/-- The keys of the packages of the listed steps. -/
def keys (g : StepGraph) (path : List Nat) : List PackageKey :=
  path.filterMap fun i => (g.steps[i]?).map fun s => s.package.key

/-- Takes over a visit into an order of steps: a step that is left is the next one, and
a closed cycle refuses the order. -/
def orderVisit (g : StepGraph) (order : List Nat) : Visit Nat → Except DependencyError (List Nat)
  | .entered _ => .ok order
  | .left i => .ok (order ++ [i])
  | .closed path => .error (.cycle (g.keys path))

/-- Lines the steps up. -/
def ordered (g : StepGraph) : Except DependencyError (List Nat) :=
  (g.waits.explore [] (List.range g.steps.length)).foldlM g.orderVisit []

end StepGraph

end Provision.Plan
