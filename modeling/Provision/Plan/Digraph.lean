/-!
# Depth-first walks of a finite directed graph

A walk enters a node, walks the successors that are not settled yet, and leaves the
node, which settles it.  `Digraph.walk` records what happens on the way as a list of
`Visit`s: nodes entered, nodes left, and cycles closed by a successor that is still
being walked.

What the record says is all that planning needs: the nodes left, in order, have every
successor before them as long as no cycle was closed; and a walk that only wants to
know what can be reached looks at the nodes left and ignores the cycles.
-/

namespace Provision.Plan

/-- A directed graph of which only the listed nodes have successors. -/
structure Digraph (α : Type) where
  nodes : List α
  next : α → List α
  next_eq_nil : ∀ x, x ∉ nodes → next x = []

/-- What happens on a walk. -/
inductive Visit (α : Type)
  | entered (node : α)
  | left (node : α)
  /-- A successor of the current node is still being walked.  The path leads from it to
  the current node and back to it. -/
  | closed (path : List α)
deriving DecidableEq, Repr

namespace Visit

/-- The node that was left. -/
def left? {α : Type} : Visit α → Option α
  | left node => some node
  | _ => none

end Visit

namespace Digraph

variable {α : Type} [DecidableEq α]

/-- Whether a node is settled: before the walk, or by having been left on it. -/
def isSettled (settled : List α) (visits : List (Visit α)) (x : α) : Bool :=
  settled.contains x || visits.contains (.left x)

/-- The cycle that a step back to `x` closes on a path that is listed from its end. -/
def cycleTo (path : List α) (x : α) : List α :=
  x :: (path.takeWhile (· ≠ x)).reverse ++ [x]

/-- Walks `x` and everything that can be reached from it and is not settled.

`path` holds the nodes being walked, the latest first, and `room` the nodes that are
not on it.  The room gets smaller with each node entered, so the walk ends; a node
outside of it has no successors. -/
def walk (g : Digraph α) (settled room path : List α) (x : α) (visits : List (Visit α)) :
    List (Visit α) :=
  if h : x ∈ room then
    (g.next x).foldl
      (fun visits y =>
        if isSettled settled visits y then visits
        else if y ∈ x :: path then visits ++ [.closed (cycleTo (x :: path) y)]
        else walk g settled (room.erase x) (x :: path) y visits)
      (visits ++ [.entered x]) ++ [.left x]
  else visits ++ [.entered x, .left x]
termination_by room.length
decreasing_by
  have := List.length_pos_of_mem h
  rw [List.length_erase_of_mem h]
  omega

/-- Walks from each of the roots in turn. -/
def explore (g : Digraph α) (settled roots : List α) : List (Visit α) :=
  roots.foldl
    (fun visits root =>
      if isSettled settled visits root then visits else walk g settled g.nodes [] root visits)
    []

/-- The nodes that can be reached from the roots, the roots among them; each follows
what was reached through it. -/
def reachable (g : Digraph α) (roots : List α) : List α :=
  (explore g [] roots).filterMap Visit.left?

end Digraph

end Provision.Plan
