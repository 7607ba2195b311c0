import Provision.Proofs.Plan.Feasible
import Provision.Proofs.Plan.OrderLoop
import Provision.Proofs.Plan.RemovalLoops

/-!
# Resolving ends

Whatever packages depend on, and whatever the store says about them, the loops of a resolver end:
the one that expands an install, the two that look for the removals that go together, and the one
that lines the steps up.  None takes more turns than it meets nodes and their successors.  What they
answer makes up what is resolved, and on the way no install asks the store for the same package at
the same target again.
-/
namespace Provision.Plan
open Visit Resolver

/-- **Resolving ends**: each loop does, with its part of the answer. -/
structure Resolver.Terminating (r : Resolver) : Prop where
  /-- The loop that expands an install is started for a package that the target has and that is not
  present yet. -/
  install : ∀ (s : Draft × Inquiries) (root : PackageKey) (target : Target) (p : Package),
    r.snapshot.get? root = some p → p.supports target = true → s.1.needs root target = false →
    ∃ n ≤ r.dependencies.effort (lefts (r.dependencies.explore (s.1.presentAt target) [root])),
      Ends (InstallLoop.turn r target) n (.start s p) (r.expandInstallNoting s root target)
  /-- The loop that collects the installed dependents of a package. -/
  dependents : ∀ (root : PackageKey) (target : Target),
    ∃ n ≤ r.dependents.effort (r.dependents.reachable [root]),
      Ends (DependentLoop.turn r target) n (.start root) (r.installedDependents root target)
  /-- The loop that looks for the removals that wait for the removal of a package. -/
  waiting : ∀ (graph : StepGraph) (p : Package) (target : Target),
    ∃ n ≤ p.dependencies.length + (r.lookThrough graph target).effort
        (r.lookThrough graph target).nodes,
      ∃ found, Ends (WaitingLoop.turn r graph target) n (.start p) found ∧
        found.Perm (r.waiting graph p target)
  /-- The order in which waits are found makes no difference. -/
  unordered : ∀ g g' : StepGraph, g'.steps = g.steps → g'.orders.Perm g.orders →
    g'.ordered = g.ordered ∧ toSteps g' = toSteps g
  /-- The loop that lines the steps up. -/
  ordered : ∀ graph : StepGraph,
    ∃ n ≤ graph.steps.length +
        graph.waits.effort (lefts (graph.waits.explore [] (List.range graph.steps.length))),
      Ends (OrderLoop.turn graph) n (.start graph) graph.ordered
  /-- What the loops answer makes up what is resolved. -/
  answer : ∀ actions, Noted.answer (r.resolveNoting actions) = r.resolve actions
  /-- Adding what installs need asks the store for each package and target at most once. -/
  once : ∀ actions, (Noted.inquiries (r.resolveNoting actions)).Nodup

/-- **Resolving ends, whatever there is to resolve.** -/
theorem Resolver.terminating (r : Resolver) : r.Terminating where
  install s _ _ _ := exists_ends_installLoop s
  dependents := exists_ends_dependentLoop r
  waiting := exists_ends_waitingLoop r
  unordered _ _ hsteps horders :=
    ⟨StepGraph.ordered_of_perm hsteps horders, StepGraph.toSteps_of_perm hsteps horders⟩
  ordered := exists_ends_orderLoop
  answer := answer_resolveNoting
  once := nodup_resolveNoting

/-! ## Tangled packages -/

namespace Sample

/-- A package that depends on itself, two that depend on each other, one that lists a dependency
twice, and one that lists a package that there is not.  The base has a shadow. -/
def tangle : Resolver where
  snapshot :=
    ⟨1, [[package "self" ["self"], package "left" ["right"], package "right" ["left"],
        package "top" ["base", "base"], package "base" [], package "lost" ["gone"]].foldl
          Repository.insert (Repository.empty "r" none),
      [package "base" ["self"]].foldl Repository.insert (Repository.empty "r" none)]⟩
  status _ _ := .notInstalled
  cascade := false

/-- To install packages for the user. -/
def installing (ids : List String) : List Action :=
  ids.map fun id => ⟨.install, .user, named id⟩

end Sample

open Sample in
/-- In its second turn the loop finds that the left and the right depend on each other; the store is
asked for the base once, though the base is listed twice and named, too. -/
theorem sample_terminating :
    tangle.expandInstallNoting (Draft.empty, []) (named "left") .user =
      .error (.dependency (.cycle (["left", "right", "left"].map named)), []) ∧
    (Noted.inquiries (tangle.resolveNoting (installing ["top", "base", "lost"]))).Nodup ∧
    Noted.inquiries (tangle.resolveNoting (installing ["top", "base", "lost"])) =
      ["base", "top"].map fun id => (named id, .user) := by
  refine ⟨?_, (terminating tangle).once _, by decide +kernel⟩
  obtain ⟨n, -, hends⟩ := (terminating tangle).install (Draft.empty, []) (named "left") .user
    (package "left" ["right"]) (by decide +kernel) (by decide) (by decide)
  have hloop : Ends (InstallLoop.turn tangle .user) 1
      (.start (Draft.empty, []) (package "left" ["right"]))
      (.error (.dependency (.cycle (["left", "right", "left"].map named)), [])) :=
    .more rfl (.now rfl)
  exact (hends.unique hloop).2

end Provision.Plan
