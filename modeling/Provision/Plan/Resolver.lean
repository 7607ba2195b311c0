import Provision.Plan.StepGraph
import Provision.Snapshot
import Provision.Status
import Provision.Step
import Provision.Validation

/-!
# Resolving requests into steps

A request names packages to install and to uninstall.  `resolve` works out every step
that is needed to carry it out:

* installing a package also installs its dependencies, and theirs, as far as they are
  not up to date at the same target;
* uninstalling a package also uninstalls the installed packages that depend on it, if
  the planner may cascade, and is refused otherwise;
* what is already in the requested state produces no step, so a request that was
  carried out in part leads to the steps that are still missing.

Steps wait for each other along dependencies: an install for the installs below it, a
removal for the removals above it.  Packages that need no step are looked through, so
two steps that depend on each other only by way of such a package are ordered too.
-/

namespace Provision.Plan

/-- What requests are resolved against. -/
structure Resolver where
  snapshot : Snapshot
  /-- What the store says about a package at a target. -/
  status : PackageKey → Target → InstallStatus
  /-- Whether an uninstall may remove installed packages that were not named. -/
  cascade : Bool

/-- A plan being made. -/
structure Draft where
  graph : StepGraph
  /-- Every package that an install needs present, with the steps that whatever depends
  on it has to wait for, the latest first.  A package that is up to date passes on the
  steps of its own dependencies. -/
  present : List ((PackageKey × Target) × List Nat)

namespace Draft

/-- The plan of no request. -/
def empty : Draft := ⟨StepGraph.empty, []⟩

/-- The packages that installs need present at a target. -/
def presentAt (d : Draft) (target : Target) : List PackageKey :=
  d.present.filterMap fun entry => if entry.1.2 = target then some entry.1.1 else none

/-- Whether an install needs a package present at a target. -/
def needs (d : Draft) (key : PackageKey) (target : Target) : Bool :=
  (d.present.lookup (key, target)).isSome

/-- The steps that something with the given dependencies has to wait for. -/
def frontier (d : Draft) (dependencies : List PackageKey) (target : Target) : List Nat :=
  (dependencies.flatMap fun key => (d.present.lookup (key, target)).getD []).eraseDups

end Draft

/-- The refusal of a package at a target it is not made for. -/
def unsupported (p : Package) (target : Target) : TransactionError :=
  .resolve s!"`{p.key}` is not available for the {target} target"

namespace Resolver

variable (r : Resolver)

/-- The graph that leads from a package to its dependencies. -/
def dependencies : Digraph PackageKey where
  nodes := r.snapshot.packages.map Package.key
  next := r.snapshot.dependenciesOf
  next_eq_nil key h := by
    unfold Snapshot.dependenciesOf
    split
    · next p hp =>
      refine absurd (List.mem_map.2 ⟨p, ?_, ?_⟩) h
      · obtain ⟨repo, hrepo, hget⟩ := List.exists_of_findSome?_eq_some hp
        exact List.mem_flatMap.2 ⟨repo, (List.mem_filter.1 hrepo).1, List.mem_of_find?_eq_some hget⟩
      · obtain ⟨repo, _, hget⟩ := List.exists_of_findSome?_eq_some hp
        simpa using List.find?_some hget
    · rfl

/-- The graph that leads from a package to the packages that depend on it. -/
def dependents : Digraph PackageKey where
  nodes := r.snapshot.packages.flatMap Package.dependencies
  next := r.snapshot.dependentsOf
  next_eq_nil key h := by
    refine List.flatMap_eq_nil_iff.2 fun p hp => ?_
    rw [List.map_eq_nil_iff]
    refine List.filter_eq_nil_iff.2 fun d hd heq => h ?_
    have : d = key := by simpa using heq
    exact List.mem_flatMap.2 ⟨p, hp, this ▸ hd⟩

/-- Adds what an install needs of a package whose dependencies are present. -/
def addInstall (d : Draft) (p : Package) (target : Target) (explicit : Bool) :
    Except TransactionError Draft :=
  let frontier := d.frontier p.dependencies target
  match r.status p.key target with
  | .unknown reason =>
    .error (.resolve s!"unable to determine status of `{p.key}`: {reason}")
  | .upToDate => .ok { d with present := ((p.key, target), frontier) :: d.present }
  | _ =>
    let (graph, i) := d.graph.addStep ⟨p, target, .install, explicit⟩
    .ok
      { graph := frontier.foldl (fun graph before => graph.addOrder before i) graph
        present := ((p.key, target), [i]) :: d.present }

/-- Takes over a visit on the walk of the dependencies of `root`: a package has to exist
and to support the target when it is entered, and is added when it is left. -/
def installVisit (root : PackageKey) (target : Target) (d : Draft) :
    Visit PackageKey → Except TransactionError Draft
  | .entered key =>
    match r.snapshot.get? key with
    | none => .error (.unknownPackage key)
    | some p => if p.supports target then .ok d else .error (unsupported p target)
  | .closed path => .error (.dependency (.cycle path))
  | .left key =>
    match r.snapshot.get? key with
    | none => .error (.unknownPackage key)
    | some p => r.addInstall d p target (key = root)

/-- Adds the install of a package and of what it depends on. -/
def expandInstall (d : Draft) (root : PackageKey) (target : Target) :
    Except TransactionError Draft :=
  if d.needs root target then
    match d.graph.find? root target .install with
    | some i => .ok { d with graph := d.graph.markExplicit i }
    | none => .ok d
  else
    (r.dependencies.explore (d.presentAt target) [root]).foldlM (r.installVisit root target) d

/-- Takes over a package that depends on one to be uninstalled, if it is installed. -/
def collectDependent (target : Target) (found : List Package) (key : PackageKey) :
    Except TransactionError (List Package) :=
  match r.snapshot.get? key with
  | none => .ok found
  | some p =>
    match r.status key target with
    | .unknown reason =>
      .error (.resolve s!"unable to determine status of dependent `{key}`: {reason}")
    | status => .ok (if status.isInstalled then found ++ [p] else found)

/-- The packages installed at a target that depend on `root`, directly or not, each
before the packages it depends on. -/
def installedDependents (root : PackageKey) (target : Target) :
    Except TransactionError (List Package) :=
  ((r.dependents.reachable [root]).filter (· ≠ root)).foldlM (r.collectDependent target) []

/-- Adds the uninstall of a package and of what depends on it.  `requested` holds the
packages whose uninstall at the target was asked for. -/
def expandUninstall (d : Draft) (root : Package) (target : Target)
    (requested : List PackageKey) : Except TransactionError Draft :=
  match r.status root.key target with
  | .unknown reason =>
    .error (.resolve s!"unable to determine status of `{root.key}`: {reason}")
  | status =>
    if !status.isInstalled then .ok d
    else do
      let dependents ← r.installedDependents root.key target
      let blocking := (dependents.map Package.key).filter (! requested.contains ·)
      if !blocking.isEmpty && !r.cascade then
        throw (.dependency (.requiredBy root.key blocking))
      let graph := dependents.foldl
        (fun graph p => (graph.addStep ⟨p, target, .uninstall, requested.contains p.key⟩).1) d.graph
      return { d with graph := (graph.addStep ⟨root, target, .uninstall, true⟩).1 }

/-- The graph that leads from a package to its dependencies and stops at packages that
are uninstalled at the target. -/
def lookThrough (graph : StepGraph) (target : Target) : Digraph PackageKey where
  nodes := r.dependencies.nodes
  next key := if (graph.find? key target .uninstall).isSome then [] else r.dependencies.next key
  next_eq_nil key h := by
    split
    · rfl
    · exact r.dependencies.next_eq_nil key h

/-- The removals that wait for the removal of a package. -/
def waiting (graph : StepGraph) (p : Package) (target : Target) : List Nat :=
  ((r.lookThrough graph target).reachable p.dependencies).filterMap
    fun key => graph.find? key target .uninstall

/-- Lets the removal of a package wait for the removals of what depends on it. -/
def orderUninstalls (graph : StepGraph) : StepGraph :=
  let pairs := graph.steps.zipIdx.flatMap fun (s, i) =>
    match s.kind with
    | .install => []
    | .uninstall => (r.waiting graph s.package s.target).map fun after => (i, after)
  pairs.foldl (fun graph (before, after) => graph.addOrder before after) graph

/-- The changes that the steps of a plan make. -/
def changes (graph : StepGraph) : List Change :=
  graph.steps.map fun s => (s.package.key, s.target, s.kind)

/-- Refuses a plan that removes a package which one of its installs needs.  Removals that
were asked for count also where there is nothing to remove. -/
def checkContradictions (d : Draft) (requested : List (PackageKey × Target)) :
    Except TransactionError Unit :=
  match Validation.findContradiction? (changes d.graph) with
  | some key => .error (.contradiction key)
  | none =>
    let removed := (d.graph.steps.filter (·.kind = .uninstall)).map
      fun s => (s.package.key, s.target)
    match (requested ++ removed).find? fun (key, target) => d.needs key target with
    | some (key, _) => .error (.contradiction key)
    | none => .ok ()

/-- Finds the package of an action. -/
def requestedPackage (a : Action) : Except TransactionError Package :=
  match r.snapshot.get? a.key with
  | none => .error (.unknownPackage a.key)
  | some p => if p.supports a.target then .ok p else .error (unsupported p a.target)

/-- Adds what an action needs. -/
def expand (requested : List (PackageKey × Target)) (d : Draft) (a : Action × Package) :
    Except TransactionError Draft :=
  match a.1.kind with
  | .install => r.expandInstall d a.2.key a.1.target
  | .uninstall =>
    r.expandUninstall d a.2 a.1.target
      (requested.filterMap fun (key, target) => if target = a.1.target then some key else none)

/-- Writes an ordered graph down as steps. -/
def toSteps (graph : StepGraph) (order : List Nat) : List Step :=
  order.zipIdx.filterMap fun (i, position) =>
    (graph.steps[i]?).map fun s =>
      { key := s.package.key
        target := s.target
        kind := s.kind
        version := s.package.version
        explicit := s.explicit
        order := position
        requires := ((graph.predecessors i).filterMap order.idxOf?).mergeSort }

/-- Resolves a request.  Every requested package has to exist before anything is
expanded; steps that do not wait for each other keep the order of the request. -/
def resolve (actions : List Action) : Except TransactionError (List Step) := do
  let packages ← actions.mapM r.requestedPackage
  let requested := (actions.filter (·.kind = .uninstall)).map fun a => (a.key, a.target)
  let draft ← (actions.zip packages).foldlM (r.expand requested) Draft.empty
  let draft := { draft with graph := r.orderUninstalls draft.graph }
  checkContradictions draft requested
  match draft.graph.ordered with
  | .error e => .error (.dependency e)
  | .ok order => .ok (toSteps draft.graph order)

end Resolver

end Provision.Plan
