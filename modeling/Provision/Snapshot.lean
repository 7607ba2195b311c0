import Provision.Repository

/-!
# Snapshots of the repositories

All repositories that are loaded at one time make a `Snapshot`.  It answers which
package a key names (`get?`), which package a bare id names (`findById?`) and which
packages depend on a key (`dependentsOf`).  A `RepositoryIndex` holds the current
snapshot; a refresh replaces it as a whole and leaves earlier snapshots as they are.
-/

namespace Provision

/-- The repositories loaded at one time, in the order they were loaded in. -/
structure Snapshot where
  /-- How many refreshes led to this snapshot. -/
  generation : Nat
  repositories : List Repository

namespace Snapshot

/-- The snapshot without repositories that every index starts with. -/
def empty : Snapshot := ⟨0, []⟩

/-- Every package, repository by repository. -/
def packages (s : Snapshot) : List Package :=
  s.repositories.flatMap Repository.packages

/-- The package of a key: the one in the first repository under the key's url that
has it. -/
def get? (s : Snapshot) (key : PackageKey) : Option Package :=
  (s.repositories.filter fun r => r.url = key.repositoryUrl).findSome? fun r => r.get? key

def contains (s : Snapshot) (key : PackageKey) : Bool :=
  (s.get? key).isSome

/-- The first package with a given id. -/
def findById? (s : Snapshot) (id : String) : Option Package :=
  s.packages.find? fun p => p.key.id = id

/-- The packages that list `key` as a dependency, once for each time they list it. -/
def dependentsOf (s : Snapshot) (key : PackageKey) : List PackageKey :=
  s.packages.flatMap fun p => (p.dependencies.filter (· = key)).map fun _ => p.key

/-- The dependencies that the package of a key lists; none for a key without package. -/
def dependenciesOf (s : Snapshot) (key : PackageKey) : List PackageKey :=
  match s.get? key with
  | some p => p.dependencies
  | none => []

end Snapshot

/-- Holds the current snapshot. -/
structure RepositoryIndex where
  snapshot : Snapshot

namespace RepositoryIndex

/-- An index without repositories. -/
def empty : RepositoryIndex := ⟨Snapshot.empty⟩

/-- Replaces all repositories at once. -/
def refresh (index : RepositoryIndex) (repositories : List Repository) : RepositoryIndex :=
  ⟨⟨index.snapshot.generation + 1, repositories⟩⟩

/-- An index of the given repositories. -/
def ofRepositories (repositories : List Repository) : RepositoryIndex :=
  empty.refresh repositories

end RepositoryIndex

end Provision
