import Provision.Files.FileSystem

/-!
# What changed in a file system

The changes that lead from one file system to another, in an order in which they can be
made: what stands below a directory goes before the directory goes, and comes after the
directory comes.
-/

namespace Provision

/-- A change at one place. -/
inductive FileChange
  | take (place : Location) (entry : FileEntry)
  | place (place : Location) (entry : FileEntry)
deriving DecidableEq, Repr

namespace FileSystem

/-- The entries of a file system that another one does not have, the outermost first. -/
def missingFrom (fs other : FileSystem) : List (Location × FileEntry) :=
  (fs.entries.filter fun e => other.get? e.1 ≠ some e.2).mergeSort fun a b =>
    a.1.length ≤ b.1.length

/-- The changes that lead from `fs` to `goal`. -/
def changesTo (fs goal : FileSystem) : List FileChange :=
  (fs.missingFrom goal).reverse.map (fun e => .take e.1 e.2) ++
    (goal.missingFrom fs).map fun e => .place e.1 e.2

end FileSystem

end Provision
