import Provision.Files.Json
import Provision.OrderedMap
import Provision.Package.Json
import Provision.Repository

/-!
# Repository files

A repository file holds the url of the repository, its channel, and the descriptions of its
packages by their ids.  Dependencies are written as references, which are resolved against
the key of the package that lists them; one that cannot be resolved refuses the file.
-/

namespace Provision

/-- A repository as its file describes it. -/
structure RepositoryDescription where
  url : String
  channel : Option String
  /-- The packages in the order of their ids. -/
  packages : OrderedMap String PackageDescription

namespace RepositoryDescription

/-- The members of a description that have been read. -/
structure Draft where
  url : Option String := none
  channel : Option (Option String) := none
  packages : Option (OrderedMap String PackageDescription) := none

/-- Packages are written under their ids; a repeated id replaces the package before. -/
def decodePackages : Json.Decoder (OrderedMap String PackageDescription) := fun reading =>
  (Json.decodeMembers .ok PackageDescription.decode reading).map OrderedMap.ofList

/-- How a repository is described. -/
def record : Json.Record Draft RepositoryDescription where
  name := "RepositoryData"
  members :=
    [.of "url" Draft.url (fun d x => { d with url := some x }) Json.decodeText,
      .of "channel" Draft.channel (fun d x => { d with channel := some x })
        (Json.decodeOption Json.decodeText),
      .of "packages" Draft.packages (fun d x => { d with packages := some x }) decodePackages]
  empty := {}
  build
    | ⟨some url, channel, packages⟩ =>
      .ok { url, channel := channel.getD none, packages := packages.getD [] }
    | ⟨none, _, _⟩ => .error 0

/-- Adds a described package to a repository. -/
def addPackage (r : Repository) (entry : String × PackageDescription) :
    Except KeyError Repository := do
  let key := r.keyFor entry.1
  let dependencies ← entry.2.dependencies.mapM key.resolveReference
  return r.insert
    { key
      version := entry.2.version
      dependencies
      targets := entry.2.targets
      payload := entry.2.payload }

/-- The repository of a description. -/
def toRepository (d : RepositoryDescription) : Except KeyError Repository :=
  d.packages.foldlM addPackage (Repository.empty d.url d.channel)

end RepositoryDescription

namespace Repository

def decode : Json.Decoder Repository := fun reading => do
  let description ← RepositoryDescription.record.decode reading
  description.toRepository.mapError fun e => .misfit (.refused e.message)

/-- Reads a repository file. -/
def ofJson (text : List Char) : Except Json.ReadError Repository :=
  Json.decode decode text

/-- Loads a repository file. -/
def load (path : Path) (fs : FileSystem) : Except DocumentError Repository :=
  fs.readJson decode path

end Repository

end Provision
