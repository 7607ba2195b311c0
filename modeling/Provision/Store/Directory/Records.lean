import Provision.Files.Json
import Provision.Key.Json
import Provision.OrderedMap
import Provision.Store.Directory.Basic
import Provision.Version.Json

/-!
# Records of installed packages

Each target has a file that records its installed packages by their keys.  A missing file
records nothing.  The file is replaced as a whole, so it is never half written.
-/

namespace Provision

/-- What is recorded of an installed package. -/
structure InstalledRecord where
  version : Version
  /-- The files of the package, as its archive called them. -/
  files : List Path
deriving DecidableEq, Repr

namespace InstalledRecord

def toJson (r : InstalledRecord) : Except DocumentError Json := do
  return .object [("version", r.version.toJson), ("files", .array (← r.files.mapM Path.toJson))]

/-- The members of a record that have been read. -/
structure Draft where
  version : Option Version := none
  files : Option (List Path) := none

/-- How a record is written. -/
def record : Json.Record Draft InstalledRecord where
  name := "InstalledRecord"
  members :=
    [.of "version" Draft.version (fun d x => { d with version := some x }) Version.decode,
      .of "files" Draft.files (fun d x => { d with files := some x })
        (Json.decodeList Path.decode)]
  empty := {}
  build
    | ⟨some version, some files⟩ => .ok ⟨version, files⟩
    | ⟨none, _⟩ => .error 0
    | ⟨some _, none⟩ => .error 1

def decode : Json.Decoder InstalledRecord :=
  record.decode

end InstalledRecord

/-- The records of a target, in the order of the keys. -/
abbrev InstalledRecords := OrderedMap PackageKey InstalledRecord

namespace InstalledRecords

def toJson (records : InstalledRecords) : Except DocumentError Json := do
  return .object (← records.mapM fun (key, r) => do return (key.toString, ← r.toJson))

def decode : Json.Decoder InstalledRecords := fun reading =>
  (Json.decodeMembers PackageKey.ofWritten InstalledRecord.decode reading).map OrderedMap.ofList

end InstalledRecords

namespace DirectoryStore

/-- The records of a target. -/
def records (s : DirectoryStore) (target : Target) (fs : FileSystem) :
    Except DocumentError InstalledRecords :=
  if fs.contains (s.recordsPath target) then
    fs.readJson InstalledRecords.decode (s.recordsPath target)
  else .ok []

/-- Replaces the records of a target. -/
def saveRecords (s : DirectoryStore) (target : Target) (records : InstalledRecords) :
    Disk DocumentError Unit := do
  let directory := s.targetDir target
  (Disk.makeDirectories directory).adapt .io
  let json ← records.toJson
  let draft ← Disk.look (s.naming.path · directory ".tmp" "")
  (Disk.change (·.writeNew draft (Utf8.encode (json.pretty 0)))).adapt .io
  Disk.cleaning draft FileSystem.removeFile
    ((Disk.change (·.rename draft (s.recordsPath target))).adapt .io)

/-- The packages installed at a target, with the versions that were installed. -/
def installed (s : DirectoryStore) (target : Target) (fs : FileSystem) :
    Except DocumentError (List (PackageKey × Version)) := do
  return (← s.records target fs).map fun (key, r) => (key, r.version)

/-- The state of a package at a target. -/
def status (s : DirectoryStore) (snapshot : Snapshot) (key : PackageKey) (target : Target)
    (fs : FileSystem) : InstallStatus :=
  match s.records target fs with
  | .error cause => .unknown cause.message
  | .ok records =>
    match records.get? key, snapshot.get? key with
    | none, _ => .notInstalled
    | some r, some package =>
      if package.version.isNewer r.version then .needsUpdate else .upToDate
    | some _, none => .upToDate

end DirectoryStore

end Provision
