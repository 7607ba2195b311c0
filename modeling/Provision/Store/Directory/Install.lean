import Provision.Archive.Extract
import Provision.Store.Directory.Download
import Provision.Store.Directory.Records

/-!
# Installing into a directory

An archive is extracted beside the directories of the packages first, so a broken archive
leaves an earlier installation alone.  What was extracted then takes the place of the
package's directory, and the records are replaced last.
-/

namespace Provision.DirectoryStore

/-- What a failed extraction means for the installation. -/
def refusalOf : ExtractError → InstallError
  | .pointsOutside path => .store (ExtractError.pointsOutside path).message
  | cause => .io cause.message

/-- Opens an artifact. -/
def openArtifact (artifact : Artifact) : Disk InstallError Bytes := do
  let (_, entry) ← (Disk.inspect (·.find? artifact.path)).adapt fun cause => .io cause.message
  match entry with
  | .file content => return content
  | _ => throw (.io FileError.isDirectory.message)

/-- Makes a directory to extract to. -/
def makeStaging (s : DirectoryStore) (target : Target) : Disk InstallError Path := do
  let directory := s.packagesDir target
  (Disk.makeDirectories directory).adapt fun cause => .io cause.message
  let staging ← Disk.look (s.naming.path · directory ".staging-" "")
  (Disk.change (·.makeDirectory staging)).adapt fun cause =>
    .io s!"{cause.message} at path \"{staging}\""
  return staging

/-- Removes the directory of a package, if there is one. -/
def clearPackageDir (directory : Path) : Disk FileError Unit := do
  if ← Disk.look (·.contains directory) then Disk.change (·.removeTree directory)

/-- Puts an extracted package in place. -/
def putInPlace (staging directory : Path) : Disk FileError Unit := do
  clearPackageDir directory
  Disk.change (·.rename staging directory)

/-- Installs an artifact. -/
def install (s : DirectoryStore) (snapshot : Snapshot) (artifact : Artifact) (target : Target) :
    Disk InstallError Unit := do
  let key := artifact.key
  let some package := snapshot.get? key | throw (.packageNotFound key)
  let records ← (Disk.inspect (s.records target)).adapt fun cause => .store cause.message
  let staging ← s.makeStaging target
  Disk.cleaning staging FileSystem.removeTree do
    let content ← openArtifact artifact
    let files ← (Archive.extract staging (s.readArchive content)).adapt refusalOf
    (putInPlace staging (s.packageDir key target)).adapt fun cause => .io cause.message
    (s.saveRecords target (records.insert key ⟨package.version, files⟩)).adapt fun cause =>
      .store cause.message

/-- Uninstalls a package. -/
def uninstall (s : DirectoryStore) (key : PackageKey) (target : Target) :
    Disk UninstallError Unit := do
  let records ← (Disk.inspect (s.records target)).adapt fun cause => .store cause.message
  if (records.get? key).isNone then throw .notInstalled
  (clearPackageDir (s.packageDir key target)).adapt fun cause => .io cause.message
  (s.saveRecords target (records.erase key)).adapt fun cause => .store cause.message

/-- The store as the engine sees it. -/
def store (s : DirectoryStore) : Store FileSystem where
  status := s.status
  download := s.download
  install snapshot artifact target fs :=
    let (outcome, fs) := s.install snapshot artifact target fs
    (.ofExcept outcome, fs)
  uninstall _ key target fs :=
    let (outcome, fs) := s.uninstall key target fs
    (.ofExcept outcome, fs)
  discard := discard

/-- A store in the directories that settings name, which are made. -/
def create (config : Config) (fetch : Fetch) : Disk FileError DirectoryStore := do
  Disk.makeDirectories config.dataDir
  Disk.makeDirectories config.downloadDir
  return .ofConfig config fetch

end Provision.DirectoryStore
