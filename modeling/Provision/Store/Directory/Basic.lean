import Provision.Archive.Tar.Reader
import Provision.Config.Basic
import Provision.Files.Change
import Provision.Sha256
import Provision.Store.Fetch

/-!
# Packages in a directory

A `DirectoryStore` keeps installed packages below a root directory:

* `<root>/<target>/pkg/<id>-<hash>/` holds the files of a package;
* `<root>/<target>/installed.json` records which packages are installed, each with its
  version and its files.

The hash is taken from the whole key, so packages that share an id do not share a directory.
-/

namespace Provision

/-- Keeps packages in a directory. -/
structure DirectoryStore where
  root : Path
  downloadDir : Path
  /-- Whether the digests of downloads are compared with the declared ones. -/
  doChecksums : Bool
  fetch : Fetch
  /-- How archives are read. -/
  readArchive : Bytes → ArchiveReading
  /-- How names are made up for downloads, for what is extracted and for drafts of records. -/
  naming : Naming

namespace DirectoryStore

/-- The store in the directories that settings name, which reads compressed archives. -/
def ofConfig (config : Config) (fetch : Fetch) : DirectoryStore where
  root := config.dataDir
  downloadDir := config.downloadDir
  doChecksums := config.doChecksums
  fetch := fetch
  readArchive := Tar.readCompressed
  naming := .numbers

/-- The directory of a target. -/
def targetDir (s : DirectoryStore) (target : Target) : Path :=
  s.root.child target.name

/-- The directory that holds the directories of packages. -/
def packagesDir (s : DirectoryStore) (target : Target) : Path :=
  (s.targetDir target).child "pkg"

/-- The first digits of the digest of a key. -/
def keyHash (key : PackageKey) : String :=
  String.ofList ((Sha256.hexDigest (Utf8.ofString key.toString)).toList.take 12)

/-- The directory of a package. -/
def packageDir (s : DirectoryStore) (key : PackageKey) (target : Target) : Path :=
  (s.packagesDir target).child s!"{key.id}-{keyHash key}"

/-- The file that records what is installed. -/
def recordsPath (s : DirectoryStore) (target : Target) : Path :=
  (s.targetDir target).child "installed.json"

end DirectoryStore

end Provision
