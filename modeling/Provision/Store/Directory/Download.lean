import Provision.Store.Directory.Basic

/-!
# Downloads

A payload is fetched into a file of its own in the download directory.  Where the payload
declares a digest and digests are compared, a file with another one is refused.  Whatever
goes wrong, nothing is left in the download directory.
-/

namespace Provision

namespace DirectoryStore

/-- The payload of a package. -/
def payload (snapshot : Snapshot) (key : PackageKey) : Except DownloadError Payload :=
  match snapshot.get? key with
  | none => .error (.unknownPackage key)
  | some package =>
    match package.payload with
    | none => .error .missingPayload
    | some payload => .ok payload

/-- Makes an empty file for a download. -/
def prepareDownload (s : DirectoryStore) (snapshot : Snapshot) (key : PackageKey) :
    Disk DownloadError (Payload × Path) := do
  let payload ← payload snapshot key
  (Disk.makeDirectories s.downloadDir).adapt fun cause => .io cause.message
  let path ← Disk.look (s.naming.path · s.downloadDir s!"{key.id}-" ".tar.gz")
  (Disk.change (·.writeNew path [])).adapt fun cause =>
    .io s!"{cause.message} at path \"{path}\""
  return (payload, path)

/-- Whether the digest of a content is the declared one, where digests are compared. -/
def checkDigest (s : DirectoryStore) (payload : Payload) (content : Bytes) :
    Except DownloadError Unit :=
  match payload.sha256 with
  | some expected =>
    let actual := Sha256.hexDigest content
    if s.doChecksums ∧ ¬ Text.sameLetters actual expected then
      .error (.checksumMismatch expected actual)
    else .ok ()
  | none => .ok ()

/-- Puts what was fetched into the file made for it. -/
def receive (s : DirectoryStore) (payload : Payload) (path : Path) (fetched : Fetched) :
    Disk DownloadError Unit := do
  let content ← fetched.content
  (Disk.change (·.write path content)).adapt fun cause => .io cause.message
  s.checkDigest payload content

/-- Downloads a package. -/
def download (s : DirectoryStore) (snapshot : Snapshot) (key : PackageKey) (target : Target)
    (fs : FileSystem) : Download × FileSystem :=
  match s.prepareDownload snapshot key fs with
  | (.error cause, fs) => (⟨[], .failed cause⟩, fs)
  | (.ok (payload, path), fs) =>
    let fetched := s.fetch payload.url fs
    match s.receive payload path fetched fs with
    | (.ok (), fs) => (⟨fetched.progress, .done ⟨key, target, path, true⟩⟩, fs)
    | (.error cause, fs) =>
      (⟨fetched.progress, .failed cause⟩, ((fs.removeFile path).toOption).getD fs)

/-- Gives up an artifact: a temporary file is removed. -/
def discard (artifact : Artifact) (fs : FileSystem) : FileSystem :=
  if artifact.temporary then ((fs.removeFile artifact.path).toOption).getD fs else fs

end DirectoryStore

end Provision
