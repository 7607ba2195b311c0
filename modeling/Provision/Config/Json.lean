import Provision.Config.Basic
import Provision.Files.Json

/-!
# Settings files

A settings file may leave out any member; what it leaves out is as the environment has it.
Reading raises the number of concurrent steps to at least one, as setting it does.
-/

namespace Provision.Config

/-- How settings are written in JSON. -/
def toJson (config : Config) : Except DocumentError Json := do
  return .object
    [("data_dir", ← config.dataDir.toJson),
      ("download_dir", ← config.downloadDir.toJson),
      ("cascade_uninstall", .bool config.cascadeUninstall),
      ("max_concurrent_steps", .number config.maxConcurrentSteps.toNat),
      ("https_only", .bool config.httpsOnly),
      ("do_checksums", .bool config.doChecksums)]

/-- The text of settings as far as it gets before a directory that is no text. -/
def fragment (config : Config) : List Char :=
  let upTo (name : String) : List Char := Json.quote name ++ [':', ' ']
  '\x7b' :: Json.newline 1 ++
    match config.dataDir.toJson with
    | .error _ => upTo "data_dir"
    | .ok dataDir =>
      Json.prettyMember 0 ("data_dir", dataDir) ++ ',' :: Json.newline 1 ++ upTo "download_dir"

/-- The members of settings that have been read. -/
structure Draft where
  dataDir : Option Path := none
  downloadDir : Option Path := none
  cascadeUninstall : Option Bool := none
  maxConcurrentSteps : Option UInt64 := none
  httpsOnly : Option Bool := none
  doChecksums : Option Bool := none

/-- The settings of a draft, completed by other settings. -/
def ofDraft (rest : Config) (d : Draft) : Config where
  dataDir := d.dataDir.getD rest.dataDir
  downloadDir := d.downloadDir.getD rest.downloadDir
  cascadeUninstall := d.cascadeUninstall.getD rest.cascadeUninstall
  maxConcurrentSteps := d.maxConcurrentSteps.getD rest.maxConcurrentSteps
  httpsOnly := d.httpsOnly.getD rest.httpsOnly
  doChecksums := d.doChecksums.getD rest.doChecksums

/-- How settings are read, what is left out being taken from `rest`. -/
def record (rest : Config) : Json.Record Draft Config where
  name := "Config"
  members :=
    [.of "data_dir" Draft.dataDir (fun d x => { d with dataDir := some x }) Path.decode,
      .of "download_dir" Draft.downloadDir (fun d x => { d with downloadDir := some x })
        Path.decode,
      .of "cascade_uninstall" Draft.cascadeUninstall
        (fun d x => { d with cascadeUninstall := some x }) Json.decodeBool,
      .of "max_concurrent_steps" Draft.maxConcurrentSteps
        (fun d x => { d with maxConcurrentSteps := some x }) (Json.decodeUInt64 "usize"),
      .of "https_only" Draft.httpsOnly (fun d x => { d with httpsOnly := some x })
        Json.decodeBool,
      .of "do_checksums" Draft.doChecksums (fun d x => { d with doChecksums := some x })
        Json.decodeBool]
  empty := {}
  build d := .ok (rest.ofDraft d)

/-- Reads settings from a text in a given environment. -/
def decode (env : Environment) : Json.Decoder Config :=
  (record (default env)).decode

/-- Loads a settings file. -/
def load (env : Environment) (path : Path) (fs : FileSystem) : Except DocumentError Config := do
  let config ← fs.readJson (decode env) path
  return config.setMaxConcurrentSteps config.maxConcurrentSteps

/-- Saves settings, with the directories that the file lies in.  Where they cannot be written as a
whole, what comes before the directory that is no text is left in the file. -/
def save (config : Config) (path : Path) : Disk DocumentError Unit := do
  if let some directory := path.parent? then
    (Disk.makeDirectories directory).adapt .io
  (Disk.change (·.write path [])).adapt .io
  match config.toJson with
  | .ok json => (Disk.change (·.write path (Utf8.encode (json.pretty 0)))).adapt .io
  | .error cause =>
    Disk.attempt (·.write path (Utf8.encode config.fragment))
    throw cause

/-- Sets the directory of installed packages, which must be there. -/
def setDataDir? (config : Config) (path : Path) (fs : FileSystem) : Option Config :=
  if fs.isDirectory path then some { config with dataDir := path } else none

/-- Sets the directory of downloads, which must be there. -/
def setDownloadDir? (config : Config) (path : Path) (fs : FileSystem) : Option Config :=
  if fs.isDirectory path then some { config with downloadDir := path } else none

end Provision.Config
