import Provision.Files.Change
import Provision.Json.Decode
import Provision.Json.Value

/-!
# JSON files

Settings, repositories and records are kept in JSON files.  A file may be missing, may be
something else than a file, or may hold a text that does not fit; `DocumentError` tells
these apart.  Paths are written as texts, so a path that is no text cannot be written.
-/

namespace Provision

/-- Why a JSON file could not be read or written. -/
inductive DocumentError
  /-- The file could not be opened or changed. -/
  | io (cause : FileError)
  /-- What was opened could not be read. -/
  | unreadable (cause : FileError)
  | invalid (cause : Json.ReadError)
  /-- A path that is no text was to be written. -/
  | pathNotText

/-- The wording of an error. -/
def DocumentError.message : DocumentError → String
  | io cause => s!"IO error: {cause.message}"
  | unreadable cause => s!"JSON error: {cause.message}"
  | invalid cause => s!"JSON error: {cause.message}"
  | pathNotText => "JSON error: path contains invalid UTF-8 characters"

namespace Path

/-- A path as it is written in JSON. -/
def toJson (p : Path) : Except DocumentError Json :=
  match p.text? with
  | some text => .ok (.string text)
  | none => .error .pathNotText

def decode : Json.Decoder Path := fun reading =>
  (Json.decodeText "path string" reading).map ofString

end Path

namespace Json

/-- Decodes the bytes of a whole text. -/
def decodeBytes {α : Type} (decoder : Decoder α) (bytes : Bytes) : Except ReadError α := do
  let value ← decode decoder (Utf8.decodeLossy bytes)
  if (Utf8.decode? bytes).isSome then return value
  else throw (.malformed .notUnicode)

end Json

/-- Reads a JSON file. -/
def FileSystem.readJson {α : Type} (fs : FileSystem) (decoder : Json.Decoder α) (path : Path) :
    Except DocumentError α := do
  let (_, entry) ← (fs.find? path).mapError .io
  match entry with
  | .file content => (Json.decodeBytes decoder content).mapError .invalid
  | _ => throw (.unreadable .isDirectory)

end Provision
