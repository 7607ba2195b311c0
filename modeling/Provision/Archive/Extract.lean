import Provision.Archive.Entry
import Provision.Files.Change

/-!
# Extracting archives

The entries of an archive are laid out below a directory, in the order of the archive.  What
an entry calls its path is taken from that directory on: roots and names that stand for the
directory itself do not count, and a path that goes up is refused.  Links on the way must not
lead out of the directory either.
-/

namespace Provision

/-- Why an archive could not be extracted. -/
inductive ExtractError
  /-- An entry has a path that goes up. -/
  | pointsOutside (path : Path)
  /-- A link leads out of the directory that is extracted to. -/
  | leadsOutside (root : Path)
  | cannotCreate (directory : Path)
  | cannotUnpack (destination : Path)
  /-- The archive cannot be read further. -/
  | archive (cause : ArchiveError)
deriving DecidableEq, Repr

/-- The wording of an error. -/
def ExtractError.message : ExtractError → String
  | pointsOutside path => s!"archive entry `{path}` points outside of the package"
  | leadsOutside root => s!"trying to unpack outside of destination path: {root}"
  | cannotCreate directory => s!"failed to create `{directory}`"
  | cannotUnpack destination => s!"failed to unpack `{destination}`"
  | archive cause => cause.message

namespace Path

/-- The names of a path as seen from any directory. -/
def localNames (p : Path) : List FileName :=
  p.names.filter (· ≠ here)

/-- Whether the path goes up somewhere. -/
def goesUp (p : Path) : Bool :=
  p.names.contains above

end Path

namespace FileSystem

/-- Whether a path leads to a place within a directory. -/
def leadsInto (fs : FileSystem) (root path : Path) : Bool :=
  match fs.find? root, fs.find? path with
  | .ok (outer, _), .ok (inner, _) => outer.isPrefixOf inner
  | _, _ => false

/-- The first of some paths at which something stands. -/
def firstPresent? (fs : FileSystem) (paths : List Path) : Option Path :=
  paths.find? fun path => (fs.find? path false).isOk

end FileSystem

namespace Archive

/-- Makes a change, which is told as `cause` where it is refused. -/
def change (cause : ExtractError) (call : FileSystem → Except FileError FileSystem) :
    Disk ExtractError Unit :=
  (Disk.change call).adapt fun _ => cause

/-- Makes a change where nothing stands yet, removing a file that does. -/
def changeReplacing (path : Path) (call : FileSystem → Except FileError FileSystem) :
    Disk ExtractError Unit := do
  match ← Disk.look call with
  | .error .alreadyExists => change (.cannotUnpack path) (·.removeFile path)
  | _ => pure ()
  change (.cannotUnpack path) call

/-- Makes sure that a directory below `root` is there, without leaving `root` on the way. -/
def enterDirectory (root directory : Path) : Disk ExtractError Unit := do
  match ← Disk.look (·.firstPresent? directory.ancestors) with
  | some present =>
    if !(← Disk.look (·.leadsInto root present)) then throw (.leadsOutside root)
  | none => throw (.cannotCreate directory)
  if !(← Disk.look fun fs => (fs.find? directory false).isOk) then
    (Disk.makeDirectories directory).adapt fun _ => .cannotCreate directory
  if !(← Disk.look (·.leadsInto root directory)) then throw (.leadsOutside root)

/-- Puts what an entry stands for at its destination.  A hard link to a link is that link once
more. -/
def unpack (root destination : Path) (e : ArchiveEntry) : Disk ExtractError Unit := do
  let refused : ExtractError := .cannotUnpack destination
  match e.kind with
  | .directory => (Disk.ensureDirectory destination).adapt fun _ => refused
  | .slashedFile => (Disk.ensureDirectory destination).adapt fun _ => refused
  | .symbolicLink target =>
    if target.bytes = [] then throw refused
    changeReplacing destination (·.makeLink destination target)
  | .hardLink target =>
    let source := root.join target
    if !(← Disk.look (·.leadsInto root source)) then throw refused
    match ← (Disk.inspect (·.find? source false)).adapt fun _ => refused with
    | (_, .file content) => change refused (·.writeNew destination content)
    | (_, .link path) => change refused (·.makeLink destination path)
    | (_, .directory) => throw refused
  | .file => changeReplacing destination (·.writeNew destination e.content)
  | .unknown _ => changeReplacing destination (·.writeNew destination e.content)

/-- Extracts an entry below a directory.  An entry that stands for the directory itself
changes nothing. -/
def extractEntry (root : Path) (e : ArchiveEntry) : Disk ExtractError Unit := do
  if e.path.goesUp then throw (.pointsOutside e.path)
  let names := e.path.localNames
  if names = [] then return
  let directory := names.dropLast.foldl (fun p name => p.join ⟨name⟩) root
  enterDirectory root directory
  unpack root (names.foldl (fun p name => p.join ⟨name⟩) root) e

/-- Extracts an archive below a directory.  Gives the paths of its files, as the archive has
them. -/
def extract (root : Path) (r : ArchiveReading) : Disk ExtractError (List Path) := do
  r.entries.forM (extractEntry root)
  match r.failure with
  | some cause => throw (.archive cause)
  | none => return (r.entries.filter (·.kind.isFile)).map (·.path)

end Archive

end Provision
