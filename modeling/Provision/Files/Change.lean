import Provision.Files.Lookup

/-!
# Changing a file system

Each change is one call of the system: it either happens as a whole or is refused and leaves
everything as it was.  Work made of several changes is a `Disk`; what was changed before it
failed stays changed.
-/

namespace Provision

namespace Path

/-- A path without the slashes at its end. -/
def trimmed (p : Path) : Path :=
  let kept := (p.bytes.reverse.dropWhile (· == slash)).reverse
  if kept = [] then p else ⟨kept⟩

/-- Whether a path can only name a directory. -/
def endsInSlash (p : Path) : Bool :=
  p.bytes.getLast? = some slash

end Path

namespace FileSystem

/-- The place where a path asks for something that is not there yet. -/
def freePlace (fs : FileSystem) (path : Path) : Except FileError Location := do
  let place ← fs.locate path.trimmed false
  if (fs.get? place).isSome then throw .alreadyExists
  return place

/-- Makes a directory. -/
def makeDirectory (fs : FileSystem) (path : Path) : Except FileError FileSystem := do
  return fs.put (← fs.freePlace path) .directory

/-- Makes a file, which must not be there yet. -/
def writeNew (fs : FileSystem) (path : Path) (content : Bytes) : Except FileError FileSystem := do
  let place ← fs.freePlace path
  if path.endsInSlash then throw .isDirectory
  return fs.put place (.file content)

/-- Makes a symbolic link, which must not be there yet. -/
def makeLink (fs : FileSystem) (path target : Path) : Except FileError FileSystem := do
  return fs.put (← fs.freePlace path) (.link target)

/-- Writes a file, whether or not it is there. -/
def write (fs : FileSystem) (path : Path) (content : Bytes) : Except FileError FileSystem := do
  let place ← fs.locate path.trimmed
  if path.endsInSlash then throw .isDirectory
  match fs.get? place with
  | some .directory => throw .isDirectory
  | _ => return fs.put place (.file content)

/-- Removes a file or a link. -/
def removeFile (fs : FileSystem) (path : Path) : Except FileError FileSystem := do
  match ← fs.find? path false with
  | (_, .directory) => throw .isDirectory
  | (place, _) => return fs.prune place

/-- Removes a directory with all that is in it, or a link. -/
def removeTree (fs : FileSystem) (path : Path) : Except FileError FileSystem := do
  match ← fs.find? path false with
  | (_, .file _) => throw .notDirectory
  | (place, _) => return fs.prune place

/-- Whether an entry may take the place of another. -/
def checkReplace (fs : FileSystem) (entry : FileEntry) (place : Location) :
    Except FileError Unit :=
  match entry, fs.get? place with
  | _, none => .ok ()
  | .directory, some .directory => if fs.below place = [] then .ok () else .error .notEmpty
  | .directory, some _ => .error .notDirectory
  | _, some .directory => .error .isDirectory
  | _, some _ => .ok ()

/-- Gives what a path names another path. -/
def rename (fs : FileSystem) (source destination : Path) : Except FileError FileSystem := do
  let (place, entry) ← fs.find? source false
  let goal ← fs.locate destination.trimmed false
  if place = goal then return fs
  if place.isPrefixOf goal then throw .intoItself
  fs.checkReplace entry goal
  return (fs.prune goal).relocate place goal

end FileSystem

/-- How names are made up for what is temporary.  What is chosen comes between two texts; it
may be anything made of letters and digits, whatever stands in the directory. -/
structure Naming where
  choose : FileSystem → (directory : Path) → (before after : String) → String
  isAlphanum_of_mem_choose : ∀ fs directory before after,
    ∀ c ∈ (choose fs directory before after).toList, c.isAlphanum = true

namespace Naming

/-- A path in a directory for something temporary. -/
def path (n : Naming) (fs : FileSystem) (directory : Path) (before after : String) : Path :=
  directory.child (before ++ n.choose fs directory before after ++ after)

/-- The least number with which a name is free. -/
def numbers : Naming where
  choose fs directory before after :=
    let taken (n : Nat) : Bool :=
      (fs.find? (directory.child (before ++ toString n ++ after)) false).isOk
    toString (((List.range (fs.entries.length + 1)).find? fun n => !taken n).getD 0)
  isAlphanum_of_mem_choose _ _ _ _ c hc := by
    have hdigit := Nat.isDigit_of_mem_toDigits (b := 10) (by omega) (by omega) (by simpa using hc)
    rw [Char.isAlphanum, hdigit, Bool.or_true]

end Naming

/-- Work on a file system that may fail. -/
abbrev Disk (ε : Type) := ExceptT ε (StateM FileSystem)

namespace Disk

variable {ε α : Type}

/-- Looks at the file system. -/
def look (question : FileSystem → α) : Disk ε α := do
  return question (← get)

/-- Looks at the file system, which may refuse. -/
def inspect (question : FileSystem → Except ε α) : Disk ε α := do
  match question (← get) with
  | .ok value => return value
  | .error cause => throw cause

/-- Makes one change. -/
def change (call : FileSystem → Except ε FileSystem) : Disk ε Unit := do
  match call (← get) with
  | .ok fs => set fs
  | .error cause => throw cause

/-- Makes one change if the file system lets it. -/
def attempt {δ : Type} (call : FileSystem → Except δ FileSystem) : Disk ε Unit :=
  modify fun fs =>
    match call fs with
    | .ok fs => fs
    | .error _ => fs

/-- Work with something that is taken away afterwards, however the work ended. -/
def cleaning (path : Path) (remove : FileSystem → Path → Except FileError FileSystem)
    (work : Disk ε α) : Disk ε α :=
  try
    let value ← work
    attempt (remove · path)
    return value
  catch cause => do
    attempt (remove · path)
    throw cause

/-- Makes a directory that may be there already. -/
def ensureDirectory (path : Path) : Disk FileError Unit := do
  try change (·.makeDirectory path)
  catch cause =>
    if ← look (·.isDirectory path) then return
    throw cause

/-- Makes the first of some directories, each of which lies in the next. -/
def makeChain : List Path → Disk FileError Unit
  | [] => return
  | path :: above => do
    if path.bytes = [] then return
    match ← look (·.makeDirectory path) with
    | .error .notFound =>
      makeChain above
      ensureDirectory path
    | _ => ensureDirectory path

/-- Makes a directory with the directories that it lies in. -/
def makeDirectories (path : Path) : Disk FileError Unit :=
  makeChain path.ancestors

end Disk

end Provision
