import Provision.CommandLine.Scope
import Provision.Files.Difference

/-!
# The program on a disk

What the program looks at is loaded from the disk, the program is run on it, and what it
changed is written back: once before the question whether to go ahead, and once at the end.
-/

namespace Provision.CommandLine

/-- The place of a path that has no links in it. -/
def placeOf (path : String) : Location :=
  (Path.ofString path).names

/-- The path of a place, as the disk takes it. -/
def textOf (place : Location) : IO String :=
  match (Path.ofNames true place).text? with
  | some text => return text
  | none => throw (IO.userError "the name of a file is not a text")

/-- Puts directories along a place. -/
def addDirectories (place : Location) (files : FileSystem) : FileSystem :=
  (List.range place.length).foldl (fun fs n => fs.put (place.take (n + 1)) .directory) files

/-- Loads what stands at a place, and what stands below it if `deep` says so. -/
partial def loadPlace (deep : Bool) (place : Location) (files : FileSystem) : IO FileSystem := do
  let path := (← IO.currentDir) / (← textOf place)
  match (← path.symlinkMetadata).type with
  | .dir =>
    let mut files := addDirectories place files
    if deep then
      for entry in ← path.readDir do
        files ← loadPlace true (place ++ [Utf8.ofString entry.fileName]) files
    return files
  | .file => return files.put place (.file (← IO.FS.readBinFile path).toList)
  | .symlink =>
    let goal ← try pure (← IO.FS.realPath path).toString catch _ => pure "/nonexistent"
    return files.put place (.link (.ofString goal))
  | .other => return files

/-- Loads what a path names, with the directories and links that lead there. -/
def loadPath (deep : Bool) (path : String) (files : FileSystem) : IO FileSystem := do
  let working ← IO.currentDir
  let path := working / path
  let kind ← try pure (some (← path.symlinkMetadata).type) catch _ => pure none
  match kind with
  | none => return files
  | some kind =>
    let mut files := files
    if kind == .symlink then
      let directory ← IO.FS.realPath (path.parent.getD working)
      let name := Utf8.ofString (path.fileName.getD "")
      files ← loadPlace false (placeOf directory.toString ++ [name]) files
    match ← try pure (some (← IO.FS.realPath path)) catch _ => pure none with
    | none => return files
    | some goal =>
      let place := placeOf goal.toString
      loadPlace deep place (addDirectories place.dropLast files)

/-- Loads what a path names and what each directory on the way names. -/
def loadInterest (files : FileSystem) (interest : Interest) : IO FileSystem := do
  let above := (interest.path.ancestors.drop 1).filterMap (·.text?)
  let files ← above.reverse.foldlM (fun fs path => loadPath false path fs) files
  match interest.path.text? with
  | some path => loadPath interest.deep path files
  | none => return files

/-- Loads what the program looks at. -/
def loadFiles (env : Environment) (arguments : List String) : IO FileSystem := do
  let working := placeOf (← IO.FS.realPath (← IO.currentDir)).toString
  let mut files := addDirectories working { FileSystem.empty with working }
  for _ in List.range scopeRounds do
    files ← (scope env arguments files).foldlM loadInterest files
  return files

/-- Makes a change on the disk. -/
def applyChange : FileChange → IO Unit
  | .take place .directory => do IO.FS.removeDir (← textOf place)
  | .take place _ => do IO.FS.removeFile (← textOf place)
  | .place place .directory => do IO.FS.createDir (← textOf place)
  | .place place (.file content) => do IO.FS.writeBinFile (← textOf place) ⟨content.toArray⟩
  | .place _ (.link _) => return

/-- Shows what the program has shown and logged. -/
def present (console : Console) : IO Unit := do
  let out ← IO.getStdout
  out.putStr console.shown
  out.flush
  console.log.forM fun line => IO.eprintln line.text

/-- Writes back what changed, and shows what is to be shown.  The disk cannot make links, so
nothing is written where a link would have to be. -/
def settle (before : FileSystem) (console : Console) : IO Unit := do
  let changes := before.changesTo console.files
  let links := changes.filterMap fun
    | .place place (.link _) => some place
    | _ => none
  if let place :: _ := links then
    throw (IO.userError s!"cannot make the link {← textOf place}")
  changes.forM applyChange
  present console

/-- Asks until there is a decision.  The terminal gives one line after another, so nothing is ever
left unread. -/
partial def askUser : IO Bool := do
  let line ← try (← IO.getStdin).getLine catch _ => pure ""
  let answer := if line = "" then none else some (Answer.ofText line.toList)
  match (Prompt.Asking.begin []).hear answer with
  | .inl asking =>
    IO.print asking.shown
    askUser
  | .inr decision =>
    IO.print decision.shown
    return decision.goesAhead

/-- The variables that settings depend on. -/
def readEnvironment : IO Environment := do
  return {
    home := ← IO.getEnv "HOME"
    dataHome := ← IO.getEnv "XDG_DATA_HOME"
    cacheHome := ← IO.getEnv "XDG_CACHE_HOME"
    configHome := ← IO.getEnv "XDG_CONFIG_HOME"
    temporary := ← IO.getEnv "TMPDIR" }

/-- Runs the program on the disk. -/
def execute (arguments : List String) : IO UInt32 := do
  let env ← readEnvironment
  let files ← loadFiles env arguments
  match start env arguments files with
  | .finished f =>
    settle files f.console
    return f.code
  | .asking planned console =>
    settle files console
    let later := Console.begin console.files
    let f := if ← askUser then goOn planned later else giveUp later
    settle console.files f.console
    return f.code

end Provision.CommandLine

/-- Runs the program, and tells what the disk refused. -/
def main (arguments : List String) : IO UInt32 := do
  try Provision.CommandLine.execute arguments
  catch e =>
    IO.eprintln s!"ERROR: {e}"
    return 1
