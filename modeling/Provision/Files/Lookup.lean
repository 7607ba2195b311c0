import Provision.Files.FileSystem

/-!
# Finding what a path names

A path is followed name by name, from the root or from the working directory.  Every name
but the last must stand in a directory; links on the way are followed, a bounded number of
them.  The last name need not exist, so the same walk tells where something is (`find?`) and
where something could be put (`locate`).
-/

namespace Provision

/-- Why the file system refuses. -/
inductive FileError
  | notFound
  | alreadyExists
  | notDirectory
  | isDirectory
  | intoItself
  | nameTooLong
  | notEmpty
  | tooManyLinks
  | nulInPath
deriving DecidableEq, Repr

/-- The wording of a refusal. -/
def FileError.message : FileError → String
  | notFound => "No such file or directory (os error 2)"
  | alreadyExists => "File exists (os error 17)"
  | notDirectory => "Not a directory (os error 20)"
  | isDirectory => "Is a directory (os error 21)"
  | intoItself => "Invalid argument (os error 22)"
  | nameTooLong => "File name too long (os error 36)"
  | notEmpty => "Directory not empty (os error 39)"
  | tooManyLinks => "Too many levels of symbolic links (os error 40)"
  | nulInPath => "file name contained an unexpected NUL byte"

namespace FileSystem

/-- Where names lead until a link has to be followed. -/
inductive Stretch
  | ended (place : Location)
  | refused (cause : FileError)
  /-- A link stands in a directory, with names still to come after it. -/
  | atLink (directory : Location) (path : Path) (rest : List FileName)
deriving DecidableEq, Repr

/-- The longest name of an entry. -/
def longestName : Nat := 255

/-- The longest path that is followed. -/
def longestPath : Nat := 4095

/-- The number of links that are followed on one path. -/
def mostLinks : Nat := 40

/-- Follows names from a place until a link has to be followed.  A link at the very end is
followed only if `followLast` says so. -/
def stretch (fs : FileSystem) (followLast : Bool) (place : Location) : List FileName → Stretch
  | [] => .ended place
  | name :: rest =>
    match fs.get? place with
    | some .directory =>
      if name = [] ∨ name = Path.here then fs.stretch followLast place rest
      else if name = Path.above then fs.stretch followLast place.dropLast rest
      else if longestName < name.length then .refused .nameTooLong
      else
        match fs.get? (place ++ [name]) with
        | none => if rest = [] then .ended (place ++ [name]) else .refused .notFound
        | some (.link path) =>
          if rest = [] ∧ ¬ followLast then .ended (place ++ [name])
          else .atLink place path rest
        | some _ => fs.stretch followLast (place ++ [name]) rest
    | some _ => .refused .notDirectory
    | none => .refused .notFound

/-- The place that a path starts from, as seen from a directory. -/
def startOf (directory : Location) (path : Path) : Location :=
  if path.isAbsolute then [] else directory

/-- Follows names from a place, through at most as many links as given. -/
def follow (fs : FileSystem) (followLast : Bool) :
    (links : Nat) → Location → List FileName → Except FileError Location
  | links, place, names =>
    match fs.stretch followLast place names, links with
    | .ended place, _ => .ok place
    | .refused cause, _ => .error cause
    | .atLink .., 0 => .error .tooManyLinks
    | .atLink directory path rest, links + 1 =>
      fs.follow followLast links (startOf directory path) (path.pieces ++ rest)

/-- The place that a path names, whether or not something stands there. -/
def locate (fs : FileSystem) (path : Path) (followLast : Bool := true) :
    Except FileError Location :=
  if path.bytes.contains 0 then .error .nulInPath
  else if path.bytes = [] then .error .notFound
  else if longestPath < path.bytes.length then .error .nameTooLong
  else fs.follow followLast mostLinks (startOf fs.working path) path.pieces

/-- What a path names, and where it stands. -/
def find? (fs : FileSystem) (path : Path) (followLast : Bool := true) :
    Except FileError (Location × FileEntry) := do
  let place ← fs.locate path followLast
  match fs.get? place with
  | some entry => return (place, entry)
  | none => throw .notFound

/-- Whether a path names something. -/
def contains (fs : FileSystem) (path : Path) : Bool :=
  (fs.find? path).isOk

/-- Whether a path names a directory. -/
def isDirectory (fs : FileSystem) (path : Path) : Bool :=
  match fs.find? path with
  | .ok (_, .directory) => true
  | _ => false

/-- The content of a file. -/
def read (fs : FileSystem) (path : Path) : Except FileError Bytes := do
  match ← fs.find? path with
  | (_, .file content) => return content
  | (_, .directory) => throw .isDirectory
  | (_, .link _) => throw .tooManyLinks

end FileSystem

end Provision
