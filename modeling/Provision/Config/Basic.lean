import Provision.Files.Path

/-!
# Settings

The settings that the engine is run with.  Directories that were not set follow the
environment: a variable of their own, a place below the home directory, or a directory
for temporary files.
-/

namespace Provision

/-- The variables of the environment that settings depend on. -/
structure Environment where
  home : Option String
  dataHome : Option String
  cacheHome : Option String
  configHome : Option String
  temporary : Option String
deriving DecidableEq, Repr

namespace Environment

/-- The directory for temporary files. -/
def temporaryDir (env : Environment) : Path :=
  .ofString (env.temporary.getD "/tmp")

/-- A directory named by a variable of its own, or found below the home directory. -/
def baseDir (env : Environment) (own : Option String) (belowHome : String) : Path :=
  match own, env.home with
  | some dir, _ => .ofString dir
  | none, some home => (Path.ofString home).child belowHome
  | none, none => env.temporaryDir

end Environment

/-- The settings. -/
structure Config where
  dataDir : Path
  downloadDir : Path
  /-- Whether an uninstall also removes the installed packages that depend on it. -/
  cascadeUninstall : Bool
  /-- How many steps may be applied at once. -/
  maxConcurrentSteps : UInt64
  httpsOnly : Bool
  doChecksums : Bool
deriving DecidableEq, Repr

namespace Config

/-- The settings of a given environment. -/
def default (env : Environment) : Config where
  dataDir := (env.baseDir env.dataHome ".local/share").child "pkgtx"
  downloadDir := ((env.baseDir env.cacheHome ".cache").child "pkgtx").child "downloads"
  cascadeUninstall := false
  maxConcurrentSteps := 1
  httpsOnly := true
  doChecksums := true

/-- Where the settings are kept unless told otherwise. -/
def defaultPath (env : Environment) : Path :=
  ((env.baseDir env.configHome ".config").child "pkgtx").child "config.json"

def setCascadeUninstall (config : Config) (value : Bool) : Config :=
  { config with cascadeUninstall := value }

/-- At least one step is applied at a time. -/
def setMaxConcurrentSteps (config : Config) (value : UInt64) : Config :=
  { config with maxConcurrentSteps := max value 1 }

def setHttpsOnly (config : Config) (value : Bool) : Config :=
  { config with httpsOnly := value }

def setDoChecksums (config : Config) (value : Bool) : Config :=
  { config with doChecksums := value }

end Config

end Provision
