import Provision.CommandLine.Program

/-!
# What the program looks at

The program works on a file system that is known from the start.  Which part of the disk it
needs follows from its arguments, then from the settings, then from the repositories: each of
them names what comes next.  So the paths are found in rounds, and no round needs more than
the one before it has told.
-/

namespace Provision.CommandLine

/-- A path that the program looks at. -/
structure Interest where
  path : Path
  /-- Whether it also looks at what stands below the path. -/
  deep : Bool
deriving DecidableEq, Repr

/-- The number of rounds after which every path is known. -/
def scopeRounds : Nat := 3

/-- The payload of a package on the local file system. -/
def payloadPath? (package : Package) : Option Path :=
  match package.payload with
  | none => none
  | some payload =>
    if (Web.Address.ofString? payload.url).isSome then none else (sourcePath payload.url).toOption

/-- The paths that a repository is of interest for. -/
def repositoryScope (files : FileSystem) (source : String) : List Interest :=
  if (Web.Address.ofString? source).isSome then []
  else
    let payloads :=
      match Repository.load (.ofString source) files with
      | .ok repository => repository.packages.filterMap payloadPath?
      | .error _ => []
    ⟨.ofString source, false⟩ :: payloads.map (⟨·, false⟩)

/-- The paths that hold what settings keep.  The directories of the store are named one by
one, because links may lead to each of them. -/
def storeScope (config : Config) : List Interest :=
  let store := DirectoryStore.ofConfig config (fetchAny config.httpsOnly)
  ⟨config.dataDir, false⟩ :: ⟨config.downloadDir, true⟩ ::
    Target.all.flatMap fun target =>
      [⟨store.targetDir target, true⟩, ⟨store.packagesDir target, true⟩,
        ⟨store.recordsPath target, false⟩]

/-- The paths that the program looks at, as far as the files known so far tell. -/
def scope (env : Environment) (arguments : List String) (files : FileSystem) : List Interest :=
  match parseArguments allOptions arguments with
  | .error _ => []
  | .ok a =>
    let settings : Path :=
      match a.values configOption with
      | path :: _ => .ofString path
      | [] => Config.defaultPath env
    let rest :=
      match loadConfig env a (Console.begin files) with
      | (.error _, _) => []
      | (.ok config, _) =>
        storeScope config ++ (a.values repositoryOption).flatMap (repositoryScope files)
    ⟨settings, false⟩ :: rest

end Provision.CommandLine
