import Provision.Key.Basic

/-!
# What can go wrong

A store refuses a download, an installation or a removal for a reason of its own.
`TransactionError` is what the engine reports while it validates, resolves and runs
a request; it names the package the failure is about where there is one.  Every
cause has one wording (`message`) and every kind of failure one small number
(`code`) that stays the same whatever the wording.
-/

namespace Provision

/-- Why a store could not download a package. -/
inductive DownloadError
  | missingPayload
  | unknownPackage (key : PackageKey)
  | checksumMismatch (expected actual : String)
  | unsupportedUrl (url : String)
  | transfer (reason : String)
  | cancelled
  | io (reason : String)
deriving DecidableEq, Repr

def DownloadError.message : DownloadError → String
  | missingPayload => "package does not have downloadable content"
  | unknownPackage key => s!"package `{key}` is unknown to the store"
  | checksumMismatch expected actual => s!"checksum mismatch, expected {expected} got {actual}"
  | unsupportedUrl url => s!"unsupported url: {url}"
  | transfer reason => s!"transfer failed: {reason}"
  | cancelled => "download cancelled"
  | io reason => s!"IO error: {reason}"

/-- Why a store could not install a package. -/
inductive InstallError
  | packageNotFound (key : PackageKey)
  | io (reason : String)
  | store (reason : String)
deriving DecidableEq, Repr

def InstallError.message : InstallError → String
  | packageNotFound key => s!"package `{key}` is unknown to the store"
  | io reason => s!"IO error: {reason}"
  | store reason => reason

/-- Why a store could not uninstall a package. -/
inductive UninstallError
  | notInstalled
  | io (reason : String)
  | store (reason : String)
deriving DecidableEq, Repr

def UninstallError.message : UninstallError → String
  | notInstalled => "package is not installed"
  | io reason => s!"IO error: {reason}"
  | store reason => reason

/-- Why the dependencies of packages stand in the way of a request. -/
inductive DependencyError
  /-- The packages depend on each other; the first and the last key are the same. -/
  | cycle (path : List PackageKey)
  /-- Installed packages still depend on a package to be uninstalled. -/
  | requiredBy (key : PackageKey) (dependents : List PackageKey)
deriving DecidableEq, Repr

def DependencyError.message : DependencyError → String
  | cycle path => "dependency cycle: " ++ " -> ".intercalate (path.map PackageKey.toString)
  | requiredBy key dependents =>
    s!"`{key}` is required by " ++ ", ".intercalate (dependents.map PackageKey.toString)

/-- Why a request could not be planned or carried out. -/
inductive TransactionError
  | download (key : PackageKey) (cause : DownloadError)
  | dependency (cause : DependencyError)
  /-- The package is wanted both installed and uninstalled. -/
  | contradiction (key : PackageKey)
  | resolve (reason : String)
  | unknownPackage (key : PackageKey)
  | install (key : PackageKey) (cause : InstallError)
  | uninstall (key : PackageKey) (cause : UninstallError)
  | cancelled (completed : Nat)
  | alreadyRun (id : UInt32)
deriving DecidableEq, Repr

namespace TransactionError

def message : TransactionError → String
  | download key cause => s!"failed to download `{key}`: {cause.message}"
  | dependency cause => cause.message
  | contradiction key => s!"`{key}` is requested to be both installed and uninstalled"
  | resolve reason => s!"resolution failed: {reason}"
  | unknownPackage key => s!"package `{key}` does not exist in the repository index"
  | install key cause => s!"failed to install `{key}`: {cause.message}"
  | uninstall key cause => s!"failed to uninstall `{key}`: {cause.message}"
  | cancelled completed => s!"transaction cancelled after {completed} steps"
  | alreadyRun id => s!"transaction {id.toNat} has already been run"

/-- The number of the kind of failure. -/
def code : TransactionError → UInt32
  | download .. => 1
  | dependency .. => 2
  | contradiction .. => 3
  | resolve .. => 4
  | unknownPackage .. => 5
  | install .. => 6
  | uninstall .. => 7
  | cancelled .. => 8
  | alreadyRun .. => 9

/-- The package the failure is about, if there is a single one. -/
def packageKey? : TransactionError → Option PackageKey
  | download key _ => some key
  | install key _ => some key
  | uninstall key _ => some key
  | contradiction key => some key
  | unknownPackage key => some key
  | dependency (.requiredBy key _) => some key
  | dependency (.cycle _) => none
  | resolve _ => none
  | cancelled _ => none
  | alreadyRun _ => none

end TransactionError

/-- What is reported outside of transactions, and of a transaction as a whole. -/
inductive LibraryError
  | io (reason : String)
  | parse (reason : String)
  | validation (reason : String)
  | transaction (cause : TransactionError)
deriving DecidableEq, Repr

def LibraryError.message : LibraryError → String
  | io reason => s!"IO error: {reason}"
  | parse reason => s!"parsing error: {reason}"
  | validation reason => s!"validation error: {reason}"
  | transaction cause => s!"transaction failed: {cause.message}"

/-- A failure as a caller can decode it without reading the message. -/
structure ErrorReport where
  code : UInt32
  message : String
deriving DecidableEq, Repr

namespace ErrorReport

/-- The report of a call that succeeded. -/
def success : ErrorReport := ⟨0, ""⟩

/-- The report of a result. -/
def ofExcept {α : Type} : Except TransactionError α → ErrorReport
  | .ok _ => success
  | .error e => ⟨e.code, e.message⟩

end ErrorReport

end Provision
