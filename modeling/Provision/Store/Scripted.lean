import Provision.Store.Basic

/-!
# A store that follows a script

`ScriptedStore` keeps the installed packages in memory and writes down every call.  Its
script says which calls fail, and how, and which statuses it reports whatever happens.
It stands in for a real store wherever the engine is to be watched at work.
-/

namespace Provision

/-- A call as the scripted store writes it down. -/
inductive StoreCall
  | download (key : PackageKey) (target : Target)
  | install (key : PackageKey) (target : Target)
  | uninstall (key : PackageKey) (target : Target)
deriving DecidableEq, Repr

/-- A store in memory with a script. -/
structure ScriptedStore where
  /-- The installed packages, and whether each is up to date. -/
  installed : List ((PackageKey × Target) × Bool)
  /-- The calls so far, in order. -/
  calls : List StoreCall
  /-- The packages whose status the store cannot tell. -/
  unknown : List PackageKey
  /-- The packages whose download, installation or removal fails. -/
  failDownload : List PackageKey
  failInstall : List PackageKey
  failUninstall : List PackageKey
  /-- The size that downloads report, in two halves. -/
  downloadSize : Option Nat
  /-- Statuses reported whatever happens. -/
  fixedStatus : List ((PackageKey × Target) × InstallStatus)
  /-- Errors that come before a call is written down. -/
  downloadErrors : List (PackageKey × DownloadError)
  installErrors : List (PackageKey × InstallError)
  uninstallErrors : List (PackageKey × UninstallError)
  /-- The packages at which an installation or removal crashes. -/
  crashing : List PackageKey
deriving Repr

namespace ScriptedStore

/-- The store with nothing installed and nothing scripted. -/
def empty : ScriptedStore where
  installed := []
  calls := []
  unknown := []
  failDownload := []
  failInstall := []
  failUninstall := []
  downloadSize := none
  fixedStatus := []
  downloadErrors := []
  installErrors := []
  uninstallErrors := []
  crashing := []

/-- Whether a package is installed at a target, and if so whether it is up to date. -/
def installed? (s : ScriptedStore) (key : PackageKey) (target : Target) : Option Bool :=
  s.installed.lookup (key, target)

/-- Removes a package from the installed ones. -/
def markAbsent (s : ScriptedStore) (key : PackageKey) (target : Target) : ScriptedStore :=
  { s with installed := s.installed.filter fun entry => entry.1 ≠ (key, target) }

/-- Puts a package among the installed ones. -/
def markInstalled (s : ScriptedStore) (key : PackageKey) (target : Target) (upToDate : Bool) :
    ScriptedStore :=
  let s := s.markAbsent key target
  { s with installed := ((key, target), upToDate) :: s.installed }

/-- Writes a call down. -/
def record (s : ScriptedStore) (call : StoreCall) : ScriptedStore :=
  { s with calls := s.calls ++ [call] }

/-- Lets the calls succeed that were scripted to fail. -/
def clearFailures (s : ScriptedStore) : ScriptedStore :=
  { s with failDownload := [], failInstall := [], failUninstall := [] }

/-- The calls that change what is installed. -/
def applied (s : ScriptedStore) : List StoreCall :=
  s.calls.filter fun call =>
    match call with
    | .download .. => false
    | _ => true

def status (key : PackageKey) (target : Target) (s : ScriptedStore) : InstallStatus :=
  match s.fixedStatus.lookup (key, target) with
  | some status => status
  | none =>
    if s.unknown.contains key then .unknown "scripted"
    else
      match s.installed? key target with
      | some true => .upToDate
      | some false => .needsUpdate
      | none => .notInstalled

/-- What a download reports on the way. -/
def progress (s : ScriptedStore) : List Progress :=
  match s.downloadSize with
  | some size => [⟨size / 2, size⟩, ⟨size, size⟩]
  | none => []

def download (key : PackageKey) (target : Target) (s : ScriptedStore) :
    Download × ScriptedStore :=
  match s.downloadErrors.lookup key with
  | some cause => (⟨[], .failed cause⟩, s)
  | none =>
    let s := s.record (.download key target)
    if s.failDownload.contains key then
      (⟨[], .failed (.transfer "scripted failure")⟩, s)
    else (⟨s.progress, .done ⟨key, target, .ofString key.id, false⟩⟩, s)

def install (artifact : Artifact) (target : Target) (s : ScriptedStore) :
    Outcome InstallError Unit × ScriptedStore :=
  let key := artifact.key
  if s.crashing.contains key then (.crashed, s)
  else
    match s.installErrors.lookup key with
    | some cause => (.failed cause, s)
    | none =>
      let s := s.record (.install key target)
      if s.failInstall.contains key then (.failed (.store "scripted failure"), s)
      else (.done (), s.markInstalled key target true)

def uninstall (key : PackageKey) (target : Target) (s : ScriptedStore) :
    Outcome UninstallError Unit × ScriptedStore :=
  if s.crashing.contains key then (.crashed, s)
  else
    match s.uninstallErrors.lookup key with
    | some cause => (.failed cause, s)
    | none =>
      let s := s.record (.uninstall key target)
      if s.failUninstall.contains key then (.failed (.store "scripted failure"), s)
      else if (s.installed? key target).isSome then (.done (), s.markAbsent key target)
      else (.failed .notInstalled, s)

/-- The scripted store as a store.  It owns no files, so artifacts are given up without
any effect. -/
def store : Store ScriptedStore where
  status _ := status
  download _ := download
  install _ := install
  uninstall _ := uninstall
  discard _ s := s

end ScriptedStore

end Provision
