import Provision.Failure
import Provision.Files.Path
import Provision.Snapshot
import Provision.Status

/-!
# Stores

The engine decides what happens and in which order; a store does the work.  A `Store`
acts on a state of its own, of any type.  Every call is told the snapshot that is
current when it is made, and may end in three ways: it returns, it refuses with a
cause, or it crashes.
-/

namespace Provision

/-- How a call ends. -/
inductive Outcome (ε α : Type)
  | done (value : α)
  | failed (cause : ε)
  /-- The call did not return. -/
  | crashed
deriving DecidableEq, Repr

namespace Outcome

variable {ε α : Type}

/-- The outcome of a call that cannot crash. -/
def ofExcept : Except ε α → Outcome ε α
  | .ok value => done value
  | .error cause => failed cause

end Outcome

/-- A downloaded package, ready to be installed. -/
structure Artifact where
  key : PackageKey
  target : Target
  path : Path
  /-- Whether the file is deleted once the artifact is not needed any more. -/
  temporary : Bool
deriving DecidableEq, Repr

/-- The bytes that have arrived and the bytes that are expected in all. -/
structure Progress where
  current : Nat
  total : Nat
deriving DecidableEq, Repr

/-- What a download reports on the way, and how it ends. -/
structure Download where
  progress : List Progress
  outcome : Outcome DownloadError Artifact
deriving DecidableEq, Repr

/-- Downloads, installs and removes packages. -/
structure Store (σ : Type) where
  /-- The state of a package at exactly the given target. -/
  status : Snapshot → PackageKey → Target → σ → InstallStatus
  download : Snapshot → PackageKey → Target → σ → Download × σ
  install : Snapshot → Artifact → Target → σ → Outcome InstallError Unit × σ
  uninstall : Snapshot → PackageKey → Target → σ → Outcome UninstallError Unit × σ
  /-- Gives up an artifact, whether or not it was installed. -/
  discard : Artifact → σ → σ

namespace Store

/-- The state of a package, looking at the other target when the package is not installed
at the given one. -/
def statusAnywhere {σ : Type} (store : Store σ) (snapshot : Snapshot) (key : PackageKey)
    (target : Target) (state : σ) : InstallStatus :=
  match store.status snapshot key target state with
  | .notInstalled =>
    if (store.status snapshot key target.other state).isInstalled then .atOtherTarget
    else .notInstalled
  | status => status

end Store

end Provision
