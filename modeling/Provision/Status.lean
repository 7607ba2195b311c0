/-!
# Installation status

What a store says about a package at one target.
-/

namespace Provision

/-- The state of a package at a target, as its store sees it. -/
inductive InstallStatus
  | notInstalled
  | upToDate
  /-- Installed, while the repository has a newer version. -/
  | needsUpdate
  /-- Not installed at the target, but at the other one. -/
  | atOtherTarget
  /-- The store could not tell. -/
  | unknown (reason : String)
deriving DecidableEq, Repr

namespace InstallStatus

/-- Whether the package is present at the target. -/
def isInstalled : InstallStatus → Bool
  | upToDate => true
  | needsUpdate => true
  | _ => false

def code : InstallStatus → Int8
  | notInstalled => 0
  | upToDate => 1
  | needsUpdate => 2
  | atOtherTarget => 3
  | unknown _ => -1

/-- The wording of a status. -/
def text : InstallStatus → String
  | notInstalled => "not installed"
  | upToDate => "installed"
  | needsUpdate => "update available"
  | atOtherTarget => "installed at other target"
  | unknown reason => s!"unknown ({reason})"

instance : ToString InstallStatus := ⟨text⟩

end InstallStatus

end Provision
