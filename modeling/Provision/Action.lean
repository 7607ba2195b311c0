import Provision.Key.Basic
import Provision.Target

/-!
# Actions

An action asks for one package to be installed or uninstalled at one target.
-/

namespace Provision

/-- A requested action. -/
structure Action where
  kind : ActionKind
  target : Target
  key : PackageKey
deriving DecidableEq, Repr

namespace Action

/-- Writes an action, as in `install <key> (user)`. -/
def toString (a : Action) : String :=
  s!"{a.kind} {a.key} ({a.target})"

instance : ToString Action := ⟨toString⟩

end Action

end Provision
