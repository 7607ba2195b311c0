import Provision.Key.Basic
import Provision.Target
import Provision.Version.Order

/-!
# Packages

A package is what a repository says about one of its keys: the version on offer,
the packages that have to be installed first, the targets it can be installed at
and where its contents can be fetched.
-/

namespace Provision

/-- Where the contents of a package are fetched from. -/
structure Payload where
  url : String
  /-- The digest the contents must have. -/
  sha256 : Option String
  size : Option UInt64
deriving DecidableEq, Repr

/-- A package of a repository. -/
structure Package where
  key : PackageKey
  version : Version
  /-- The packages that must be installed at the same target before this one. -/
  dependencies : List PackageKey
  /-- The targets the package can be installed at. -/
  targets : TargetSet
  payload : Option Payload
deriving DecidableEq, Repr

namespace Package

/-- Whether the package can be installed at a target. -/
def supports (p : Package) (target : Target) : Bool :=
  p.targets.contains target

end Package

end Provision
