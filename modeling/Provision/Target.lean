/-!
# Targets and kinds of action

A package is installed for the whole system or for one user; the two targets are
independent of each other.  An action installs or uninstalls.  Both are also known
by a small number, for callers that cannot use names.
-/

namespace Provision

/-- Where a package is installed. -/
inductive Target
  | system
  | user
deriving DecidableEq, Hashable, Repr

namespace Target

/-- Every target, in order. -/
def all : List Target :=
  [system, user]

/-- The other target. -/
def other : Target → Target
  | system => user
  | user => system

def name : Target → String
  | system => "system"
  | user => "user"

instance : ToString Target := ⟨name⟩

def code : Target → UInt8
  | system => 0
  | user => 1

def ofCode? : UInt8 → Option Target
  | 0 => some system
  | 1 => some user
  | _ => none

/-- The target of a given name. -/
def ofName? (text : String) : Option Target :=
  all.find? fun target => target.name = text

end Target

/-- A set of targets. -/
structure TargetSet where
  system : Bool
  user : Bool
deriving DecidableEq, Repr

namespace TargetSet

/-- The set of both targets. -/
def full : TargetSet := ⟨true, true⟩

def contains (set : TargetSet) : Target → Bool
  | .system => set.system
  | .user => set.user

/-- The set of the listed targets. -/
def ofList (targets : List Target) : TargetSet :=
  ⟨targets.contains .system, targets.contains .user⟩

/-- The members of the set, in order. -/
def toList (set : TargetSet) : List Target :=
  Target.all.filter set.contains

end TargetSet

/-- What an action does to a package. -/
inductive ActionKind
  | install
  | uninstall
deriving DecidableEq, Hashable, Repr

namespace ActionKind

/-- Every kind, in order. -/
def all : List ActionKind :=
  [install, uninstall]

def name : ActionKind → String
  | install => "install"
  | uninstall => "uninstall"

instance : ToString ActionKind := ⟨name⟩

def code : ActionKind → UInt8
  | install => 0
  | uninstall => 1

def ofCode? : UInt8 → Option ActionKind
  | 0 => some install
  | 1 => some uninstall
  | _ => none

/-- The kind of a given name. -/
def ofName? (text : String) : Option ActionKind :=
  all.find? fun kind => kind.name = text

end ActionKind

end Provision
