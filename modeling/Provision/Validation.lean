import Provision.Action
import Provision.Failure

/-!
# Contradictions among actions

A request must not ask for a package both to be installed and to be uninstalled at
one target.  `validate` checks a request and drops actions that repeat an earlier
one; `findContradiction?` looks for the same thing in any list of planned changes.
-/

namespace Provision

/-- What is to happen to which package at which target. -/
abbrev Change := PackageKey × Target × ActionKind

/-- The change that an action asks for. -/
def Action.change (a : Action) : Change :=
  (a.key, a.target, a.kind)

namespace Validation

/-- The kinds wanted so far, the latest first, each under its package and target. -/
abbrev Wanted := List ((PackageKey × Target) × ActionKind)

/-- Goes on with a validation after the actions in `seen` have been accepted. -/
def validateFrom (seen : Wanted) : List Action → Except TransactionError (List Action)
  | [] => .ok []
  | a :: rest =>
    match seen.lookup (a.key, a.target) with
    | none => (validateFrom (((a.key, a.target), a.kind) :: seen) rest).map (a :: ·)
    | some kind => if kind = a.kind then validateFrom seen rest else .error (.contradiction a.key)

/-- Checks a request.  The answer holds each action once, in the order of the request;
the first action that opposes an earlier one is named in the refusal. -/
def validate (actions : List Action) : Except TransactionError (List Action) :=
  validateFrom [] actions

/-- Goes on with a search after the changes in `seen`. -/
def findContradictionFrom? (seen : Wanted) : List Change → Option PackageKey
  | [] => none
  | (key, target, kind) :: rest =>
    match seen.lookup (key, target) with
    | some previous =>
      if previous = kind then findContradictionFrom? (((key, target), kind) :: seen) rest
      else some key
    | none => findContradictionFrom? (((key, target), kind) :: seen) rest

/-- The package of the first change that opposes the one before it on the same package
and target. -/
def findContradiction? (changes : List Change) : Option PackageKey :=
  findContradictionFrom? [] changes

end Validation

end Provision
