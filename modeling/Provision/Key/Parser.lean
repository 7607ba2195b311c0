import Provision.Key.Basic

/-!
# Reading package keys

`parse` reads a written key.  `resolveReference` reads what a package writes for a
dependency: a full key, or the bare id of a package in the same repository.
-/

namespace Provision

/-- Why a text is not a package key.  Each cause holds the text. -/
inductive KeyError
  | missingSegment (text : String)
  | emptyRepository (text : String)
  | invalidId (text : String)
deriving DecidableEq, Repr

/-- The wording of a key error. -/
def KeyError.message : KeyError → String
  | missingSegment text => s!"missing `/packages/` segment in `{text}`"
  | emptyRepository text => s!"empty repository url in `{text}`"
  | invalidId text => s!"invalid package id in `{text}`"

namespace PackageKey

/-- Cuts a written key at its first number sign: what stands before it, and the
channel after it. -/
def splitChannel (text : List Char) : List Char × Option String :=
  match Text.splitFirst? '#' text with
  | some (body, channel) => (body, some (String.ofList channel))
  | none => (text, none)

/-- Reads a written key. -/
def parse (text : String) : Except KeyError PackageKey :=
  let (body, channel) := splitChannel text.toList
  match Text.splitLast? segment body with
  | none => .error (.missingSegment text)
  | some (url, id) =>
    if url = [] then .error (.emptyRepository text)
    else if id = [] ∨ '/' ∈ id then .error (.invalidId text)
    else .ok (make (String.ofList url) (String.ofList id) channel)

/-- Reads a reference to a package made by the package `base`: a full key, or the id
of a package in the repository and channel of `base`. -/
def resolveReference (base : PackageKey) (reference : String) : Except KeyError PackageKey :=
  let text := reference.toList
  if Text.holds segment text then parse reference
  else if text = [] ∨ '/' ∈ text ∨ '#' ∈ text then .error (.invalidId reference)
  else .ok (make base.repositoryUrl reference base.channel)

end PackageKey

end Provision
