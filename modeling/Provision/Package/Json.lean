import Provision.Action.Json
import Provision.Package
import Provision.Version.Json

/-!
# Payloads and package descriptions in JSON

A repository file describes a package by its version, references to its dependencies, the
targets it is made for and its payload.  Only the version has to be there.
-/

namespace Provision

namespace Payload

/-- A payload without the members it does not have. -/
def toJson (p : Payload) : Json :=
  .object (("url", .string p.url) ::
    ((p.sha256.map fun digest => ("sha256", Json.string digest)).toList ++
      (p.size.map fun size => ("size", Json.number size.toNat)).toList))

/-- The members of a payload that have been read. -/
structure Draft where
  url : Option String := none
  sha256 : Option (Option String) := none
  size : Option (Option UInt64) := none

/-- How a payload is written. -/
def record : Json.Record Draft Payload where
  name := "Payload"
  members :=
    [.of "url" Draft.url (fun d x => { d with url := some x }) Json.decodeText,
      .of "sha256" Draft.sha256 (fun d x => { d with sha256 := some x })
        (Json.decodeOption Json.decodeText),
      .of "size" Draft.size (fun d x => { d with size := some x })
        (Json.decodeOption Json.decodeUInt64)]
  empty := {}
  build
    | ⟨some url, sha256, size⟩ => .ok ⟨url, sha256.getD none, size.getD none⟩
    | ⟨none, _, _⟩ => .error 0

def decode : Json.Decoder Payload :=
  record.decode

end Payload

/-- A package as a repository file describes it. -/
structure PackageDescription where
  version : Version
  /-- References to the dependencies. -/
  dependencies : List String
  targets : TargetSet
  payload : Option Payload
deriving DecidableEq, Repr

namespace PackageDescription

/-- The members of a description that have been read. -/
structure Draft where
  version : Option Version := none
  dependencies : Option (List String) := none
  targets : Option TargetSet := none
  payload : Option (Option Payload) := none

/-- Targets are written as a list in which repetitions do not count. -/
def decodeTargets : Json.Decoder TargetSet := fun reading =>
  (Json.decodeList Target.decode reading).map TargetSet.ofList

/-- How a package is described.  A package without targets of its own is made for all. -/
def record : Json.Record Draft PackageDescription where
  name := "PackageData"
  members :=
    [.of "version" Draft.version (fun d x => { d with version := some x }) Version.decode,
      .of "dependencies" Draft.dependencies (fun d x => { d with dependencies := some x })
        (Json.decodeList Json.decodeText),
      .of "targets" Draft.targets (fun d x => { d with targets := some x }) decodeTargets,
      .of "payload" Draft.payload (fun d x => { d with payload := some x })
        (Json.decodeOption Payload.decode)]
  empty := {}
  build
    | ⟨some version, dependencies, targets, payload⟩ =>
      .ok
        { version
          dependencies := dependencies.getD []
          targets := targets.getD .full
          payload := payload.getD none }
    | ⟨none, _, _, _⟩ => .error 0

def decode : Json.Decoder PackageDescription :=
  record.decode

end PackageDescription

end Provision
