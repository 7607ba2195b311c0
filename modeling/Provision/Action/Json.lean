import Provision.Action
import Provision.Key.Json

/-!
# Actions in JSON

Targets and kinds are written by their names, an action as a structure of kind, target and
key.
-/

namespace Provision

def Target.toJson (target : Target) : Json :=
  .string target.name

def Target.decode : Json.Decoder Target :=
  Json.decodeName Target.ofName? (Target.all.map Target.name)

def ActionKind.toJson (kind : ActionKind) : Json :=
  .string kind.name

def ActionKind.decode : Json.Decoder ActionKind :=
  Json.decodeName ActionKind.ofName? (ActionKind.all.map ActionKind.name)

namespace Action

def toJson (a : Action) : Json :=
  .object [("kind", a.kind.toJson), ("target", a.target.toJson), ("key", a.key.toJson)]

/-- The members of an action that have been read. -/
structure Draft where
  kind : Option ActionKind := none
  target : Option Target := none
  key : Option PackageKey := none

/-- How an action is written. -/
def record : Json.Record Draft Action where
  name := "Action"
  members :=
    [.of "kind" Draft.kind (fun d x => { d with kind := some x }) ActionKind.decode,
      .of "target" Draft.target (fun d x => { d with target := some x }) Target.decode,
      .of "key" Draft.key (fun d x => { d with key := some x }) PackageKey.decode]
  empty := {}
  build
    | ⟨some kind, some target, some key⟩ => .ok ⟨kind, target, key⟩
    | ⟨none, _, _⟩ => .error 0
    | ⟨some _, none, _⟩ => .error 1
    | ⟨some _, some _, none⟩ => .error 2

def decode : Json.Decoder Action :=
  record.decode

end Action

end Provision
