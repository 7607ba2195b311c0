import Provision.Action.Json
import Provision.Step
import Provision.Version.Json

/-!
# Transactions in JSON

A transaction is written with its id and its steps, for showing it to users and for handing
it to other programs.
-/

namespace Provision

def Step.toJson (s : Step) : Json :=
  .object
    [("key", s.key.toJson), ("target", s.target.toJson), ("kind", s.kind.toJson),
      ("version", s.version.toJson), ("explicit", .bool s.explicit), ("order", .number s.order),
      ("requires", .array (s.requires.map Json.number))]

def Transaction.toJson (t : Transaction) : Json :=
  .object [("id", .number t.id.toNat), ("steps", .array (t.steps.map Step.toJson))]

end Provision
