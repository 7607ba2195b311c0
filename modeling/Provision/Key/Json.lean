import Provision.Json.Decode
import Provision.Json.Value
import Provision.Key.Parser

/-!
# Package keys in JSON

A key is written as its text, both as a value and as the name of a member.
-/

namespace Provision.PackageKey

def toJson (key : PackageKey) : Json :=
  .string key.toString

/-- Reads a written key, the refusal being one of the JSON text that holds it. -/
def ofWritten (text : String) : Except Json.ReadError PackageKey :=
  (parse text).mapError fun e => .misfit (.refused e.message)

def decode : Json.Decoder PackageKey := fun reading =>
  (Json.decodeText "a string" reading).bind ofWritten

end Provision.PackageKey
