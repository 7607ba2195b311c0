import Provision.Json.Decode
import Provision.Json.Value
import Provision.Version.Basic

/-!
# Versions in JSON

A version is written as its text.
-/

namespace Provision.Version

def toJson (v : Version) : Json :=
  .string v.toString

def decode : Json.Decoder Version := fun reading =>
  (Json.decodeText "a string" reading).map ofString

end Provision.Version
