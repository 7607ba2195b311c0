import Provision.Failure
import Provision.Json.Decode
import Provision.Json.Value

/-!
# Error reports in JSON
-/

namespace Provision.ErrorReport

def toJson (r : ErrorReport) : Json :=
  .object [("code", .number r.code.toNat), ("message", .string r.message)]

/-- The members of a report that have been read. -/
structure Draft where
  code : Option UInt32 := none
  message : Option String := none

/-- How a report is written. -/
def record : Json.Record Draft ErrorReport where
  name := "ErrorReport"
  members :=
    [.of "code" Draft.code (fun d x => { d with code := some x }) Json.decodeUInt32,
      .of "message" Draft.message (fun d x => { d with message := some x }) Json.decodeText]
  empty := {}
  build
    | ⟨some code, some message⟩ => .ok ⟨code, message⟩
    | ⟨none, _⟩ => .error 0
    | ⟨some _, none⟩ => .error 1

def decode : Json.Decoder ErrorReport :=
  record.decode

end Provision.ErrorReport
