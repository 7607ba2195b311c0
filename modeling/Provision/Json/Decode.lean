import Provision.Json.Number
import Provision.Json.Reading
import Provision.Text.Quoted

/-!
# Decoding JSON

A decoder turns a reading into a value of the program.  It looks at the reading in the
order of the text and reports the first problem: a mistake in the form of the text, or a
value that does not fit what is expected (`Misfit`).

Structures are written as objects, whose members may come in any order and may be joined by
unknown ones, or as arrays of their members in a fixed order (`Record.decode`).  A name from
a fixed choice is written as a text, or as an object of one member with no value
(`decodeName`).
-/

namespace Provision.Json

/-- A value as it is called in a report. -/
inductive Found
  | null
  | bool (value : Bool)
  | integer (value : Int)
  | double (value : Float)
  | text (content : String)
  | array
  | object

/-- Why a well-formed value does not fit. -/
inductive Misfit
  | invalidType (found : Found) (expected : String)
  | invalidValue (value : Int) (expected : String)
  | invalidLength (length : Nat) (expected : String)
  | unknownName (name : String) (known : List String)
  | missingMember (name : String)
  | repeatedMember (name : String)
  /-- The value was refused by a rule of its own. -/
  | refused (reason : String)

/-- Why a text could not be decoded. -/
inductive ReadError
  | malformed (d : Defect)
  | misfit (m : Misfit)

namespace Found

/-- Names a value in a report. -/
def name : Found → String
  | null => "null"
  | bool true => "boolean `true`"
  | bool false => "boolean `false`"
  | integer value => s!"integer `{value}`"
  | double value => s!"floating point `{Decimal.floatText value}`"
  | text content => s!"string {Text.quote content}"
  | array => "sequence"
  | object => "map"

end Found

/-- Lists the choices of a report. -/
def listChoices : List String → String
  | [] => "there are no variants"
  | [a] => s!"expected `{a}`"
  | [a, b] => s!"expected `{a}` or `{b}`"
  | names => "expected one of " ++ ", ".intercalate (names.map fun name => s!"`{name}`")

/-- The wording of a misfit. -/
def Misfit.message : Misfit → String
  | invalidType found expected => s!"invalid type: {found.name}, expected {expected}"
  | invalidValue value expected => s!"invalid value: integer `{value}`, expected {expected}"
  | invalidLength length expected => s!"invalid length {length}, expected {expected}"
  | unknownName name known => s!"unknown variant `{name}`, " ++ listChoices known
  | missingMember name => s!"missing field `{name}`"
  | repeatedMember name => s!"duplicate field `{name}`"
  | refused reason => reason

/-- The wording of an error. -/
def ReadError.message : ReadError → String
  | malformed d => d.message
  | misfit m => m.message

/-- Decodes a reading. -/
abbrev Decoder (α : Type) := Reading → Except ReadError α

/-- Reports a mistake in the form of the text. -/
def wellFormed {α : Type} (e : Except Defect α) : Except ReadError α :=
  e.mapError .malformed

/-- Reports a value of another kind than expected. -/
def unexpected {α : Type} (expected : String) (reading : Reading) : Except ReadError α :=
  let misfit (found : Found) : Except ReadError α := .error (.misfit (.invalidType found expected))
  match reading with
  | .null => misfit .null
  | .bool b => misfit (.bool b)
  | .number n =>
    match n.value with
    | .error d => .error (.malformed d)
    | .ok (.natural n) => misfit (.integer n)
    | .ok (.negative n) => misfit (.integer (-(n : Int)))
    | .ok (.double f) => misfit (.double f)
  | .text (.ok s) => misfit (.text s)
  | .text (.error d) => .error (.malformed d)
  | .array .. => misfit .array
  | .object .. => misfit .object
  | .broken piece => .error (.malformed piece.asked)
  | .absent d => .error (.malformed d)

/-- Decodes a text. -/
def decodeText (expected : String := "a string") : Decoder String
  | .text content => wellFormed content
  | other => unexpected expected other

def decodeBool : Decoder Bool
  | .bool b => .ok b
  | other => unexpected "a boolean" other

/-- Decodes a whole number up to `most`. -/
def decodeNat (most : Nat) (expected : String) : Decoder Nat
  | .number numeral =>
    match numeral.value with
    | .ok (.natural n) =>
      if n ≤ most then .ok n else .error (.misfit (.invalidValue n expected))
    | .ok (.negative n) => .error (.misfit (.invalidValue (-(n : Int)) expected))
    | _ => unexpected expected (.number numeral)
  | other => unexpected expected other

def decodeUInt32 : Decoder UInt32 := fun reading =>
  (decodeNat (UInt32.size - 1) "u32" reading).map UInt32.ofNat

def decodeUInt64 (expected : String := "u64") : Decoder UInt64 := fun reading =>
  (decodeNat (UInt64.size - 1) expected reading).map UInt64.ofNat

/-- Decodes a value that may be null. -/
def decodeOption {α : Type} (decode : Decoder α) : Decoder (Option α)
  | .null => .ok none
  | other => (decode other).map some

/-- What is wrong with the end of an array that is read to its end. -/
def ArrayEnd.check : ArrayEnd → Except ReadError Unit
  | closed => .ok ()
  | inside => .ok ()
  | cut afterComma => .error (.malformed (if afterComma then .endInValue else .endInArray))
  | commaClosed => .error (.malformed .trailingComma)
  | unseparated => .error (.malformed .missingArraySeparator)

/-- What is wrong with the end of an array whose items have been read as far as they are
expected; `more` says whether there are more. -/
def ArrayEnd.checkLength (stop : ArrayEnd) (more : Bool) : Except ReadError Unit :=
  if more then .error (.malformed .trailingCharacters)
  else
    match stop with
    | closed => .ok ()
    | inside => .ok ()
    | cut true => .error (.malformed .trailingCharacters)
    | cut false => .error (.malformed .endInArray)
    | commaClosed => .error (.malformed .trailingComma)
    | unseparated => .error (.malformed .trailingCharacters)

/-- What is wrong with the end of an object. -/
def ObjectEnd.check : ObjectEnd → Except ReadError Unit
  | closed => .ok ()
  | inside => .ok ()
  | cut afterComma => .error (.malformed (if afterComma then .endInValue else .endInObject))
  | commaClosed => .error (.malformed .trailingComma)
  | unnamed => .error (.malformed .nameNotQuoted)
  | brokenName piece => .error (.malformed piece.asked)
  | unseparated => .error (.malformed .missingObjectSeparator)

/-- Decodes an array of any length. -/
def decodeList {α : Type} (decode : Decoder α) : Decoder (List α)
  | .array items stop => do
    let values ← items.mapM decode
    stop.check
    return values
  | other => unexpected "a sequence" other

/-- Decodes an object of any members, in the order of the text. -/
def decodeMembers {κ α : Type} (name : String → Except ReadError κ) (decode : Decoder α) :
    Decoder (List (κ × α))
  | .object members stop => do
    let entries ← members.mapM fun (written, value) => do
      let key ← name (← wellFormed written)
      return (key, ← decode value)
    stop.check
    return entries
  | other => unexpected "a map" other

/-- Finds a name among the known ones. -/
def knownName {α : Type} (ofName? : String → Option α) (known : List String) (name : String) :
    Except ReadError α :=
  match ofName? name with
  | some value => .ok value
  | none => .error (.misfit (.unknownName name known))

/-- Decodes a name from a fixed choice. -/
def decodeName {α : Type} (ofName? : String → Option α) (known : List String) : Decoder α
  | .text content => do knownName ofName? known (← wellFormed content)
  | .object [] stop =>
    match stop with
    | .cut _ => .error (.malformed .endInObject)
    | .brokenName piece => .error (.malformed piece.asked)
    | _ => .error (.malformed .noValue)
  | .object ((written, value) :: more) stop => do
    let name ← knownName ofName? known (← wellFormed written)
    match value with
    | .null => .ok ()
    | .absent d => .error (.malformed d)
    | other => unexpected "unit" other
    match more, stop with
    | [], .closed => .ok name
    | [], .cut false => .error (.malformed .endInObject)
    | _, _ => .error (.malformed .noValue)
  | .absent d => .error (.malformed d)
  | .broken piece => .error (.malformed (if piece.quoted then piece.asked else .noValue))
  | _ => .error (.malformed .noValue)

/-! ## Structures -/

/-- A member of a structure, decoded into a draft of the structure. -/
structure Member (δ : Type) where
  name : String
  /-- Whether the draft has the member. -/
  given : δ → Bool
  decode : Reading → δ → Except ReadError δ

/-- A member that is decoded and then put into the draft. -/
def Member.of {δ α : Type} (name : String) (get : δ → Option α) (set : δ → α → δ)
    (decode : Decoder α) : Member δ where
  name := name
  given draft := (get draft).isSome
  decode reading draft := (decode reading).map (set draft)

/-- How a structure is written. -/
structure Record (δ α : Type) where
  name : String
  members : List (Member δ)
  empty : δ
  /-- The structure of a draft, or the place of the first member that it lacks. -/
  build : δ → Except Nat α

namespace Record

variable {δ α : Type} (record : Record δ α)

/-- Takes a member of an object into a draft. -/
def takeMember (draft : δ) (entry : Quoted × Reading) : Except ReadError δ := do
  let name ← wellFormed entry.1
  match record.members.find? fun m => m.name = name with
  | none =>
    wellFormed entry.2.skip
    return draft
  | some m =>
    if m.given draft then throw (.misfit (.repeatedMember name))
    m.decode entry.2 draft

/-- Takes the items of an array into a draft, one member each. -/
def takeItems (draft : δ) : List (Member δ) → List Reading → ArrayEnd → Except ReadError δ
  | [], items, stop => do
    stop.checkLength !items.isEmpty
    return draft
  | _ :: _, [], stop => do
    stop.check
    return draft
  | m :: members, item :: items, stop => do
    takeItems (← m.decode item draft) members items stop

/-- Decodes a structure. -/
def decode : Decoder α
  | .object entries stop => do
    let draft ← entries.foldlM record.takeMember record.empty
    stop.check
    match record.build draft with
    | .ok value => return value
    | .error i =>
      throw (.misfit (.missingMember ((record.members.map Member.name).getD i "")))
  | .array items stop => do
    let draft ← takeItems record.empty record.members items stop
    match record.build draft with
    | .ok value => return value
    | .error i =>
      throw (.misfit (.invalidLength i
        s!"struct {record.name} with {record.members.length} elements"))
  | other => unexpected s!"struct {record.name}" other

end Record

/-- Decodes a whole text. -/
def decode {α : Type} (decoder : Decoder α) (cs : List Char) : Except ReadError α := do
  let (reading, rest) := Reading.ofText cs
  let value ← decoder reading
  if rest.isEmpty then return value
  else throw (.malformed .trailingCharacters)

end Provision.Json
