import Provision.Json.Token

/-!
# What a reader finds in a JSON text

A `Reading` is a text as a tree, as far as it can be read.  Where the text goes wrong the
tree stops, and the place where it stops says how the text goes on there.  So a reader who
walks the tree in the order of the text meets what the text says before it meets what is
wrong with it.

`read` turns tokens into a tree.  It keeps the arrays and objects that are open in a stack;
each of its steps takes a token.
-/

namespace Provision.Json

/-- How the items of an array end. -/
inductive ArrayEnd
  | closed
  /-- The text ends, perhaps after a comma. -/
  | cut (afterComma : Bool)
  /-- A comma is followed by the closing bracket. -/
  | commaClosed
  /-- Something other than a comma or a closing bracket follows. -/
  | unseparated
  /-- The last item stops. -/
  | inside
deriving DecidableEq, Repr

/-- How the members of an object end. -/
inductive ObjectEnd
  | closed
  /-- The text ends, perhaps after a comma. -/
  | cut (afterComma : Bool)
  /-- A comma is followed by the closing brace. -/
  | commaClosed
  /-- Something other than a text stands where a name should be. -/
  | unnamed
  /-- A name breaks off. -/
  | brokenName (piece : Broken)
  /-- Something other than a comma or a closing brace follows. -/
  | unseparated
  /-- The last member stops. -/
  | inside

/-- A text as far as it can be read. -/
inductive Reading
  | null
  | bool (value : Bool)
  | number (numeral : Numeral)
  | text (content : Quoted)
  | array (items : List Reading) (stop : ArrayEnd)
  | object (members : List (Quoted × Reading)) (stop : ObjectEnd)
  /-- A piece that is no token stands where a value should be. -/
  | broken (piece : Broken)
  /-- There is no value. -/
  | absent (d : Defect)

namespace Reading

/-- An array or object that is open, with what it holds so far, the last first. -/
inductive Frame
  | item (before : List Reading)
  | member (before : List (Quoted × Reading)) (name : Quoted)

/-- Ends all that is open around a reading that stops. -/
def stopIn (reading : Reading) (frames : List Frame) : Reading × List Token :=
  (frames.foldl
    (fun inner frame =>
      match frame with
      | .item before => array (inner :: before).reverse .inside
      | .member before name => object ((name, inner) :: before).reverse .inside)
    reading, [])

mutual

/-- Reads a value. -/
def readValue : List Token → List Frame → Reading × List Token
  | [], frames => stopIn (absent .endInValue) frames
  | .null :: rest, frames => readOn null rest frames
  | .bool b :: rest, frames => readOn (bool b) rest frames
  | .number n :: rest, frames => readOn (number n) rest frames
  | .text t :: rest, frames => readOn (text t) rest frames
  | [.openArray], frames => stopIn (array [] (.cut false)) frames
  | .openArray :: .closeArray :: rest, frames => readOn (array [] .closed) rest frames
  | .openArray :: rest, frames => readValue rest (.item [] :: frames)
  | .openObject :: .closeObject :: rest, frames => readOn (object [] .closed) rest frames
  | .openObject :: rest, frames => readName [] rest frames
  | .broken piece :: _, frames => stopIn (broken piece) frames
  | _ :: _, frames => stopIn (broken ⟨false, .noValue, .noValue⟩) frames

/-- Reads the name of a member and begins its value. -/
def readName (before : List (Quoted × Reading)) : List Token → List Frame → Reading × List Token
  | [], frames => stopIn (object before.reverse (.cut !before.isEmpty)) frames
  | .text name :: .colon :: rest, frames => readValue rest (.member before name :: frames)
  | [.text name], frames =>
    stopIn (object ((name, absent .endInObject) :: before).reverse .inside) frames
  | .text name :: _, frames =>
    stopIn (object ((name, absent .missingColon) :: before).reverse .inside) frames
  | .closeObject :: _, frames => stopIn (object before.reverse .commaClosed) frames
  | .broken piece :: _, frames =>
    let stop : ObjectEnd := if piece.quoted then .brokenName piece else .unnamed
    stopIn (object before.reverse stop) frames
  | _ :: _, frames => stopIn (object before.reverse .unnamed) frames

/-- Goes on after a value. -/
def readOn (value : Reading) : List Token → List Frame → Reading × List Token
  | rest, [] => (value, rest)
  | [], .item before :: frames => stopIn (array (value :: before).reverse (.cut false)) frames
  | [.comma], .item before :: frames =>
    stopIn (array (value :: before).reverse (.cut true)) frames
  | .comma :: .closeArray :: _, .item before :: frames =>
    stopIn (array (value :: before).reverse .commaClosed) frames
  | .comma :: rest, .item before :: frames => readValue rest (.item (value :: before) :: frames)
  | .closeArray :: rest, .item before :: frames =>
    readOn (array (value :: before).reverse .closed) rest frames
  | _ :: _, .item before :: frames =>
    stopIn (array (value :: before).reverse .unseparated) frames
  | [], .member before name :: frames =>
    stopIn (object ((name, value) :: before).reverse (.cut false)) frames
  | .comma :: rest, .member before name :: frames =>
    readName ((name, value) :: before) rest frames
  | .closeObject :: rest, .member before name :: frames =>
    readOn (object ((name, value) :: before).reverse .closed) rest frames
  | _ :: _, .member before name :: frames =>
    stopIn (object ((name, value) :: before).reverse .unseparated) frames

end

/-- Reads a text: its first value, and the tokens after it. -/
def ofText (cs : List Char) : Reading × List Token :=
  readValue (tokens cs) []

mutual

/-- Skips a value.  Only its form matters: a skipped number may be of any size, and the
escapes of a skipped text need not denote characters. -/
def skip : Reading → Except Defect Unit
  | null => .ok ()
  | bool _ => .ok ()
  | number _ => .ok ()
  | text _ => .ok ()
  | broken piece => .error piece.skipped
  | absent d => .error d
  | array items stop => do
    skipItems items
    match stop with
    | .closed => .ok ()
    | .inside => .ok ()
    | .cut afterComma => .error (if afterComma then .endInValue else .endInArray)
    | .commaClosed => .error .noValue
    | .unseparated => .error .missingArraySeparator
  | object members stop => do
    skipMembers members
    match stop with
    | .closed => .ok ()
    | .inside => .ok ()
    | .cut _ => .error .endInObject
    | .commaClosed => .error .nameNotQuoted
    | .unnamed => .error .nameNotQuoted
    | .brokenName piece => .error piece.skipped
    | .unseparated => .error .missingObjectSeparator

/-- Skips the items of an array. -/
def skipItems : List Reading → Except Defect Unit
  | [] => .ok ()
  | item :: rest => do
    skip item
    skipItems rest

/-- Skips the members of an object. -/
def skipMembers : List (Quoted × Reading) → Except Defect Unit
  | [] => .ok ()
  | member :: rest => do
    skipMember member
    skipMembers rest

/-- Skips a member of an object. -/
def skipMember : Quoted × Reading → Except Defect Unit
  | (_, value) => skip value

end

end Reading

end Provision.Json
