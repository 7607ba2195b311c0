import Provision.Text

/-!
# Writing JSON

`Json` is what the program writes: the members of an object stay in the order they are
given in.  A value has one compact text, and one laid out over lines, two spaces for each
level.
-/

namespace Provision

/-- A value to be written. -/
inductive Json
  | null
  | bool (value : Bool)
  | number (value : Nat)
  | string (value : String)
  | array (items : List Json)
  | object (members : List (String × Json))

namespace Json

/-- How a character is written inside of quotes: quotes, backslashes and control
characters are escaped, all else stands for itself. -/
def escape (c : Char) : List Char :=
  if c = '"' then ['\\', '"']
  else if c = '\\' then ['\\', '\\']
  else if c = '\n' then ['\\', 'n']
  else if c = '\r' then ['\\', 'r']
  else if c = '\t' then ['\\', 't']
  else if c.toNat = 8 then ['\\', 'b']
  else if c.toNat = 12 then ['\\', 'f']
  else if c.toNat < 0x20 then
    ['\\', 'u', '0', '0', Text.hexDigit (c.toNat / 16), Text.hexDigit (c.toNat % 16)]
  else [c]

/-- A text in quotes. -/
def quote (s : String) : List Char :=
  '"' :: (s.toList.flatMap escape ++ ['"'])

mutual

/-- The compact text of a value. -/
def compact : Json → List Char
  | null => "null".toList
  | bool true => "true".toList
  | bool false => "false".toList
  | number n => (toString n).toList
  | string s => quote s
  | array items => '[' :: compactItems items
  | object members => '\x7b' :: compactMembers members

/-- The items of an array with the bracket that ends it. -/
def compactItems : List Json → List Char
  | [] => [']']
  | [item] => compact item ++ [']']
  | item :: rest => compact item ++ ',' :: compactItems rest

/-- The members of an object with the brace that ends it. -/
def compactMembers : List (String × Json) → List Char
  | [] => ['\x7d']
  | [member] => compactMember member ++ ['\x7d']
  | member :: rest => compactMember member ++ ',' :: compactMembers rest

/-- A member of an object. -/
def compactMember : String × Json → List Char
  | (name, value) => quote name ++ ':' :: compact value

end

/-- The start of a line at a given level. -/
def newline (level : Nat) : List Char :=
  '\n' :: List.replicate (2 * level) ' '

mutual

/-- The text of a value over lines, its own line being at `level`. -/
def pretty (level : Nat) : Json → List Char
  | array [] => ['[', ']']
  | array (item :: rest) => '[' :: newline (level + 1) ++ prettyItems level (item :: rest)
  | object [] => ['\x7b', '\x7d']
  | object (member :: rest) => '\x7b' :: newline (level + 1) ++ prettyMembers level (member :: rest)
  | null => compact null
  | bool b => compact (bool b)
  | number n => compact (number n)
  | string s => compact (string s)

/-- The items of an array at `level` with the bracket that ends it. -/
def prettyItems (level : Nat) : List Json → List Char
  | [] => [']']
  | [item] => pretty (level + 1) item ++ newline level ++ [']']
  | item :: rest => pretty (level + 1) item ++ ',' :: newline (level + 1) ++ prettyItems level rest

/-- The members of an object at `level` with the brace that ends it. -/
def prettyMembers (level : Nat) : List (String × Json) → List Char
  | [] => ['\x7d']
  | [member] => prettyMember level member ++ newline level ++ ['\x7d']
  | member :: rest =>
    prettyMember level member ++ ',' :: newline (level + 1) ++ prettyMembers level rest

/-- A member of an object at `level`. -/
def prettyMember (level : Nat) : String × Json → List Char
  | (name, value) => quote name ++ ':' :: ' ' :: pretty (level + 1) value

end

/-- The compact text of a value as a string. -/
def toCompactString (value : Json) : String :=
  String.ofList value.compact

/-- The text of a value over lines as a string. -/
def toPrettyString (value : Json) : String :=
  String.ofList (value.pretty 0)

end Json

end Provision
