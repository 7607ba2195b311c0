import Provision.Bytes
import Provision.Text

/-!
# Percent signs in addresses

An address has only some of the characters of ASCII.  What else it is to hold is written byte
by byte, a percent sign and two hexadecimal digits each: `é` becomes `%C3%A9`.  Which
characters of ASCII are written in this way depends on the part of the address (`Part`).
-/

namespace Provision.Web

/-- A part of an address. -/
inductive Part
  | user
  | path
  | query
  | fragment
deriving DecidableEq, Repr

/-- The visible characters of ASCII that are not written as themselves. -/
def Part.marks : Part → List Char
  | .fragment => ['"', '<', '>', Char.ofNat 0x60]
  | .query => ['"', '#', '<', '>', Char.ofNat 0x27]
  | .path => ['"', '<', '>', Char.ofNat 0x60, '#', '?', '\x7b', '\x7d']
  | .user =>
    ['"', '<', '>', Char.ofNat 0x60, '#', '?', '\x7b', '\x7d', '/', ':', ';', '=', '@', '[', '\\',
      ']', Char.ofNat 0x5E, '|']

/-- Whether a character is written as itself. -/
def Part.isPlain (part : Part) (c : Char) : Bool :=
  0x20 < c.toNat && c.toNat < 0x7F && !part.marks.contains c

namespace Percent

/-- A byte by its number. -/
def ofByte (b : UInt8) : List Char :=
  let digit (n : Nat) : Char := (Text.hexDigit n).toUpper
  ['%', digit (b.toNat / 16), digit (b.toNat % 16)]

/-- Writes a text. -/
def encode (part : Part) (text : List Char) : List Char :=
  text.flatMap fun c =>
    if part.isPlain c then [c] else (String.utf8EncodeChar c).flatMap ofByte

/-- Reads bytes.  A percent sign without two digits behind it stands for itself. -/
def decode : List Char → Bytes
  | '%' :: a :: b :: rest =>
    match Text.hexValue? a, Text.hexValue? b with
    | some high, some low => UInt8.ofNat (16 * high + low) :: decode rest
    | _, _ => UInt8.ofNat 0x25 :: decode (a :: b :: rest)
  | c :: rest => String.utf8EncodeChar c ++ decode rest
  | [] => []

end Percent

end Provision.Web
