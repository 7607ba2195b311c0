import Provision.Text
import Provision.Web.Name
import Provision.Web.Percent

/-!
# Hosts

A host is given by a name or by a number.  A short number (`Ipv4`) is written in up to four
parts, each of them decimal, octal or hexadecimal; a name whose last label is a number is such
a number, and nothing else.  A long number (`Ipv6`) stands in brackets; it has eight parts of
four hexadecimal digits, and two colons stand for as many zeros as are missing.
-/

namespace Provision.Web

/-- The number that digits denote in a base, if they are digits of that base. -/
def numberIn? (base : Nat) (digits : List Char) : Option Nat :=
  digits.foldlM
    (fun n c => do
      let value ← Text.hexValue? c
      if value < base then some (base * n + value) else none)
    0

/-! ## Short numbers -/

/-- A number of thirty-two bits. -/
structure Ipv4 where
  value : UInt32
deriving DecidableEq, Repr

namespace Ipv4

/-- The number of a part. -/
def part? : List Char → Option Nat
  | [] => none
  | '0' :: c :: rest => if c = 'x' ∨ c = 'X' then numberIn? 16 rest else numberIn? 8 (c :: rest)
  | digits => numberIn? 10 digits

/-- The parts of a name.  A dot at the end separates nothing. -/
def parts (name : List Char) : List (List Char) :=
  let all := name.splitOn '.'
  if all.getLast? = some [] then all.dropLast else all

/-- Whether a name can only be a number. -/
def isMeant (name : List Char) : Bool :=
  match (parts name).getLast? with
  | some last => (last ≠ [] && last.all Char.isDigit) || (part? last).isSome
  | none => false

/-- Reads a number.  The last part fills all the bits that the parts before it leave. -/
def ofName? (name : List Char) : Option Ipv4 := do
  let numbers ← (parts name).mapM part?
  let last ← numbers.getLast?
  let high := numbers.dropLast
  if high.length < 4 ∧ high.all (· < 256) ∧ last < Nat.pow 256 (4 - high.length) then
    let shifted := high.foldl (fun n part => 256 * n + part) 0 * Nat.pow 256 (4 - high.length)
    some ⟨UInt32.ofNat (shifted + last)⟩
  else none

/-- Writes a number as four bytes. -/
def text (ip : Ipv4) : String :=
  let n := ip.value.toNat
  let byte (shift : Nat) : String := toString (n / Nat.pow 256 shift % 256)
  s!"{byte 3}.{byte 2}.{byte 1}.{byte 0}"

end Ipv4

/-! ## Long numbers -/

/-- A number of eight parts of sixteen bits. -/
structure Ipv6 where
  parts : List Nat
deriving DecidableEq, Repr

namespace Ipv6

/-- Reads a byte in decimal digits, without zeros in front. -/
def byte? (digits : List Char) : Option Nat := do
  let n ← numberIn? 10 digits
  if digits ≠ [] ∧ (digits.length = 1 ∨ digits.head? ≠ some '0') ∧ n < 256 then some n else none

/-- Reads four bytes, which are two parts. -/
def bytes? (text : List Char) : Option (List Nat) := do
  match ← (text.splitOn '.').mapM byte? with
  | [a, b, c, d] => some [256 * a + b, 256 * c + d]
  | _ => none

/-- Reads a part. -/
def part? (digits : List Char) : Option Nat :=
  if digits = [] ∨ 4 < digits.length then none else numberIn? 16 digits

/-- Reads parts with colons between them.  The last two may be four bytes, where
`endsInBytes` allows it. -/
def side? (endsInBytes : Bool) (text : List Char) : Option (List Nat) := do
  if text = [] then some []
  else
    let pieces := text.splitOn ':'
    let last := pieces.getLast?.getD []
    let high ← pieces.dropLast.mapM part?
    let low ← if endsInBytes && last.contains '.' then bytes? last else (part? last).map ([·])
    some (high ++ low)

/-- Reads a number. -/
def ofText? (text : List Char) : Option Ipv6 := do
  match Text.splitLast? "::".toList text with
  | some (before, after) =>
    let high ← side? false before
    let low ← side? true after
    let missing := 8 - (high.length + low.length)
    if 0 < missing then some ⟨high ++ List.replicate missing 0 ++ low⟩ else none
  | none =>
    let all ← side? true text
    if all.length = 8 then some ⟨all⟩ else none

/-- Where the longest row of zeros starts and how long it is, the first of several. -/
def longestZeros (parts : List Nat) : Nat × Nat :=
  (List.range parts.length).foldl
    (fun best start =>
      let length := ((parts.drop start).takeWhile (· = 0)).length
      if best.2 < length then (start, length) else best)
    (0, 0)

/-- Writes parts with colons between them. -/
def sideText (parts : List Nat) : String :=
  ":".intercalate (parts.map fun n => String.ofList (Nat.toDigits 16 n))

/-- Writes a number.  Two colons stand for the longest row of zeros, if that is more than
one. -/
def text (ip : Ipv6) : String :=
  let (start, length) := longestZeros ip.parts
  if length < 2 then sideText ip.parts
  else sideText (ip.parts.take start) ++ "::" ++ sideText (ip.parts.drop (start + length))

end Ipv6

/-! ## Hosts -/

/-- What is wrong with a host. -/
inductive HostError
  | empty
  | noName
  | noIpv4
  | noIpv6
deriving DecidableEq, Repr

/-- A host. -/
inductive Host
  | name (text : String)
  | ipv4 (ip : Ipv4)
  | ipv6 (ip : Ipv6)
deriving DecidableEq, Repr

namespace Host

/-- Reads a number in brackets, after the opening one. -/
def bracketed (text : List Char) : Except HostError Host :=
  match if text.getLast? = some ']' then Ipv6.ofText? text.dropLast else none with
  | some ip => .ok (.ipv6 ip)
  | none => .error .noIpv6

/-- Reads a host. -/
def ofText (text : List Char) : Except HostError Host :=
  match text with
  | [] => .error .empty
  | '[' :: rest => bracketed rest
  | _ =>
    match (Utf8.decode? (Percent.decode text)).bind Name.ascii? with
    | none => .error .noName
    | some [] => .error .empty
    | some ascii =>
      if Ipv4.isMeant ascii then
        match Ipv4.ofName? ascii with
        | some ip => .ok (.ipv4 ip)
        | none => .error .noIpv4
      else .ok (.name (String.ofList ascii))

/-- Writes a host. -/
def text : Host → String
  | .name text => text
  | .ipv4 ip => ip.text
  | .ipv6 ip => s!"[{ip.text}]"

end Host

end Provision.Web
