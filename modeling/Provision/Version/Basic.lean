import Provision.Text

/-!
# Versions

A version is a text with an epoch in front of it.  The epoch is written only when
it is not zero, `2:1.4` for text `1.4` in epoch 2, and only a run of digits before
the first colon is one: `v1:2` is a version text without epoch.
-/

namespace Provision

/-- A version of a package. -/
structure Version where
  /-- Compared before the text. -/
  epoch : UInt32
  /-- The version without its epoch. -/
  text : String
deriving DecidableEq, Repr

namespace Version

/-- The value of a run of decimal digits. -/
def digitsValue (digits : List Char) : Nat :=
  digits.foldl (fun n d => n * 10 + (d.toNat - '0'.toNat)) 0

/-- The epoch that a run of digits denotes; one too large for an epoch is the
largest epoch. -/
def epochOfDigits (digits : List Char) : UInt32 :=
  UInt32.ofNat (min (digitsValue digits) (UInt32.size - 1))

/-- Reads a version.  Every text is one. -/
def ofString (s : String) : Version :=
  match Text.splitFirst? ':' s.toList with
  | some (digits, rest) =>
    if digits ≠ [] ∧ digits.all Char.isDigit then ⟨epochOfDigits digits, String.ofList rest⟩
    else ⟨0, s⟩
  | none => ⟨0, s⟩

/-- Writes a version. -/
def toString (v : Version) : String :=
  if v.epoch = 0 then v.text
  else s!"{v.epoch.toNat}:{v.text}"

instance : ToString Version := ⟨toString⟩

end Version

end Provision
