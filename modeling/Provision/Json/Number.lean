import Provision.Decimal.Notation
import Provision.Json.Token

/-!
# The value of a number

A number without point and exponent that fits into 64 bits is a whole number; every other
one is a double, and so is `-0`.  The digits of a double are collected as long as they fit
into 64 bits, and the rest only counts for the exponent; the collected number and the power
of ten are rounded each on its own before they are multiplied or divided.
-/

namespace Provision.Json

/-- What a number denotes. -/
inductive NumberValue
  | natural (n : Nat)
  /-- The number `-n`, for a positive `n`. -/
  | negative (n : Nat)
  | double (f : Float)

namespace Numeral

/-- The digits of a number that have been collected, with the power of ten they stand
before. -/
structure Collected where
  significand : Nat
  exponent : Int

/-- The value of a digit. -/
def digitValue (c : Char) : Nat :=
  c.toNat - '0'.toNat

/-- The largest number of 64 bits. -/
def most : Nat := UInt64.size - 1

/-- Takes a digit of the whole part.  Once a digit does not fit, it and the ones after it
only count for the exponent. -/
def takeWhole (collected : Collected) (c : Char) : Collected :=
  let more := collected.significand * 10 + digitValue c
  if collected.exponent = 0 ∧ more ≤ most then ⟨more, 0⟩
  else ⟨collected.significand, collected.exponent + 1⟩

/-- Takes the digits of the fraction, up to the first that does not fit. -/
def takeFraction (collected : Collected) : List Char → Collected
  | [] => collected
  | c :: rest =>
    let more := collected.significand * 10 + digitValue c
    if more ≤ most then takeFraction ⟨more, collected.exponent - 1⟩ rest else collected

/-- The power of ten `10^n` as a double. -/
def powerOfTen (n : Nat) : Float :=
  Float.ofScientific 1 false n

/-- Divides by a power of ten in steps that are doubles. -/
def divide (f : Float) (n : Nat) : Float :=
  if _h : n ≤ 308 then f / powerOfTen n
  else if f == 0 then f
  else divide (f / powerOfTen 308) (n - 308)
termination_by n
decreasing_by omega

/-- The double of collected digits. -/
def Collected.toFloat (collected : Collected) : Except Defect Float :=
  let f := Float.ofScientific collected.significand false 0
  match collected.exponent with
  | .negSucc n => .ok (divide f (n + 1))
  | .ofNat n =>
    if n ≤ 308 then
      let f := f * powerOfTen n
      if f.isInf then .error .numberOutOfRange else .ok f
    else if f == 0 then .ok f
    else .error .numberOutOfRange

/-- The number that a numeral denotes. -/
def value (numeral : Numeral) : Except Defect NumberValue :=
  let collected := numeral.whole.foldl takeWhole ⟨0, 0⟩
  let whole := numeral.fraction.isNone && numeral.exponent.isNone && collected.exponent = 0
  if whole && !numeral.negative then .ok (.natural collected.significand)
  else if whole && 0 < collected.significand && collected.significand ≤ Nat.pow 2 63 then
    .ok (.negative collected.significand)
  else
    let collected := takeFraction collected (numeral.fraction.getD [])
    let exponent :=
      match numeral.exponent with
      | none => 0
      | some (minus, digits) =>
        let n := digits.foldl (fun n c => n * 10 + digitValue c) 0
        if minus then -(n : Int) else n
    (Collected.toFloat ⟨collected.significand, collected.exponent + exponent⟩).map fun f =>
      .double (if numeral.negative then -f else f)

end Numeral

end Provision.Json
