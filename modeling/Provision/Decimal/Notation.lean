import Provision.Decimal.Shortest

/-!
# Writing decimals

Numbers of moderate size are written with a point and always with a digit behind it, very
large and very small ones with an exponent that always has its sign.
-/

namespace Provision.Decimal

/-- When a decimal is written without exponent. -/
structure Layout where
  /-- The largest number of digits before the point. -/
  mostWhole : Int
  /-- The largest number of zeros between the point and the first digit. -/
  mostZeros : Int

/-- Up to sixteen digits before the point and up to four zeros behind it are written out. -/
def layout : Layout := ⟨16, 4⟩

/-- An exponent with its sign. -/
def exponentText (e : Int) : String :=
  if 0 ≤ e then s!"+{e}" else toString e

/-- Writes a decimal. -/
def Scientific.text (s : Scientific) : String :=
  let digits := Nat.toDigits 10 s.digits
  let count := digits.length
  let point := (count : Int) + s.exponent
  if s.digits = 0 then "0.0"
  else if 0 ≤ s.exponent ∧ point ≤ layout.mostWhole then
    String.ofList (digits ++ List.replicate s.exponent.toNat '0') ++ ".0"
  else if 0 < point ∧ point ≤ layout.mostWhole then
    String.ofList (digits.take point.toNat) ++ "." ++ String.ofList (digits.drop point.toNat)
  else if -layout.mostZeros ≤ point ∧ point ≤ 0 then
    "0." ++ String.ofList (List.replicate (-point).toNat '0' ++ digits)
  else
    let mantissa :=
      if count = 1 then String.ofList digits
      else String.ofList (digits.take 1) ++ "." ++ String.ofList (digits.drop 1)
    mantissa ++ "e" ++ exponentText (point - 1)

/-- Writes a finite double. -/
def floatText (f : Float) : String :=
  (if f.toBits.toNat < Nat.pow 2 63 then "" else "-") ++ (ofFloat f).text

end Provision.Decimal
