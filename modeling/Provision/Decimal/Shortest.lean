/-!
# Shortest decimals

A finite binary number `m * 2^q` is one point of a grid, and every real number near it
rounds to it.  `shortest` finds a decimal with as few digits as possible among those that
round to it, and of several with that number of digits the nearest; of two that are equally
near it takes the even one.

The search goes through the decimal grids from coarse to fine.  On each it looks at the two
neighbours of the number: if any decimal of the grid rounds to the number, one of these
does.
-/

namespace Provision.Decimal

/-- The number `digits * 10^exponent`. -/
structure Scientific where
  digits : Nat
  exponent : Int
deriving DecidableEq, Repr

/-- A fraction of natural numbers. -/
structure Ratio where
  num : Nat
  den : Nat

/-- The value `m * 2^q`. -/
def Ratio.ofBinary (m : Nat) (q : Int) : Ratio :=
  match q with
  | .ofNat n => ⟨m * Nat.pow 2 n, 1⟩
  | .negSucc n => ⟨m, Nat.pow 2 (n + 1)⟩

/-- A fraction times a power of ten. -/
def Ratio.scale (r : Ratio) (e : Int) : Ratio :=
  match e with
  | .ofNat n => ⟨r.num * Nat.pow 10 n, r.den⟩
  | .negSucc n => ⟨r.num, r.den * Nat.pow 10 (n + 1)⟩

/-- The number of decimal digits of the whole part. -/
def wholeDigits (r : Ratio) : Nat :=
  (Nat.toDigits 10 (r.num / r.den)).length

/-- The exponent `e` with `10^e ≤ r < 10^(e+1)`, for a positive `r` above `10^-400`. -/
def magnitude (r : Ratio) : Int :=
  if r.den ≤ r.num then (wholeDigits r : Int) - 1
  else
    match (List.range 400).find? fun j => r.den ≤ r.num * Nat.pow 10 (j + 1) with
    | some j => -((j : Int) + 1)
    | none => -400

/-- A positive binary number with the ends of the interval of numbers that round to it, all
three times four. -/
structure Interval where
  low : Ratio
  value : Ratio
  high : Ratio
  /-- Whether the ends themselves round to the number. -/
  closed : Bool

/-- The interval around `m * 2^q`.  Below a power of two the grid is twice as fine. -/
def Interval.around (m : Nat) (q : Int) (finerBelow : Bool) : Interval where
  low := Ratio.ofBinary (4 * m - if finerBelow then 1 else 2) q
  value := Ratio.ofBinary (4 * m) q
  high := Ratio.ofBinary (4 * m + 2) q
  closed := m % 2 = 0

/-- Whether the decimal `d * 10^e` lies in the interval. -/
def Interval.holds (i : Interval) (d : Nat) (e : Int) : Bool :=
  let low := i.low.scale (-e)
  let high := i.high.scale (-e)
  let above := compare low.num (4 * d * low.den)
  let below := compare (4 * d * high.den) high.num
  if i.closed then above.isLE && below.isLE else above.isLT && below.isLT

/-- Whether the whole number below `num / den` is the one to round to: it is nearer than the
one above, or equally near and even. -/
def roundsDown (num den : Nat) : Bool :=
  match compare (2 * (num % den)) den with
  | .lt => true
  | .eq => num / den % 2 = 0
  | .gt => false

/-- The decimal of the grid `10^e` that rounds to the number and is nearest to it, the even
one of two that are equally near. -/
def Interval.onGrid? (i : Interval) (e : Int) : Option Scientific :=
  let v := i.value.scale (-e)
  let d := v.num / (4 * v.den)
  match i.holds d e, i.holds (d + 1) e with
  | true, true => some ⟨if roundsDown v.num (4 * v.den) then d else d + 1, e⟩
  | true, false => some ⟨d, e⟩
  | false, true => some ⟨d + 1, e⟩
  | false, false => none

/-- A decimal without zeros at its end. -/
def Scientific.trim (s : Scientific) : Scientific :=
  if h : s.digits ≠ 0 ∧ s.digits % 10 = 0 then trim ⟨s.digits / 10, s.exponent + 1⟩ else s
termination_by s.digits
decreasing_by omega

/-- The shortest decimal that rounds to the positive number `m * 2^q`.  Seventeen digits are
enough for every double. -/
def shortest (m : Nat) (q : Int) (finerBelow : Bool) : Scientific :=
  let i := Interval.around m q finerBelow
  let top := magnitude (Ratio.ofBinary m q)
  match (List.range 17).findSome? fun (n : Nat) => i.onGrid? (top - (n : Int)) with
  | some s => s.trim
  | none => ⟨0, 0⟩

/-- The shortest decimal of the absolute value of a finite double. -/
def ofFloat (f : Float) : Scientific :=
  let bits := f.toBits.toNat % Nat.pow 2 63
  let biased := bits / Nat.pow 2 52
  let fraction := bits % Nat.pow 2 52
  if bits = 0 then ⟨0, 0⟩
  else if biased = 0 then shortest fraction (-1074) false
  else shortest (Nat.pow 2 52 + fraction) (Int.ofNat biased - 1075) (fraction = 0 && biased > 1)

end Provision.Decimal
