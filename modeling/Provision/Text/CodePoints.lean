import Provision.Text

/-!
# Tables of code points

Properties of characters are tables of code points.  A table is written as a text of entries
with blanks or line breaks between them, and all numbers in it are hexadecimal:

* a set (`CodePoints`) has spans in rising order, `41-5a` or `aa`;
* a replacement table (`Replacements`) says what stands for a code point, `fb01:66.69`.  In
  `41-5a:61` the last code point of the replacement goes up with the one that is replaced,
  and `100~12e:101` speaks of every second code point only.
-/

namespace Provision.Text

/-- The number that hexadecimal digits denote. -/
def hexNumber (digits : List Char) : Nat :=
  digits.foldl (fun n c => 16 * n + (hexValue? c).getD 0) 0

/-- The entries of a table. -/
def entries (text : String) : List (List Char) :=
  (text.toList.splitOnP Char.isWhitespace).filter fun entry => !entry.isEmpty

/-- Neighbouring code points. -/
structure Span where
  first : Nat
  last : Nat
deriving DecidableEq, Repr

namespace Span

/-- Whether a code point is one of the span. -/
def holds (span : Span) (n : Nat) : Bool :=
  span.first ≤ n && n ≤ span.last

/-- Reads a span with a mark between its ends, or a single code point. -/
def ofText (mark : Char) (text : List Char) : Span :=
  match text.splitOn mark with
  | [first, last] => ⟨hexNumber first, hexNumber last⟩
  | _ => ⟨hexNumber text, hexNumber text⟩

end Span

/-- A set of code points, as spans in rising order. -/
structure CodePoints where
  spans : List Span

namespace CodePoints

/-- Reads a set. -/
def ofText (text : String) : CodePoints where
  spans := (entries text).map (Span.ofText '-')

/-- Whether a code point is in a set.  The search ends at the first span that does not lie
below it. -/
def holds (set : CodePoints) (n : Nat) : Bool :=
  match set.spans.find? fun span => n ≤ span.last with
  | some span => span.first ≤ n
  | none => false

end CodePoints

/-- What stands for the code points of a span. -/
structure Replacement where
  span : Span
  /-- The distance between the code points that are replaced. -/
  step : Nat
  /-- What stands for the first one. -/
  target : List Nat

namespace Replacement

/-- A list of code points with the last one raised. -/
def raise (distance : Nat) : List Nat → List Nat
  | [] => []
  | [n] => [n + distance]
  | n :: rest => n :: raise distance rest

/-- What stands for a code point. -/
def image? (r : Replacement) (n : Nat) : Option (List Nat) :=
  if r.span.holds n ∧ (n - r.span.first) % r.step = 0 then
    some (raise (n - r.span.first) r.target)
  else none

/-- The code point that a list stands for. -/
def source? (r : Replacement) (whole : List Nat) : Option Nat :=
  match whole.getLast?, r.target.getLast? with
  | some last, some low =>
    let n := r.span.first + (last - low)
    if r.image? n = some whole then some n else none
  | _, _ => none

/-- Reads the code points of a replacement. -/
def targetOfText (text : List Char) : List Nat :=
  (text.splitOn '.').map hexNumber

/-- Reads a replacement.  A row of another form replaces nothing. -/
def ofText (text : List Char) : Replacement :=
  match text.splitOn ':' with
  | [source, target] =>
    let alternate := source.contains '~'
    { span := Span.ofText (if alternate then '~' else '-') source
      step := if alternate then 2 else 1
      target := targetOfText target }
  | _ => ⟨⟨0, 0⟩, 1, [0]⟩

end Replacement

/-- What stands for code points. -/
structure Replacements where
  rows : List Replacement

namespace Replacements

/-- Reads a table. -/
def ofText (text : String) : Replacements where
  rows := (entries text).map Replacement.ofText

/-- What stands for a code point that is replaced. -/
def find? (table : Replacements) (n : Nat) : Option (List Nat) :=
  table.rows.findSome? fun r => r.image? n

/-- The code point that a list stands for. -/
def source? (table : Replacements) (whole : List Nat) : Option Nat :=
  table.rows.findSome? fun r => r.source? whole

end Replacements

end Provision.Text
