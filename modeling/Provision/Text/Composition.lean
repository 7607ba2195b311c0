import Provision.Text.Decomposition

/-!
# Canonical composition

A text in composed form has as few characters as possible: each mark that can be joined with
the letter before it is.  All texts that are canonically the same have one composed form.
-/

namespace Provision.Text

/-- The character of two others in a row.  Nothing before U+0300 joins what stands before
it. -/
def join? (a b : Nat) : Option Nat :=
  if b < 0x300 then none
  else
    match Hangul.syllable? a b with
    | some n => some n
    | none =>
      composites.source? (parts a ++ [b])

/-- A text that is being composed. -/
structure Composing where
  /-- What is finished, the last first. -/
  finished : List Nat
  /-- The character that marks may still join, if there is one. -/
  base : Option Nat
  /-- The marks that did not join it, the last first. -/
  marks : List Nat

namespace Composing

/-- Before the first character. -/
def start : Composing := ⟨[], none, []⟩

/-- All that has been read. -/
def close (c : Composing) : List Nat :=
  c.marks ++ c.base.toList ++ c.finished

/-- Whether a mark between them keeps a character from the base. -/
def isBlocked (c : Composing) (n : Nat) : Bool :=
  match c.marks with
  | [] => false
  | m :: _ => combiningClass n ≤ combiningClass m

/-- Takes the next character. -/
def take (c : Composing) (n : Nat) : Composing :=
  let joined := if c.isBlocked n then none else c.base.bind fun b => join? b n
  match joined with
  | some whole => { c with base := some whole }
  | none =>
    if combiningClass n = 0 then ⟨c.close, some n, []⟩
    else { c with marks := n :: c.marks }

end Composing

/-- The composed form of a text. -/
def compose (text : List Nat) : List Nat :=
  ((decompose text).foldl Composing.take .start).close.reverse

end Provision.Text
