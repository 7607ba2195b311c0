import Provision.Bytes
import Provision.Text.LowerCase

/-!
# Asking before changes are made

Lines are read one after another, until one can be understood: an empty line or `y` goes ahead,
`n` does not.  If the input ends before, or a line is no text, nothing is changed.  What stands
after the line that decides is left unread.
-/

namespace Provision.CommandLine

/-- What a line says. -/
inductive Answer
  | yes
  | no
  | unclear
deriving DecidableEq, Repr

namespace Answer

/-- The characters that count as blank. -/
def isBlank (c : Char) : Bool :=
  let n := c.toNat
  (0x09 ≤ n && n ≤ 0x0D) || n = 0x20 || n = 0x85 || n = 0xA0 || n = 0x1680 ||
    (0x2000 ≤ n && n ≤ 0x200A) || n = 0x2028 || n = 0x2029 || n = 0x202F || n = 0x205F ||
    n = 0x3000

/-- A text without the blanks around it. -/
def trim (text : List Char) : List Char :=
  ((text.dropWhile isBlank).reverse.dropWhile isBlank).reverse

/-- What a word in lower case says. -/
def ofWord : List Char → Answer
  | [] => yes
  | ['y'] => yes
  | ['n'] => no
  | _ => unclear

/-- What a text says. -/
def ofText (text : List Char) : Answer :=
  ofWord (Text.lowerCase (trim text))

/-- What a line of input says, if it is a text. -/
def ofLine? (line : Bytes) : Option Answer :=
  (Utf8.decode? line).map ofText

end Answer

namespace Prompt

/-- What is asked. -/
def question : String := "Commit changes? [(y)/n] "

/-- What is shown when a line is unclear. -/
def complaint : String := "\nInput invalid.\n"

/-- What is shown when nobody answers. -/
def farewell : String := "\n"

/-- The byte that ends a line. -/
def lineBreak : UInt8 := 0x0A

/-- The next line of an input, with the line break that ends it, and what is left unread.  At the
end of the input there is none. -/
def readLine? : Bytes → Option (Bytes × Bytes)
  | [] => none
  | b :: rest =>
    if b = lineBreak then some ([b], rest)
    else
      match readLine? rest with
      | none => some ([b], [])
      | some (line, unread) => some (b :: line, unread)

theorem length_lt_of_readLine? {input line unread : Bytes}
    (h : readLine? input = some (line, unread)) : unread.length < input.length := by
  induction input generalizing line unread with
  | nil => cases h
  | cons b rest ih =>
    rw [readLine?] at h
    split at h
    · cases h
      exact Nat.lt_succ_self _
    · cases hrest : readLine? rest with
      | none =>
        rw [hrest] at h
        cases h
        exact Nat.succ_pos _
      | some cut =>
        rw [hrest] at h
        cases h
        exact Nat.lt_succ_of_lt (ih hrest)

/-- Whether to go ahead, what has been shown on the way there, and what is left unread. -/
structure Decision where
  goesAhead : Bool
  shown : String
  unread : Bytes
deriving DecidableEq, Repr

/-- Asking, under way. -/
structure Asking where
  /-- What has been shown since the question. -/
  shown : String
  unread : Bytes

namespace Asking

/-- Asking, at the question. -/
def begin (input : Bytes) : Asking := ⟨"", input⟩

/-- What an answer leads to: an unclear one to asking again, any other to a decision.  Nobody
answers where there is none. -/
def hear (s : Asking) : Option Answer → Asking ⊕ Decision
  | none => .inr ⟨false, s.shown ++ farewell, s.unread⟩
  | some .yes => .inr ⟨true, s.shown, s.unread⟩
  | some .no => .inr ⟨false, s.shown, s.unread⟩
  | some .unclear => .inl { s with shown := s.shown ++ complaint }

theorem unread_of_hear {s s' : Asking} {answer : Option Answer} (h : s.hear answer = .inl s') :
    s'.unread = s.unread := by
  match answer, h with
  | some .unclear, rfl => rfl

/-- Reads a line and hears what it says. -/
def turn (s : Asking) : Asking ⊕ Decision :=
  match readLine? s.unread with
  | none => s.hear none
  | some (line, unread) => { s with unread }.hear (Answer.ofLine? line)

/-- Asking again takes another line. -/
theorem length_lt_of_turn {s s' : Asking} (h : s.turn = .inl s') :
    s'.unread.length < s.unread.length := by
  rw [turn] at h
  split at h
  · cases h
  · rename_i line unread hline
    rw [unread_of_hear h]
    exact length_lt_of_readLine? hline

/-- Asks until there is a decision. -/
def settle (s : Asking) : Decision :=
  match _ : s.turn with
  | .inl s' => settle s'
  | .inr decision => decision
termination_by s.unread.length
decreasing_by exact length_lt_of_turn ‹_›

end Asking

/-- Asks whether to go ahead. -/
def confirm (input : Bytes) : Decision :=
  (Asking.begin input).settle

end Prompt

end Provision.CommandLine
