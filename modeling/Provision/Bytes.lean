/-!
# Bytes and UTF-8

File names and file contents are sequences of bytes.  Text is written in UTF-8;
reading marks every place where the bytes are not well formed, so a reader can
either refuse them (`Utf8.decode?`) or show a replacement character there
(`Utf8.decodeLossy`).
-/

namespace Provision

/-- A sequence of bytes. -/
abbrev Bytes := List UInt8

namespace Utf8

/-- The bytes of a text. -/
def encode (text : List Char) : Bytes :=
  text.flatMap String.utf8EncodeChar

/-- The bytes of a string. -/
def ofString (s : String) : Bytes :=
  encode s.toList

/-- Reads `n` continuation bytes, the first of them between `low` and `high`, into
a code point begun as `acc`.  Also gives what was not read. -/
def continuation : (n : Nat) → (low high : UInt8) → (acc : Nat) → Bytes → Option Nat × Bytes
  | 0, _, _, acc, bytes => (some acc, bytes)
  | _ + 1, _, _, _, [] => (none, [])
  | n + 1, low, high, acc, b :: bytes =>
    if low ≤ b ∧ b ≤ high then continuation n 0x80 0xBF (acc * 64 + (b.toNat - 0x80)) bytes
    else (none, b :: bytes)

theorem length_continuation_le (n : Nat) (low high : UInt8) (acc : Nat) (bytes : Bytes) :
    (continuation n low high acc bytes).2.length ≤ bytes.length := by
  induction n generalizing low high acc bytes with
  | zero => simp [continuation]
  | succ n ih =>
    cases bytes with
    | nil => simp [continuation]
    | cons b bytes =>
      unfold continuation
      split
      · exact Nat.le_trans (ih ..) (Nat.le_succ _)
      · exact Nat.le_refl _

/-- What a leading byte announces: how many bytes follow it, the range of the
first of them and the bits of the code point that the leading byte holds. -/
def lead? (b : UInt8) : Option (Nat × UInt8 × UInt8 × Nat) :=
  let n := b.toNat
  if n < 0x80 then some (0, 0, 0, n)
  else if n < 0xC2 then none
  else if n < 0xE0 then some (1, 0x80, 0xBF, n - 0xC0)
  else if n = 0xE0 then some (2, 0xA0, 0xBF, 0)
  else if n = 0xED then some (2, 0x80, 0x9F, 0xD)
  else if n < 0xF0 then some (2, 0x80, 0xBF, n - 0xE0)
  else if n = 0xF0 then some (3, 0x90, 0xBF, 0)
  else if n < 0xF4 then some (3, 0x80, 0xBF, n - 0xF0)
  else if n = 0xF4 then some (3, 0x80, 0x8F, 4)
  else none

/-- The characters of a sequence of bytes, `none` standing for each longest piece
that begins a character and cannot be finished. -/
def scan : Bytes → List (Option Char)
  | [] => []
  | b :: bytes =>
    match lead? b with
    | none => none :: scan bytes
    | some (n, low, high, bits) =>
      have := length_continuation_le n low high bits bytes
      (continuation n low high bits bytes).1.map Char.ofNat ::
        scan (continuation n low high bits bytes).2
termination_by bytes => bytes.length
decreasing_by
  · simp
  · simp; omega

/-- The text of well-formed bytes. -/
def decode? (bytes : Bytes) : Option (List Char) :=
  (scan bytes).mapM id

/-- The text of any bytes, a replacement character standing for each piece that is
not well formed. -/
def decodeLossy (bytes : Bytes) : List Char :=
  (scan bytes).map fun c => c.getD (Char.ofNat 0xFFFD)

/-- The text of any bytes as a string. -/
def toStringLossy (bytes : Bytes) : String :=
  String.ofList (decodeLossy bytes)

end Utf8

end Provision
