import Provision.Json.Defect
import Provision.Text

/-!
# The tokens of a JSON text

`tokens` cuts a text into tokens and ends with the first piece that is none.  A quoted text
whose escapes do not denote characters is a token all the same: it can be skipped, and only
whoever asks for the text learns what is wrong with it.  For the same reason a piece that is
no token (`Broken`) holds two mistakes, the one to report when its value is asked for and
the one to report when it is skipped.
-/

namespace Provision.Json

/-- A number as it is written. -/
structure Numeral where
  negative : Bool
  whole : List Char
  fraction : Option (List Char)
  /-- Whether the exponent is negative, and its digits. -/
  exponent : Option (Bool × List Char)
deriving DecidableEq, Repr

/-- A piece of text that is no token. -/
structure Broken where
  /-- Whether the piece starts with a quote. -/
  quoted : Bool
  /-- What is wrong for a reader who asks for the value. -/
  asked : Defect
  /-- What is wrong for a reader who skips the value. -/
  skipped : Defect
deriving DecidableEq, Repr

/-- The content of a quoted text, or what is wrong with its escapes. -/
abbrev Quoted := Except Defect String

/-- A token. -/
inductive Token
  | openArray
  | closeArray
  | openObject
  | closeObject
  | comma
  | colon
  | null
  | bool (value : Bool)
  | number (numeral : Numeral)
  | text (content : Quoted)
  | broken (piece : Broken)

/-! ## Quoted texts -/

/-- The content of a quoted text that has been read so far. -/
structure Content where
  /-- The characters, the last one first, or the first mistake. -/
  read : Except Defect (List Char)
  /-- The first half of a surrogate pair, while the second half is still to come. -/
  lead : Option Nat

namespace Content

/-- The content at the opening quote. -/
def start : Content := ⟨.ok [], none⟩

/-- Notes a mistake, unless there is an earlier one. -/
def fail (content : Content) (d : Defect) : Content :=
  { read := content.read.bind fun _ => .error d
    lead := none }

/-- A first half of a surrogate pair is followed by the escape of the second half and by
nothing else. -/
def endLead (content : Content) : Content :=
  match content.lead with
  | some _ => content.fail .unpairedSurrogate
  | none => content

/-- Adds a character. -/
def push (content : Content) (c : Char) : Content :=
  { read := content.endLead.read.map (c :: ·)
    lead := none }

/-- Adds what four hexadecimal digits denote: a character or half of a surrogate pair. -/
def pushUnit (content : Content) (unit : Nat) : Content :=
  match content.lead with
  | some lead =>
    if 0xDC00 ≤ unit ∧ unit < 0xE000 then
      { read := content.read.map
          (Char.ofNat (0x10000 + (lead - 0xD800) * 0x400 + (unit - 0xDC00)) :: ·)
        lead := none }
    else content.fail .loneSurrogate
  | none =>
    if 0xDC00 ≤ unit ∧ unit < 0xE000 then content.fail .loneSurrogate
    else if 0xD800 ≤ unit ∧ unit < 0xDC00 then { content with lead := some unit }
    else content.push (Char.ofNat unit)

/-- The mistake that a reader of the content reports when the text breaks off with `d`. -/
def mistake (content : Content) (d : Defect) : Defect :=
  match content.read with
  | .error earlier => earlier
  | .ok _ => d

/-- The whole content. -/
def close (content : Content) : Quoted :=
  content.endLead.read.map fun cs => String.ofList cs.reverse

end Content

/-- The value of four hexadecimal digits. -/
def unit? (a b c d : Char) : Option Nat := do
  return (((← Text.hexValue? a) * 16 + (← Text.hexValue? b)) * 16 + (← Text.hexValue? c)) * 16 +
    (← Text.hexValue? d)

/-- The character that a backslash and a letter or mark denote. -/
def unescape? (c : Char) : Option Char :=
  if c = '"' ∨ c = '\\' ∨ c = '/' then some c
  else if c = 'b' then some (Char.ofNat 8)
  else if c = 'f' then some (Char.ofNat 12)
  else if c = 'n' then some '\n'
  else if c = 'r' then some '\r'
  else if c = 't' then some '\t'
  else none

/-- What is wrong where fewer than four characters follow `\u`: the text ends too early if
fewer than four bytes follow. -/
def shortUnit (rest : List Char) : Defect :=
  if rest.foldl (fun size c => size + c.utf8Size) 0 < 4 then .endInString else .invalidEscape

/-- What follows an opening quote: a content with the text after it, or a broken piece. -/
inductive QuotedScan
  | closed (content : Quoted) (rest : List Char)
  | broken (piece : Broken)

/-- A quoted text that breaks off with `d`. -/
def breakOff (content : Content) (d : Defect) : QuotedScan :=
  .broken ⟨true, content.mistake d, d⟩

/-- Reads on in a quoted text. -/
def scanQuoted (content : Content) : List Char → QuotedScan
  | [] => breakOff content .endInString
  | '"' :: rest => .closed content.close rest
  | '\\' :: 'u' :: a :: b :: c :: d :: rest =>
    match unit? a b c d with
    | some unit => scanQuoted (content.pushUnit unit) rest
    | none => breakOff content .invalidEscape
  | '\\' :: 'u' :: rest => breakOff content (shortUnit rest)
  | ['\\'] => breakOff content .endInString
  | '\\' :: e :: rest =>
    match unescape? e with
    | some c => scanQuoted (content.push c) rest
    | none => breakOff content.endLead .invalidEscape
  | c :: rest =>
    if c.toNat < 0x20 then breakOff content.endLead .controlCharacter
    else scanQuoted (content.push c) rest

theorem length_scanQuoted {content : Content} {cs rest : List Char} {quoted : Quoted}
    (h : scanQuoted content cs = .closed quoted rest) : rest.length < cs.length := by
  fun_induction scanQuoted content cs <;> simp_all [breakOff] <;> omega

/-! ## Numbers -/

/-- What a number may turn out to be: a numeral with the text after it, or a broken
piece. -/
inductive NumberScan
  | read (numeral : Numeral) (rest : List Char)
  | broken (piece : Broken)

/-- A number that goes on in the wrong way, or not at all. -/
def breakNumber (rest : List Char) : NumberScan :=
  .broken ⟨false, if rest = [] then .endInValue else .invalidNumber, .invalidNumber⟩

/-- The digits at the start of a text. -/
def leadingDigits (cs : List Char) : List Char :=
  cs.takeWhile Char.isDigit

/-- The text after the digits at its start. -/
def afterDigits (cs : List Char) : List Char :=
  cs.dropWhile Char.isDigit

/-- Reads the sign of an exponent, if there is one: whether it is a minus, and the text
after it. -/
def scanSign : List Char → Bool × List Char
  | '+' :: rest => (false, rest)
  | '-' :: rest => (true, rest)
  | rest => (false, rest)

/-- Reads the exponent of a number, if there is one. -/
def scanExponent (negative : Bool) (whole : List Char) (fraction : Option (List Char))
    (cs : List Char) : NumberScan :=
  match cs with
  | e :: rest =>
    if e = 'e' ∨ e = 'E' then
      let signed := scanSign rest
      if leadingDigits signed.2 = [] then breakNumber signed.2
      else
        .read ⟨negative, whole, fraction, some (signed.1, leadingDigits signed.2)⟩
          (afterDigits signed.2)
    else .read ⟨negative, whole, fraction, none⟩ cs
  | [] => .read ⟨negative, whole, fraction, none⟩ cs

/-- Reads what follows the whole part of a number. -/
def scanFraction (negative : Bool) (whole cs : List Char) : NumberScan :=
  match cs with
  | '.' :: rest =>
    if leadingDigits rest = [] then breakNumber rest
    else scanExponent negative whole (some (leadingDigits rest)) (afterDigits rest)
  | _ => scanExponent negative whole none cs

/-- Reads a number after its sign.  A whole part of several digits starts with none that is
zero. -/
def scanNumber (negative : Bool) (cs : List Char) : NumberScan :=
  match leadingDigits cs with
  | [] => breakNumber cs
  | '0' :: _ :: _ => .broken ⟨false, .invalidNumber, .invalidNumber⟩
  | whole => scanFraction negative whole (afterDigits cs)

theorem length_afterDigits_le (cs : List Char) : (afterDigits cs).length ≤ cs.length :=
  (List.dropWhile_suffix _).length_le

theorem length_scanSign_le (cs : List Char) : (scanSign cs).2.length ≤ cs.length := by
  unfold scanSign
  split <;> simp

theorem length_scanExponent {negative : Bool} {whole : List Char} {fraction : Option (List Char)}
    {cs rest : List Char} {numeral : Numeral}
    (h : scanExponent negative whole fraction cs = .read numeral rest) :
    rest.length ≤ cs.length := by
  unfold scanExponent at h
  split at h
  · next e tail =>
    split at h
    · simp only at h
      split at h
      · simp [breakNumber] at h
      · have := length_afterDigits_le (scanSign tail).2
        have := length_scanSign_le tail
        simp only [NumberScan.read.injEq] at h
        obtain ⟨_, rfl⟩ := h
        simp only [List.length_cons]
        omega
    · simp_all
  · simp_all

theorem length_scanFraction {negative : Bool} {whole cs rest : List Char} {numeral : Numeral}
    (h : scanFraction negative whole cs = .read numeral rest) : rest.length ≤ cs.length := by
  unfold scanFraction at h
  split at h
  · next tail =>
    split at h
    · simp [breakNumber] at h
    · have := length_scanExponent h
      have := length_afterDigits_le tail
      simp only [List.length_cons]
      omega
  · exact length_scanExponent h

theorem length_scanNumber {negative : Bool} {cs rest : List Char} {numeral : Numeral}
    (h : scanNumber negative cs = .read numeral rest) : rest.length ≤ cs.length := by
  unfold scanNumber at h
  split at h
  · simp [breakNumber] at h
  · simp at h
  · have := length_scanFraction h
    have := length_afterDigits_le cs
    omega

/-- A number that starts with a digit takes at least that digit. -/
theorem length_scanNumber_lt {negative : Bool} {c : Char} {cs rest : List Char}
    {numeral : Numeral} (hc : c.isDigit)
    (h : scanNumber negative (c :: cs) = .read numeral rest) : rest.length < (c :: cs).length := by
  have drop : afterDigits (c :: cs) = afterDigits cs := by simp [afterDigits, hc]
  unfold scanNumber at h
  split at h
  · simp [breakNumber] at h
  · simp at h
  · have := length_scanFraction h
    have := length_afterDigits_le cs
    rw [drop] at *
    simp only [List.length_cons]
    omega

/-! ## All tokens -/

/-- Reads the rest of a word: the text after it, or what is wrong. -/
def scanWord : (expected cs : List Char) → Except Defect (List Char)
  | [], cs => .ok cs
  | _ :: _, [] => .error .endInValue
  | e :: expected, c :: cs => if c = e then scanWord expected cs else .error .misspelledWord

theorem length_scanWord {expected cs rest : List Char} (h : scanWord expected cs = .ok rest) :
    rest.length ≤ cs.length := by
  fun_induction scanWord expected cs <;> simp_all
  omega

/-- Blanks between tokens. -/
def isBlank (c : Char) : Bool :=
  c = ' ' ∨ c = '\n' ∨ c = '\t' ∨ c = '\r'

/-- The token of a single character. -/
def mark? (c : Char) : Option Token :=
  if c = '[' then some .openArray
  else if c = ']' then some .closeArray
  else if c = '\x7b' then some .openObject
  else if c = '\x7d' then some .closeObject
  else if c = ',' then some .comma
  else if c = ':' then some .colon
  else none

/-- The words, each by its first character. -/
def word? (c : Char) : Option (List Char × Token) :=
  if c = 'n' then some ("ull".toList, .null)
  else if c = 't' then some ("rue".toList, .bool true)
  else if c = 'f' then some ("alse".toList, .bool false)
  else none

/-- The tokens of a text, up to the first piece that is none. -/
def tokens : List Char → List Token
  | [] => []
  | c :: rest =>
    if isBlank c then tokens rest
    else
      match mark? c, word? c with
      | some token, _ => token :: tokens rest
      | none, some (expected, token) =>
        match _h : scanWord expected rest with
        | .ok after => token :: tokens after
        | .error d => [.broken ⟨false, d, d⟩]
      | none, none =>
        if c = '"' then
          match _h : scanQuoted .start rest with
          | .closed content after => .text content :: tokens after
          | .broken piece => [.broken piece]
        else if c = '-' then
          match _h : scanNumber true rest with
          | .read numeral after => .number numeral :: tokens after
          | .broken piece => [.broken piece]
        else if _hc : c.isDigit then
          match _h : scanNumber false (c :: rest) with
          | .read numeral after => .number numeral :: tokens after
          | .broken piece => [.broken piece]
        else [.broken ⟨false, .noValue, .noValue⟩]
termination_by cs => cs.length
decreasing_by
  · simp
  · simp
  · have := length_scanWord _h
    simp only [List.length_cons]
    omega
  · have := length_scanQuoted _h
    simp only [List.length_cons]
    omega
  · have := length_scanNumber _h
    simp only [List.length_cons]
    omega
  · exact length_scanNumber_lt _hc _h

end Provision.Json
