/-!
# Texts that are not JSON

What can be wrong with the form of a JSON text.  A text that merely ends too early is told
apart from one that goes on in the wrong way.
-/

namespace Provision.Json

/-- A mistake in the form of a text. -/
inductive Defect
  | endInValue
  | endInString
  | endInArray
  | endInObject
  | missingColon
  | missingArraySeparator
  | missingObjectSeparator
  | misspelledWord
  | noValue
  | invalidEscape
  | invalidNumber
  | numberOutOfRange
  | controlCharacter
  | nameNotQuoted
  | loneSurrogate
  | unpairedSurrogate
  | trailingComma
  | trailingCharacters
  | notUnicode
deriving DecidableEq, Repr

namespace Defect

/-- Whether the text ended too early. -/
def isEnd : Defect → Bool
  | endInValue => true
  | endInString => true
  | endInArray => true
  | endInObject => true
  | _ => false

/-- The wording of a mistake. -/
def message : Defect → String
  | endInValue => "EOF while parsing a value"
  | endInString => "EOF while parsing a string"
  | endInArray => "EOF while parsing a list"
  | endInObject => "EOF while parsing an object"
  | missingColon => "expected `:`"
  | missingArraySeparator => "expected `,` or `]`"
  | missingObjectSeparator => "expected `,` or `\x7d`"
  | misspelledWord => "expected ident"
  | noValue => "expected value"
  | invalidEscape => "invalid escape"
  | invalidNumber => "invalid number"
  | numberOutOfRange => "number out of range"
  | controlCharacter => "control character (\\u0000-\\u001F) found while parsing a string"
  | nameNotQuoted => "key must be a string"
  | loneSurrogate => "lone leading surrogate in hex escape"
  | unpairedSurrogate => "unexpected end of hex escape"
  | trailingComma => "trailing comma"
  | trailingCharacters => "trailing characters"
  | notUnicode => "invalid unicode code point"

end Defect

end Provision.Json
