-- Why a text is no JSON, or not the JSON that was asked for, and where. Places
-- are lines and columns counted in bytes of UTF-8.
namespace ResponsiveCss.Json

/-! ## Reasons -/

/-- Why the reading of a JSON text stopped. -/
inductive Reason where
  | endInValue
  | endInObject
  | endInList
  | endInString
  | expectedValue
  | expectedIdent
  | expectedColon
  | expectedCommaOrBrace
  | expectedCommaOrBracket
  | keyMustBeString
  | trailingComma
  | trailingCharacters
  | invalidNumber
  | numberOutOfRange
  | invalidEscape
  | controlCharacter
  | endOfHexEscape
  | loneSurrogate
  | duplicateField (name : String)
  | invalidType (found expected : String)
deriving DecidableEq, Repr

/-- The wording of a reason. -/
def Reason.message : Reason → String
  | .endInValue => "EOF while parsing a value"
  | .endInObject => "EOF while parsing an object"
  | .endInList => "EOF while parsing a list"
  | .endInString => "EOF while parsing a string"
  | .expectedValue => "expected value"
  | .expectedIdent => "expected ident"
  | .expectedColon => "expected `:`"
  | .expectedCommaOrBrace => "expected `,` or `\x7d`"
  | .expectedCommaOrBracket => "expected `,` or `]`"
  | .keyMustBeString => "key must be a string"
  | .trailingComma => "trailing comma"
  | .trailingCharacters => "trailing characters"
  | .invalidNumber => "invalid number"
  | .numberOutOfRange => "number out of range"
  | .invalidEscape => "invalid escape"
  | .controlCharacter => "control character (\\u0000-\\u001F) found while parsing a string"
  | .endOfHexEscape => "unexpected end of hex escape"
  | .loneSurrogate => "lone leading surrogate in hex escape"
  | .duplicateField name => "duplicate field `" ++ name ++ "`"
  | .invalidType found expected => "invalid type: " ++ found ++ ", expected " ++ expected

/-! ## Failures -/

/-- A reason with the text that was not read and the number of its bytes that were looked at
all the same. -/
structure Failure where
  reason : Reason
  rest : List Char
  seen : Nat
deriving DecidableEq, Repr

namespace Failure

/-- The text ended. -/
def atEnd (reason : Reason) : Failure := ⟨reason, [], 0⟩

/-- The fault lies in front of the rest. -/
def before (reason : Reason) (rest : List Char) : Failure := ⟨reason, rest, 0⟩

/-- The fault is the next byte. -/
def next (reason : Reason) (rest : List Char) : Failure := ⟨reason, rest, 1⟩

end Failure

/-! ## Places -/

/-- The number of bytes of a text. -/
def byteLength (s : List Char) : Nat := s.foldr (fun c n => c.utf8Size + n) 0

/-- The line and column after so many bytes of a text, from the ones where it begins. Only
`\n` ends a line. -/
def placeAfter : Nat → Nat → Nat → List Char → Nat × Nat
  | _, line, column, [] => (line, column)
  | bytes, line, column, c :: s =>
    if bytes < c.utf8Size then (line, column + bytes)
    else if c = '\n' then placeAfter (bytes - 1) (line + 1) 0 s
    else placeAfter (bytes - c.utf8Size) line (column + c.utf8Size) s

/-- The wording of a failure in a text: the reason and the place. -/
def Failure.message (f : Failure) (text : List Char) : String :=
  let place := placeAfter (byteLength text - byteLength f.rest + f.seen) 1 0 text
  f.reason.message ++ " at line " ++ toString place.1 ++ " column " ++ toString place.2

/-! ## Blanks -/

/-- A blank between the parts of a JSON text. -/
def isBlank (c : Char) : Bool := c = ' ' || c = '\n' || c = '\t' || c = '\r'

/-- The text from its first character that is no blank. -/
def skipBlanks (s : List Char) : List Char := s.dropWhile isBlank

theorem length_skipBlanks_le (s : List Char) : (skipBlanks s).length ≤ s.length :=
  (List.dropWhile_sublist isBlank).length_le

end ResponsiveCss.Json
