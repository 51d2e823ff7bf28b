-- The parts that CSS tokens are made of, and how far each reaches: white space,
-- names with their escapes, numbers, and what is read as a whole, namely
-- strings, comments and unquoted urls. Also names as they are written, with an
-- escape for every character that would not be read as a part of the name.
namespace ResponsiveCss.Token

/-! ## Classes of characters

White space in CSS is a smaller set than the blank characters of Unicode. -/

/-- A line break. -/
def isLineBreak (c : Char) : Bool := c = '\n' || c = '\r' || c = '\x0c'

/-- White space between tokens. -/
def isSpace (c : Char) : Bool := c = ' ' || c = '\t' || isLineBreak c

/-- A character that may begin a name. -/
def isNameStart (c : Char) : Bool :=
  c.isAlpha || c = '_' || c = '\x00' || 0x80 ≤ c.toNat

/-- A character that may stand inside a name. -/
def isNamePart (c : Char) : Bool := isNameStart c || c.isDigit || c = '-'

/-- The value of a hexadecimal digit. -/
def hexValue? (c : Char) : Option Nat :=
  if '0' ≤ c && c ≤ '9' then some (c.toNat - '0'.toNat)
  else if 'a' ≤ c && c ≤ 'f' then some (c.toNat - 'a'.toNat + 10)
  else if 'A' ≤ c && c ≤ 'F' then some (c.toNat - 'A'.toNat + 10)
  else none

/-- A control character that no unquoted `url(…)` may hold. -/
def isUnprintable (c : Char) : Bool :=
  let n := c.toNat
  (0x01 ≤ n && n ≤ 0x08) || n = 0x0B || (0x0E ≤ n && n ≤ 0x1F) || n = 0x7F

/-- The text goes on with a line break. -/
def startsLineBreak : List Char → Bool
  | c :: _ => isLineBreak c
  | [] => false

/-- How much one white-space character takes here: `\r\n` counts as one, none takes nothing. -/
def spaceLength : List Char → Nat
  | '\r' :: '\n' :: _ => 2
  | c :: _ => if isSpace c then 1 else 0
  | [] => 0

/-- How much the run of white space takes here. -/
def spacesLength (s : List Char) : Nat := (s.takeWhile isSpace).length

/-! ## Escapes -/

/-- The hexadecimal digits of an escape, after its backslash: six at most. -/
def escapeDigits (s : List Char) : List Nat :=
  ((s.take 6).takeWhile fun c => (hexValue? c).isSome).filterMap hexValue?

/-- How much an escape takes after its backslash. -/
def escapeLength (s : List Char) : Nat :=
  match (escapeDigits s).length with
  | 0 => min 1 s.length
  | n => n + spaceLength (s.drop n)

/-- What stands for a character that cannot be had. -/
def replacement : Char := '\uFFFD'

/-- The character with this code point; zero, surrogates and too large numbers have none. -/
def charOf (n : Nat) : Char :=
  if n = 0 || !n.isValidChar then replacement else Char.ofNat n

/-- The character that an escape means, from the text after its backslash. -/
def escapedChar (s : List Char) : Char :=
  match escapeDigits s with
  | [] =>
    match s with
    | [] => replacement
    | c :: _ => charOf c.toNat
  | digits => charOf (digits.foldl (fun n d => 16 * n + d) 0)

/-! ## How far a name reaches -/

/-- The text begins with a name. A hyphen begins one only before another hyphen, a
backslash or a character that does. -/
def startsName : List Char → Bool
  | '-' :: c :: _ => c = '-' || c = '\\' || isNameStart c
  | '\\' :: s => !startsLineBreak s
  | c :: _ => isNameStart c
  | [] => false

/-- How much of the text belongs to a name, where the first `skip` characters are part of
an escape and so belong to it in any case. -/
def nameLengthAfter : Nat → List Char → Nat
  | _, [] => 0
  | skip + 1, _ :: s => nameLengthAfter skip s + 1
  | 0, c :: s =>
    if isNamePart c then nameLengthAfter 0 s + 1
    else if c = '\\' && !startsLineBreak s then nameLengthAfter (escapeLength s) s + 1
    else 0

/-- How much of the text belongs to a name. -/
def nameLength (s : List Char) : Nat := nameLengthAfter 0 s

/-! ## What a name says -/

/-- The name with its escapes resolved, where the first `skip` characters are done. -/
def unescapeAfter : Nat → List Char → List Char
  | _, [] => []
  | skip + 1, _ :: s => unescapeAfter skip s
  | 0, c :: s =>
    if c = '\\' then escapedChar s :: unescapeAfter (escapeLength s) s
    else charOf c.toNat :: unescapeAfter 0 s

/-- The name with its escapes resolved. -/
def unescape (s : List Char) : List Char := unescapeAfter 0 s

/-! ## Names as they are written -/

/-- An escape with hexadecimal digits, in lower case, and the space that ends it. -/
def hexEscape (c : Char) : List Char := '\\' :: Nat.toDigits 16 c.toNat ++ [' ']

/-- A character inside a name. -/
def nameChar (c : Char) : List Char :=
  if c = '\x00' then [replacement]
  else if isNamePart c then [c]
  else if c < ' ' || c = '\x7f' then hexEscape c
  else ['\\', c]

/-- What stands behind the beginning of a name. -/
def nameText (s : List Char) : List Char := s.flatMap nameChar

/-- The beginning of a name, where a digit would begin a number. -/
def afterHyphen : List Char → List Char
  | c :: s => (if c.isDigit then hexEscape c else nameChar c) ++ nameText s
  | [] => []

/-- A name on its own. -/
def identText : List Char → List Char
  | '-' :: '-' :: s => '-' :: '-' :: nameText s
  | ['-'] => ['\\', '-']
  | '-' :: s => '-' :: afterHyphen s
  | s => afterHyphen s

/-! ## Numbers

An optional sign, digits, a point with digits, an exponent. Each part takes its characters only
if it is complete. -/

/-- How much a sign takes here. -/
def signLength : List Char → Nat
  | c :: _ => if c = '+' || c = '-' then 1 else 0
  | [] => 0

/-- How much the run of digits takes here. -/
def digitsLength (s : List Char) : Nat := (s.takeWhile Char.isDigit).length

/-- How much a point with at least one digit takes here. -/
def fractionLength : List Char → Nat
  | c :: s => if c = '.' && digitsLength s ≠ 0 then digitsLength s + 1 else 0
  | [] => 0

/-- How much an exponent with at least one digit takes here. -/
def exponentLength : List Char → Nat
  | c :: s =>
    let sign := signLength s
    let digits := digitsLength (s.drop sign)
    if (c = 'e' || c = 'E') && digits ≠ 0 then digits + sign + 1 else 0
  | [] => 0

/-- How much a number takes here; nothing if no number begins here. -/
def numberLength (s : List Char) : Nat :=
  let sign := signLength s
  let whole := digitsLength (s.drop sign)
  let fraction := fractionLength (s.drop (sign + whole))
  if whole + fraction = 0 then 0
  else
    let mantissa := sign + whole + fraction
    mantissa + exponentLength (s.drop mantissa)

/-! ## Texts read as a whole -/

/-- How far a text reaches, and whether it is well formed. -/
structure Extent where
  length : Nat
  good : Bool
deriving DecidableEq, Repr

/-- The extent that begins `n` characters earlier. -/
def Extent.grow (n : Nat) (e : Extent) : Extent := ⟨e.length + n, e.good⟩

/-! ### Strings -/

/-- How much a backslash takes with it in a string: a line break, which then is no part of
the string, or an escape. -/
def stringEscapeLength (s : List Char) : Nat :=
  if startsLineBreak s then spaceLength s else escapeLength s

/-- The rest of a string after `skip` characters that belong to it. It ends with its quote or
with the text; a line break before that spoils it and is left out. -/
def stringAfter (quote : Char) : Nat → List Char → Extent
  | _, [] => ⟨0, true⟩
  | skip + 1, _ :: s => (stringAfter quote skip s).grow 1
  | 0, c :: s =>
    if c = quote then ⟨1, true⟩
    else if isLineBreak c then ⟨0, false⟩
    else if c = '\\' then (stringAfter quote (stringEscapeLength s) s).grow 1
    else (stringAfter quote 0 s).grow 1

/-! ### Comments -/

/-- How far a comment reaches after its opening: through `*/`, or to the end. -/
def commentLength : List Char → Nat
  | '*' :: '/' :: _ => 2
  | _ :: s => commentLength s + 1
  | [] => 0

/-! ### Unquoted urls -/

/-- How far a spoiled url reaches: through the next parenthesis without a backslash. -/
def badUrlLength : List Char → Nat
  | ')' :: _ => 1
  | '\\' :: ')' :: s => badUrlLength s + 2
  | '\\' :: '\\' :: s => badUrlLength s + 2
  | _ :: s => badUrlLength s + 1
  | [] => 0

/-- The end of a url after white space: only the closing parenthesis may follow. -/
def urlEnd : List Char → Extent
  | [] => ⟨0, true⟩
  | c :: s =>
    if isSpace c then (urlEnd s).grow 1
    else if c = ')' then ⟨1, true⟩
    else ⟨badUrlLength s + 1, false⟩

/-- The rest of a url after `skip` characters that belong to it. -/
def urlAfter : Nat → List Char → Extent
  | _, [] => ⟨0, true⟩
  | skip + 1, _ :: s => (urlAfter skip s).grow 1
  | 0, c :: s =>
    if c = ')' then ⟨1, true⟩
    else if isSpace c then urlEnd (c :: s)
    else if c = '"' || c = '\'' || c = '(' || isUnprintable c ||
        (c = '\\' && startsLineBreak s) then
      ⟨badUrlLength s + 1, false⟩
    else if c = '\\' then (urlAfter (escapeLength s) s).grow 1
    else (urlAfter 0 s).grow 1

/-- What follows `url(`, unless it is a quoted text: white space may come first. -/
def url? (s : List Char) : Option Extent :=
  let spaces := spacesLength s
  match s.drop spaces with
  | '"' :: _ => none
  | '\'' :: _ => none
  | rest => some ((urlAfter 0 rest).grow spaces)

end ResponsiveCss.Token
