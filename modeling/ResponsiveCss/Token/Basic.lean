-- The tokens of CSS and the cutting of a text into them. Tokens keep their
-- text and their place, so a stretch of tokens is a stretch of the text.
import ResponsiveCss.Location
import ResponsiveCss.Text.Basic
import ResponsiveCss.Token.Parts

namespace ResponsiveCss

/-- The three pairs of brackets. -/
inductive Bracket where
  | round
  | square
  | curly
deriving DecidableEq, Repr

/-- What a token is. A `call` is a name with its opening parenthesis, and a `comparison` one of the
signs of two characters that compare an attribute with a text, such as `~=`. -/
inductive Token.Kind where
  | space
  | comment
  | semicolon
  | colon
  | comma
  | opening (b : Bracket)
  | closing (b : Bracket)
  | call
  | atKeyword
  | ident
  | hash
  | number
  | percentage
  | dimension
  | string
  | badString
  | url
  | badUrl
  | commentOpen
  | commentClose
  | comparison
  | delim
deriving DecidableEq, Repr

/-- Tokens of this kind are out of place anywhere: broken strings and urls, and brackets that
close nothing. -/
def Token.Kind.isFault : Token.Kind → Bool
  | .badString | .badUrl | .closing _ => true
  | _ => false

/-- A token: what it is, the text it covers and where that text begins. -/
structure Token where
  kind : Token.Kind
  text : List Char
  start : Location
deriving DecidableEq, Repr

namespace Token

/-- The place right after the token. -/
def stop (t : Token) : Location := t.start.after t.text

/-! ## What begins here -/

/-- A name, a call of a name, or an unquoted url. -/
def nameLike (s : List Char) : Kind × Nat :=
  let n := nameLength s
  match s.drop n with
  | '(' :: inside =>
    if Text.sameLetters (unescape (s.take n)) ['u', 'r', 'l'] then
      match url? inside with
      | none => (.call, n + 1)
      | some e => (if e.good then .url else .badUrl, n + 1 + e.length)
    else (.call, n + 1)
  | _ => (.ident, n)

/-- A number, alone or with a percent sign or a unit. -/
def numeric (s : List Char) : Kind × Nat :=
  let n := numberLength s
  match s.drop n with
  | '%' :: _ => (.percentage, n + 1)
  | rest => if startsName rest then (.dimension, n + nameLength rest) else (.number, n)

/-- A string, from the text after its opening quote. -/
def quoted (quote : Char) (s : List Char) : Kind × Nat :=
  let e := stringAfter quote 0 s
  (if e.good then .string else .badString, e.length + 1)

/-- A `#` with a name, or alone. -/
def hashLike (s : List Char) : Kind × Nat :=
  if startsName s || (match s with | c :: _ => c = '-' || c.isDigit | [] => false) then
    (.hash, nameLength s + 1)
  else (.delim, 1)

/-- A comparison, or a lone character. -/
def sign : List Char → Kind × Nat
  | c :: s =>
    if s.head? = some '=' && ['~', '|', '^', '$', '*'].contains c then (.comparison, 2)
    else (.delim, 1)
  | [] => (.delim, 1)

/-- What none of the fixed characters begins: a number, `-->`, a name or a sign. -/
def numberOrName (s : List Char) : Kind × Nat :=
  if numberLength s ≠ 0 then numeric s
  else if ['-', '-', '>'].isPrefixOf s then (.commentClose, 3)
  else if startsName s then nameLike s
  else sign s

/-- The kind and the length of the token that begins with `c` and goes on in `s`. -/
def lead (c : Char) (s : List Char) : Kind × Nat :=
  match c with
  | '"' => quoted '"' s
  | '\'' => quoted '\'' s
  | '(' => (.opening .round, 1)
  | ')' => (.closing .round, 1)
  | '[' => (.opening .square, 1)
  | ']' => (.closing .square, 1)
  | '{' => (.opening .curly, 1)
  | '}' => (.closing .curly, 1)
  | ',' => (.comma, 1)
  | ':' => (.colon, 1)
  | ';' => (.semicolon, 1)
  | '#' => hashLike s
  | '@' => if startsName s then (.atKeyword, nameLength s + 1) else (.delim, 1)
  | '/' => if s.head? = some '*' then (.comment, commentLength (s.drop 1) + 2) else (.delim, 1)
  | '<' => if ['!', '-', '-'].isPrefixOf s then (.commentOpen, 4) else (.delim, 1)
  | _ => if isSpace c then (.space, spacesLength s + 1) else numberOrName (c :: s)

/-! ## The tokens of a text -/

/-- The tokens of a text that begins at `l`, where the first `skip` characters belong to the
token before. -/
def listAfter : Location → Nat → List Char → List Token
  | _, _, [] => []
  | l, skip + 1, _ :: s => listAfter l skip s
  | l, 0, c :: s =>
    let text := (c :: s).take (lead c s).2
    ⟨(lead c s).1, text, l⟩ :: listAfter (l.after text) ((lead c s).2 - 1) s

/-- The tokens of a text. -/
def ofText (s : List Char) : List Token := listAfter .start 0 s

/-! ## What a token says -/

/-- The name of an at-keyword. -/
def keyword (t : Token) : String := String.ofList (unescape (t.text.drop 1))

/-- The name that an identifier is. -/
def identName (t : Token) : List Char := unescape t.text

/-- The name behind the sign of a hash. -/
def hashName (t : Token) : List Char := unescape (t.text.drop 1)

/-- The name before the parenthesis of a call. -/
def callName (t : Token) : List Char := unescape t.text.dropLast

/-- The numeral of a number, a percentage or a dimension. -/
def numeral (t : Token) : List Char := t.text.take (numberLength t.text)

/-- The unit of a dimension. -/
def unitName (t : Token) : List Char := unescape (t.text.drop (numberLength t.text))

/-- The inside of a comment, which may lack its end. -/
def commentBody (t : Token) : List Char :=
  let body := t.text.drop 2
  (['*', '/'].isSuffixOf? body).getD body

end Token

end ResponsiveCss
