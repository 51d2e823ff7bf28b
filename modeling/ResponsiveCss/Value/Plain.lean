-- Values that are not understood. They are written token by token, with white
-- space only where it may matter.
import ResponsiveCss.Value.Color
import ResponsiveCss.Value.Quantity

namespace ResponsiveCss.Value

open Token

/-- The content of a string behind its opening quote, after `skip` characters that are done. A
line break behind a backslash does not count. -/
def stringBody (quote : Char) : Nat → List Char → List Char
  | _, [] => []
  | skip + 1, _ :: s => stringBody quote skip s
  | 0, c :: s =>
    if c = quote then []
    else if c = '\\' then
      if s = [] || startsLineBreak s then stringBody quote (spaceLength s) s
      else escapedChar s :: stringBody quote (escapeLength s) s
    else charOf c.toNat :: stringBody quote 0 s

/-- A character inside a string. -/
def stringChar (c : Char) : List Char :=
  if c = '"' || c = '\\' then ['\\', c]
  else if c < ' ' || c = '\x7f' then hexEscape c
  else [c]

/-- A string between double quotes. -/
def stringText (s : List Char) : List Char := '"' :: s.flatMap stringChar ++ ['"']

/-- The content of a string token. -/
def stringContent (t : Token) : List Char := stringBody (t.text.headD '"') 0 t.text.tail

/-- A percentage that no property understands keeps its sign, the zero before its point, and a
sign that it is not whole. -/
def plainPercentage (numeral : List Char) : List Char :=
  let n := (numeralValue numeral / 100).toFloat32 * 100
  let size := Decimal.sizeText n
  let sign :=
    if n < 0 || (n == 0 && 1 / n < 0) then ['-'] else if numeral.head? = some '+' then ['+'] else []
  sign ++ size ++ (if isWhole numeral || !size.all Char.isDigit then [] else ['.', '0']) ++ ['%']

/-- The text of a token in a value. -/
def plainToken (t : Token) : List Char :=
  match t.kind with
  | .ident => identText t.identName
  | .number => numberText (numeralValue t.numeral).toFloat32
  | .percentage => plainPercentage t.numeral
  | .dimension =>
    match Quantity.length? t with
    | some q => q.text true
    | none => Quantity.withUnit (numeralValue t.numeral).toFloat32 t.unitName
  | .string => stringText (stringContent t)
  | .hash =>
    match Color.ofDigits? t.hashName with
    | some c => c.text
    | none => '#' :: nameText t.hashName
  | .atKeyword => '@' :: identText t.keyword.toList
  | .delim => if t.text = ['+'] || t.text = ['-'] then ' ' :: t.text ++ [' '] else t.text
  | _ => t.text

/-! ## Calls with a meaning of their own -/

/-- The words that are no names that an author may choose. -/
def reservedWords : List String :=
  ["initial", "inherit", "unset", "default", "revert", "revert-layer"]

/-- A name that an author may choose. -/
def customName? (c : Component) : Option (List Char) :=
  c.name?.filter fun name => !reservedWords.any fun w => Text.sameLetters w.toList name

/-- The name begins with two hyphens. -/
def isDashed (name : List Char) : Bool := ['-', '-'].isPrefixOf name

/-- Nothing, or a comma and anything. -/
def isFallback : List Component → Bool
  | [] => true
  | c :: _ => c.isToken .comma

/-- What a reference to a custom property holds: its name, and perhaps a value for want of it. -/
def isReference : List Component → Bool
  | [] => false
  | c :: cs => c.name?.any isDashed && isFallback cs

/-- The component is a whole number. -/
def isWholeNumber : Component → Bool
  | .token _ t => t.kind = .number && isWhole t.numeral
  | .group .. => false

/-- What a reference to the surroundings holds: a name, whole numbers, and perhaps a value for
want of it. -/
def isSurrounding : List Component → Bool
  | [] => false
  | c :: cs => (customName? c).isSome && isFallback (cs.dropWhile isWholeNumber)

/-- The call of a function in a value makes sense, as far as the name of the function says what
it needs. -/
def isFitCall (name : List Char) (inside : List Component) : Bool :=
  if name = "var".toList then isReference inside
  else if name = "env".toList then isSurrounding inside
  else if name = "url".toList then
    match inside with
    | [c] => c.isToken .string
    | _ => false
  else true

/-! ## Components in a row -/

/-- The component takes the place of white space next to it. -/
def gluesBefore : Component → Bool
  | .token _ t => t.kind = .delim || t.kind = .comma
  | .group .. => false

/-- No white space is needed behind the component. -/
def gluesBehind : Component → Bool
  | .token _ t => t.kind = .delim || t.kind = .comma
  | .group .. => true

/-- The character that closes the group of an opening token. -/
def closing (t : Token) : Char :=
  match t.kind with
  | .opening .square => ']'
  | .opening .curly => '\x7d'
  | _ => ')'

/-- The text of an opening token. -/
def openingText (t : Token) : List Char :=
  if t.kind = .call then identText t.callName ++ ['('] else t.text

mutual

/-- A component without the white space in front of it. -/
def plainPart? : Component → Option (List Char)
  | .token _ t => if t.kind.isFault then none else some (plainToken t)
  | .group _ opening inside =>
    if opening.kind = .call && !isFitCall opening.callName inside then none
    else (plainParts? true inside).map fun s => openingText opening ++ s ++ [closing opening]

/-- Components in a row; `glued` says that white space in front of the first is not needed. -/
def plainParts? (glued : Bool) : List Component → Option (List Char)
  | [] => some []
  | c :: cs =>
    match plainPart? c, plainParts? (gluesBehind c) cs with
    | some s, some more =>
      some ((if c.spaced && !glued && !gluesBefore c then [' '] else []) ++ s ++ more)
    | _, _ => none

end

/-- A value that is not understood. An empty one keeps its white space. -/
def plain? (cs : List Component) : Option (List Char) :=
  if cs.isEmpty then some [' '] else plainParts? true cs

end ResponsiveCss.Value
