-- Positions among siblings: every `a`-th of them, beginning with the `b`-th,
-- as `an+b`.
import ResponsiveCss.Component
import ResponsiveCss.Value.Number

namespace ResponsiveCss.Minified

open Value

/-- The positions `a * n + b` for all `n` from zero on. -/
structure Position where
  a : Int
  b : Int
deriving DecidableEq, Repr

namespace Position

/-! ## Reading -/

/-- The whole number that a component is, and whether it has a sign. -/
def whole? : Component → Option (Int × Bool)
  | .token _ t =>
    if t.kind = .number && isWhole t.numeral then
      some (wholeNumeral t.numeral, t.numeral.head? = some '+' || t.numeral.head? = some '-')
    else none
  | .group .. => none

/-- The position whose `b` comes now, without a sign of its own. -/
def unsigned? (a sign : Int) : List Component → Option (Position × List Component)
  | [] => none
  | c :: cs =>
    match whole? c with
    | some (b, false) => some (⟨a, sign * b⟩, cs)
    | _ => none

/-- The position whose `b` may come now, with a sign. -/
def signed? (a : Int) : List Component → Option (Position × List Component)
  | [] => some (⟨a, 0⟩, [])
  | c :: cs =>
    if c.isDelim '+' then unsigned? a 1 cs
    else if c.isDelim '-' then unsigned? a (-1) cs
    else
      match whole? c with
      | some (b, true) => some (⟨a, b⟩, cs)
      | _ => some (⟨a, 0⟩, c :: cs)

/-- What follows the `a` of a position: the letter `n`, and perhaps the beginning of `b`, or all
of it. -/
def behind? (a : Int) (name : List Char) (cs : List Component) :
    Option (Position × List Component) :=
  match name.map Char.toLower with
  | ['n'] => signed? a cs
  | ['n', '-'] => unsigned? a (-1) cs
  | 'n' :: '-' :: digits =>
    if digits.all Char.isDigit then some (⟨a, wholeNumeral ('-' :: digits)⟩, cs) else none
  | _ => none

/-- A position that begins with a name. -/
def named? (name : List Char) (cs : List Component) : Option (Position × List Component) :=
  if Text.sameLetters name "even".toList then some (⟨2, 0⟩, cs)
  else if Text.sameLetters name "odd".toList then some (⟨2, 1⟩, cs)
  else
    match name with
    | '-' :: name => behind? (-1) name cs
    | name => behind? 1 name cs

/-- A position that begins with a number, or with a number that has a name for its unit. -/
def numbered? (t : Token) (cs : List Component) : Option (Position × List Component) :=
  if !isWhole t.numeral then none
  else if t.kind = .number then some (⟨0, wholeNumeral t.numeral⟩, cs)
  else if t.kind = .dimension then behind? (wholeNumeral t.numeral) t.unitName cs
  else none

/-- A position and the components behind it. -/
def read? : List Component → Option (Position × List Component)
  | [] => none
  | c :: cs =>
    match c.name?, c with
    | some name, _ => named? name cs
    | none, .token _ t =>
      if c.isDelim '+' then
        match cs with
        | d :: cs => if d.spaced then none else d.name?.bind fun name => behind? 1 name cs
        | [] => none
      else numbered? t cs
    | none, .group .. => none

/-! ## Writing -/

/-- A number with its sign. -/
def signedText (n : Int) : List Char :=
  if n < 0 then (toString n).toList else '+' :: (toString n).toList

/-- A position in its shortest form. -/
def text (p : Position) : List Char :=
  let steps :=
    if p.a = 1 then ['n'] else if p.a = -1 then ['-', 'n'] else (toString p.a).toList ++ ['n']
  if p.a = 0 then (toString p.b).toList
  else if p.b = 0 then steps
  else if p.a = 2 && p.b = 1 then "odd".toList
  else steps ++ signedText p.b

end Position

end ResponsiveCss.Minified
