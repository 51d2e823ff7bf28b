-- Numbers with a unit: lengths, percentages, angles and times. Two of them can
-- be compared and added if they have a unit in common.
import ResponsiveCss.Token.Basic
import ResponsiveCss.Token.Parts
import ResponsiveCss.Value.Number

namespace ResponsiveCss.Value

open Token

/-! ## Units -/

/-- The units that are a fixed number of pixels. -/
def absoluteUnits : List (String × Float32) :=
  [("px", 1), ("in", 96), ("cm", 96 / 2.54), ("mm", 96 / 2.54 / 10), ("q", 96 / 2.54 / 40),
    ("pt", 96 / 72), ("pc", 96 / 6)]

/-- The units that depend on a font or on what holds the element. -/
def relativeUnits : List String :=
  ["em", "rem", "ex", "rex", "ch", "rch", "cap", "rcap", "ic", "ric", "lh", "rlh", "vw", "lvw",
    "svw", "dvw", "cqw", "vh", "lvh", "svh", "dvh", "cqh", "vi", "svi", "lvi", "dvi", "cqi", "vb",
    "svb", "lvb", "dvb", "cqb", "vmin", "svmin", "lvmin", "dvmin", "cqmin", "vmax", "svmax",
    "lvmax", "dvmax", "cqmax"]

/-- The units of angles, in degrees. -/
def angleUnits : List (String × Float32) :=
  [("deg", 1), ("grad", 180 / 200), ("rad", 57.29578), ("turn", 360)]

/-- The units of times, in milliseconds. -/
def timeUnits : List (String × Float32) := [("ms", 1), ("s", 1000)]

/-- The one of these units that a name means, in whatever case. -/
def unitNamed? (units : List String) (name : List Char) : Option String :=
  units.find? fun u => Text.sameLetters u.toList name

/-! ## Quantities -/

/-- A number with its unit. A percentage is kept as a part of one. -/
inductive Quantity where
  | length (n : Float32) (unit : String)
  | percentage (n : Float32)
  | angle (n : Float32) (unit : String)
  | time (n : Float32) (unit : String)
deriving DecidableEq, Repr

namespace Quantity

/-- The number of a quantity. -/
def number : Quantity → Float32
  | .length n _ | .percentage n | .angle n _ | .time n _ => n

/-- The quantity with another number. -/
def withNumber (n : Float32) : Quantity → Quantity
  | .length _ u => .length n u
  | .percentage _ => .percentage n
  | .angle _ u => .angle n u
  | .time _ u => .time n u

/-- The length that a dimension is. -/
def length? (t : Token) : Option Quantity :=
  if t.kind = .dimension then
    (unitNamed? (absoluteUnits.map Prod.fst ++ relativeUnits) t.unitName).map
      (.length (numeralValue t.numeral).toFloat32)
  else none

/-- The quantity that a percentage is. -/
def percentage? (t : Token) : Option Quantity :=
  if t.kind = .percentage then some (.percentage (numeralValue t.numeral / 100).toFloat32) else none

/-- The angle that a dimension is. -/
def angle? (t : Token) : Option Quantity :=
  if t.kind = .dimension then
    (unitNamed? (angleUnits.map Prod.fst) t.unitName).map
      (.angle (numeralValue t.numeral).toFloat32)
  else none

/-- The time that a dimension is. -/
def time? (t : Token) : Option Quantity :=
  if t.kind = .dimension then
    (unitNamed? (timeUnits.map Prod.fst) t.unitName).map
      (.time (numeralValue t.numeral).toFloat32)
  else none

/-! ## Units in common -/

/-- A quantity in pixels, degrees or milliseconds, if its unit is a fixed number of them. -/
def inBaseUnit? : Quantity → Option Quantity
  | .length n u => (absoluteUnits.lookup u).map fun size => .length (n * size) "px"
  | .percentage _ => none
  | .angle n u => (angleUnits.lookup u).map fun size => .angle (n * size) "deg"
  | .time n u => (timeUnits.lookup u).map fun size => .time (n * size) "ms"

/-- An angle in radians. -/
def radians? : Quantity → Option Float32
  | .angle n "rad" => some n
  | .angle n u => (angleUnits.lookup u).map fun size => n * size * 0.017453292
  | _ => none

/-- The quantity has the unit of the other one. -/
def sameUnit : Quantity → Quantity → Bool
  | .length _ u, .length _ v => u == v
  | .percentage _, .percentage _ => true
  | .angle _ u, .angle _ v => u == v
  | .time _ u, .time _ v => u == v
  | _, _ => false

/-- Two quantities in a unit that they have in common. -/
def common? (a b : Quantity) : Option (Quantity × Quantity) :=
  if sameUnit a b then some (a, b)
  else
    match a.inBaseUnit?, b.inBaseUnit? with
    | some p, some q => if sameUnit p q then some (p, q) else none
    | _, _ => none

/-- What an operation on numbers makes of two quantities with a unit in common. -/
def combine? (op : Float32 → Float32 → Float32) (a b : Quantity) : Option Quantity :=
  (a.common? b).map fun (p, q) => p.withNumber (op p.number q.number)

/-- The order of two quantities with a unit in common. What is no number has no order. -/
def order? (a b : Quantity) : Option Ordering :=
  (a.common? b).bind fun (p, q) =>
    if p.number < q.number then some .lt
    else if q.number < p.number then some .gt
    else if p.number == q.number then some .eq
    else none

/-! ## Writing -/

/-- The name of a unit. One that looks like an exponent begins with an escape. -/
def unitText : List Char → List Char
  | [] => []
  | c :: rest =>
    if (c = 'e' || c = 'E') && (rest = [] || rest.head? = some '-') then
      ['\\', '6', '5', ' '] ++ nameText rest
    else identText (c :: rest)

/-- A number with the name of its unit. -/
def withUnit (n : Float32) (unit : List Char) : List Char := numberText n ++ unitText unit

/-- A percentage, from the part of one that it is. Zero keeps its sign. -/
def percentageText (n : Float32) : List Char :=
  (if n == 0 && 1 / n < 0 then ['-'] else []) ++ numberText (n * 100) ++ ['%']

/-- A quantity. A length of zero has no unit, unless it stands in a calculation. -/
def text (calculated : Bool) : Quantity → List Char
  | .length n u => if n == 0 && !calculated then ['0'] else withUnit n u.toList
  | .percentage n => percentageText n
  | .angle n u | .time n u => withUnit n u.toList

end Quantity

end ResponsiveCss.Value
