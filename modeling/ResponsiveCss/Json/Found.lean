-- How a JSON value is named in a failure that says what was found where
-- something else was expected.
import ResponsiveCss.Decimal
import ResponsiveCss.Json.Skip
import ResponsiveCss.Text.Visible

namespace ResponsiveCss.Json

/-! ## The numbers of numerals -/

/-- The number that a numeral stands for: an integer of at most 64 bits or a floating-point
number. -/
inductive Number where
  | integer (n : Int)
  | floating (f : Float)

/-- The number with more digits behind it, as long as it does not exceed the limit, and the
digits that are left. -/
def appendDigits (limit : Nat) : Nat → List Char → Nat × List Char
  | n, [] => (n, [])
  | n, d :: ds =>
    let more := 10 * n + (d.toNat - '0'.toNat)
    if more ≤ limit then appendDigits limit more ds else (n, d :: ds)

/-- The floating-point number nearest to a power of ten. -/
def powerOfTen (n : Nat) : Float := Float.ofScientific 1 false n

/-- A number divided by a power of ten, which may itself be too large for a number. -/
def divided (f : Float) (power : Nat) : Float :=
  if power ≤ 308 then f / powerOfTen power
  else if f == 0 then f
  else divided (f / powerOfTen 308) (power - 308)
termination_by power
decreasing_by omega

/-- The floating-point number `significand * 10 ^ exponent`, unless it is too large. -/
def scaled (significand : Nat) (exponent : Int) : Option Float :=
  let f := significand.toUInt64.toFloat
  if exponent < 0 then some (divided f exponent.natAbs)
  else if exponent ≤ 308 then
    let g := f * powerOfTen exponent.toNat
    if g.isInf then none else some g
  else if f == 0 then some f
  else none

/-- An integer, unless it needs more than 64 bits or is a negative zero. -/
def Number.ofSigned (negative : Bool) (n : Nat) : Number :=
  if !negative then .integer n
  else if 1 ≤ n && n ≤ UInt64.size / 2 then .integer (-n)
  else .floating (-n.toUInt64.toFloat)

/-- The number that a numeral stands for. The digits count up to 64 bits; whole digits beyond
that only scale the number. `rest` is the text behind the numeral. -/
def Numeral.number (n : Numeral) (rest : List Char) : Except Failure Number :=
  let (whole, beyond) := appendDigits (UInt64.size - 1) 0 n.whole
  if beyond = [] && n.fraction = [] && n.exponent = [] then .ok (.ofSigned n.negative whole)
  else
    let (significand, ignored) := appendDigits (UInt64.size - 1) whole n.fraction
    let shift : Int := beyond.length - (n.fraction.length - ignored.length : Nat)
    let signed (f : Float) : Number := .floating (if n.negative then -f else f)
    match appendDigits (UInt32.size / 2 - 1) 0 n.exponent with
    | (_, _ :: more) =>
      if significand = 0 || n.exponentNegative then .ok (signed 0)
      else .error (.before .numberOutOfRange (more ++ rest))
    | (size, []) =>
      let exponent : Int := if n.exponentNegative then -(size : Int) else size
      match scaled significand (shift + exponent) with
      | some f => .ok (signed f)
      | none => .error (.before .numberOutOfRange rest)

/-- How a number is named. -/
def Number.name : Number → String
  | .integer n => "integer `" ++ toString n ++ "`"
  | .floating f => "floating point `" ++ Decimal.text f ++ "`"

/-! ## Unexpected values -/

/-- The failure to find something at the beginning of a text, with the name of what is there.
Scalars are read first, so it may be a failure to read them; containers are not entered. -/
def unexpected (expected : String) (s : List Char) : Failure :=
  let found (name : String) (rest : List Char) : Failure :=
    .before (.invalidType name expected) rest
  let spelled (name : String) (letters s : List Char) : Failure :=
    match word letters s with
    | .error f => f
    | .ok rest => found name rest
  match s with
  | [] => .atEnd .endInValue
  | c :: s =>
    if c = 'n' then spelled "null" ['u', 'l', 'l'] s
    else if c = 't' then spelled "boolean `true`" ['r', 'u', 'e'] s
    else if c = 'f' then spelled "boolean `false`" ['a', 'l', 's', 'e'] s
    else if c = '"' then
      match string s with
      | .error f => f
      | .ok (text, rest) => found ("string " ++ Text.quoted text) rest
    else if c = '-' || c.isDigit then
      match Numeral.read .endInValue (c :: s) with
      | .error f => f
      | .ok (n, rest) =>
        match n.number rest with
        | .error f => f
        | .ok number => found number.name rest
    else if c = '[' then found "sequence" (c :: s)
    else if c = '\x7b' then found "map" (c :: s)
    else .next .expectedValue (c :: s)

end ResponsiveCss.Json
