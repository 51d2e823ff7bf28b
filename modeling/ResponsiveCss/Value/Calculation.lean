-- Calculations with quantities: sums, multiples and functions. What can be
-- worked out is worked out; what is left depends on units that have nothing
-- in common.
import ResponsiveCss.Decimal
import ResponsiveCss.Value.Quantity

namespace ResponsiveCss.Value

/-! ## Functions -/

/-- How a number is rounded to a multiple of another one. -/
inductive Rounding where
  | nearest
  | up
  | down
  | toZero
deriving DecidableEq, Repr

/-- The ways of rounding and their names. -/
def Rounding.names : List (String × Rounding) :=
  [("nearest", .nearest), ("up", .up), ("down", .down), ("to-zero", .toZero)]

/-- The functions that may be left in a calculation. A calculation that is not worked out
stands in `calc` on the outside. -/
inductive Operation where
  | calc
  | least
  | greatest
  | clamp
  | round (how : Rounding)
  | remainder
  | modulus
  | size
  | sign
  | hypotenuse
deriving DecidableEq, Repr

/-- A calculation. -/
inductive Calculation where
  | number (n : Float32)
  | quantity (q : Quantity)
  | sum (a b : Calculation)
  /-- A multiple of what cannot be multiplied itself. -/
  | multiple (n : Float32) (c : Calculation)
  | apply (op : Operation) (operands : List Calculation)
deriving Repr

namespace Calculation

/-! ## Arithmetic -/

/-- The number that a calculation comes to. -/
def number? : Calculation → Option Float32
  | .number n => some n
  | _ => none

/-- The sign of a calculation, where it is known: below zero or not. -/
def negative? : Calculation → Option Bool
  | .number n => some (n < 0)
  | .quantity q => some (q.number < 0)
  | .multiple n c => c.negative?.map (· != decide (n < 0))
  | _ => none

/-- A calculation times a number. -/
def times (c : Calculation) (n : Float32) : Calculation :=
  if n == 1 then c
  else
    match c with
    | .number m => .number (m * n)
    | .quantity q => .quantity (q.withNumber (q.number * n))
    | .sum a b => .sum (a.times n) (b.times n)
    | .multiple m c => if m * n == 1 then c else .multiple (m * n) c
    | .apply op operands => .multiple n (.apply op operands)

/-- The product of two calculations, one of which must be a number. -/
def product? (a b : Calculation) : Option Calculation :=
  match a, b with
  | a, .number n => some (a.times n)
  | .number n, b => some (b.times n)
  | _, _ => none

/-- A calculation divided by another one, which must be a number other than zero. -/
def quotient? (a b : Calculation) : Option Calculation :=
  match b with
  | .number n => if n == 0 then none else some (a.times (1 / n))
  | _ => none

/-- The sum with a part added to the first part that it has a unit in common with, if there is
one. -/
def merge? (part : Calculation) : Calculation → Option Calculation
  | .sum a b =>
    match merge? part a with
    | some a => some (.sum a b)
    | none => (merge? part b).map (.sum a)
  | .number m => part.number?.map fun n => .number (m + n)
  | .quantity p =>
    match part with
    | .quantity q => (p.combine? (· + ·) q).map .quantity
    | _ => none
  | _ => none

/-- The calculation is a quantity of nothing. -/
def isZero : Calculation → Bool
  | .quantity q => q.number == 0
  | _ => false

/-- A sum with one more part. A part below zero goes behind one above. -/
def addPart (a part : Calculation) : Calculation :=
  match merge? part a with
  | some c => c
  | none =>
    if a.isZero then part
    else if part.isZero then a
    else
      match a, part with
      | .quantity p, .quantity q =>
        if p.number < 0 && 0 ≤ q.number then .sum part a else .sum a part
      | _, _ => .sum a part

/-- The sum of two calculations. -/
def add (a : Calculation) : Calculation → Calculation
  | .sum b c => (a.add b).add c
  | part => a.addPart part

/-! ## Applying functions -/

/-- An operation on two calculations that are numbers or have a unit in common. -/
def combine? (op : Float32 → Float32 → Float32) (a b : Calculation) : Option Calculation :=
  match a, b with
  | .number m, .number n => some (.number (op m n))
  | .quantity p, .quantity q => (p.combine? op q).map .quantity
  | _, _ => none

/-- The order of two quantities with a unit in common. Plain numbers are not compared. -/
def order? (a b : Calculation) : Option Ordering :=
  match a, b with
  | .quantity p, .quantity q => p.order? q
  | _, _ => none

/-- The kept operands with one more. It takes the place of the first one that it can be
compared with if it stands to it in the order that `wins`; otherwise it is dropped. -/
def keep (wins : Ordering) (c : Calculation) : List Calculation → List Calculation
  | [] => [c]
  | d :: more =>
    match order? c d with
    | some o => if o = wins then c :: more else d :: more
    | none => d :: keep wins c more

/-- The least or the greatest of some calculations, as far as they can be compared. -/
def extreme (op : Operation) (wins : Ordering) (operands : List Calculation) : Calculation :=
  match operands.foldl (fun kept c => keep wins c kept) [] with
  | [c] => c
  | kept => .apply op kept

/-- A calculation between two bounds; the lower bound wins against the upper one. A bound that
is known not to matter is left out. -/
def clamped (low middle high : Calculation) : Calculation :=
  let (middle, high?) :=
    match order? middle high with
    | some .gt => (high, none)
    | some _ => (middle, none)
    | none => (middle, some high)
  let (middle, low?) :=
    match order? middle low with
    | some .lt => (low, none)
    | some _ => (middle, none)
    | none => (middle, some low)
  match low?, high? with
  | none, none => middle
  | some low, none => .apply .greatest [low, middle]
  | none, some high => .apply .least [middle, high]
  | some low, some high => .apply .clamp [low, middle, high]

/-- A number without its fraction. -/
def truncated (n : Float32) : Float32 := if n < 0 then n.ceil else n.floor

/-- A number rounded to a multiple of another one. -/
def rounded (how : Rounding) (n step : Float32) : Float32 :=
  let times := n / step
  step * match how with
    | .nearest => times.round
    | .up => times.ceil
    | .down => times.floor
    | .toZero => truncated times

/-- The sign of a number as a number. -/
def signOf (n : Float32) : Float32 := if n < 0 then -1 else if 0 < n then 1 else n

/-- What a function makes of the number of a calculation. A percentage is not known well enough
for that. -/
def changed? (f : Float32 → Float32) : Calculation → Option Calculation
  | .number n => some (.number (f n))
  | .quantity (.percentage _) => none
  | .quantity q => some (.quantity (q.withNumber (f q.number)))
  | _ => none

/-- The sign of a calculation, if it is known. That of a percentage is not. -/
def sign? : Calculation → Option Calculation
  | .number n => some (.number (signOf n))
  | .quantity (.percentage _) => none
  | .quantity q => some (.number (signOf q.number))
  | _ => none

/-- The length of the longest side of a right-angled triangle. -/
def longestSide (m n : Float32) : Float32 :=
  (m.toFloat * m.toFloat + n.toFloat * n.toFloat).sqrt.toFloat32

/-- The root of the sum of the squares, if all operands have a unit in common. -/
def hypotenuse? : List Calculation → Option Calculation
  | [] => none
  | [c] => c.changed? Float32.abs
  | [c, d] => combine? longestSide c d
  | c :: more => do
    let squares ← more.foldlM (combine? fun m n => m + n * n) (← c.changed? fun n => n * n)
    squares.changed? Float32.sqrt

/-- What an operation makes of its operands; none if there are too many or too few. -/
def outcome? (op : Operation) (operands : List Calculation) : Option Calculation :=
  match op, operands with
  | .calc, [.number n] => some (.number n)
  | .calc, [.quantity q] => some (.quantity q)
  | .calc, [c] => some (.apply .calc [c])
  | .least, operands => some (extreme .least .lt operands)
  | .greatest, operands => some (extreme .greatest .gt operands)
  | .clamp, [low, middle, high] => some (clamped low middle high)
  | .round how, [a, b] => some ((combine? (rounded how) a b).getD (.apply op [a, b]))
  | .remainder, [a, b] => some ((combine? Decimal.remainder a b).getD (.apply op [a, b]))
  | .modulus, [a, b] => some ((combine? Decimal.modulus a b).getD (.apply op [a, b]))
  | .size, [c] => some ((c.changed? Float32.abs).getD (.apply op [c]))
  | .sign, [c] => some (c.sign?.getD (.apply op [c]))
  | .hypotenuse, operands => some ((hypotenuse? operands).getD (.apply op operands))
  | _, _ => none

/-! ## Writing -/

/-- The name of an operation. -/
def operationName : Operation → String
  | .calc => "calc"
  | .least => "min"
  | .greatest => "max"
  | .clamp => "clamp"
  | .round _ => "round"
  | .remainder => "rem"
  | .modulus => "mod"
  | .size => "abs"
  | .sign => "sign"
  | .hypotenuse => "hypot"

/-- The way of rounding as the first operand, unless it is the usual one. -/
def roundingText : Operation → List Char
  | .round .up => "up,".toList
  | .round .down => "down,".toList
  | .round .toZero => "to-zero,".toList
  | _ => []

mutual

/-- A calculation inside another one. -/
def innerText : Calculation → List Char
  | .number n => numberText n
  | .quantity q => q.text true
  | .sum a b => innerText a ++ addendText b
  | .multiple n c =>
    if n.abs < 1 then innerText c ++ '/' :: numberText (1 / n)
    else numberText n ++ '*' :: innerText c
  | .apply op operands =>
    (operationName op).toList ++ '(' :: roundingText op ++ operandsText operands ++ [')']

/-- A part of a sum behind its sign, which stands between spaces. -/
def addendText : Calculation → List Char
  | .number n => if n < 0 then " - ".toList ++ numberText (-n) else " + ".toList ++ numberText n
  | .quantity q =>
    if q.number < 0 then " - ".toList ++ (q.withNumber (-q.number)).text true
    else " + ".toList ++ q.text true
  | .sum a b => addendText a ++ addendText b
  | .multiple n c =>
    if n < 0 then
      " - ".toList ++
        if n == -1 then innerText c
        else if n.abs < 1 then innerText c ++ '/' :: numberText (-1 / n)
        else numberText (-n) ++ '*' :: innerText c
    else
      " + ".toList ++
        if n.abs < 1 then innerText c ++ '/' :: numberText (1 / n)
        else numberText n ++ '*' :: innerText c
  | .apply op operands =>
    " + ".toList ++ (operationName op).toList ++ '(' :: roundingText op ++ operandsText operands ++
      [')']

/-- Operands between commas. -/
def operandsText : List Calculation → List Char
  | [] => []
  | [c] => innerText c
  | c :: more => innerText c ++ ',' :: operandsText more

end

/-- A calculation on its own. -/
def text : Calculation → List Char
  | .quantity q => q.text false
  | c => innerText c

end Calculation

end ResponsiveCss.Value
