-- Floating-point numbers of single and double precision: their bits, the
-- shortest decimal that reads back as such a number, that decimal as text, and
-- the remainder of a division. A number `m * 2 ^ q` stands for all reals nearer
-- to it than to its neighbours; the ends of that interval belong to it if `m`
-- is even.
namespace ResponsiveCss.Decimal

/-- A power of natural numbers. -/
def power (base exponent : Nat) : Nat := Nat.pow base exponent

/-! ## The interval of a binary number -/

/-- A fraction of natural numbers. -/
structure Fraction where
  num : Nat
  den : Nat
deriving DecidableEq, Repr

/-- A positive binary number and the reals that round to it. -/
structure Binary where
  /-- The number itself. -/
  value : Fraction
  /-- The lower end of the interval, over the same denominator. -/
  low : Nat
  /-- The upper end of the interval, over the same denominator. -/
  high : Nat
  /-- The two ends belong to the interval. -/
  closed : Bool
deriving DecidableEq, Repr

/-- The number `m * 2 ^ q`. If `m` is the least of its binade, the neighbour below is only half
as far away as the one above. -/
def Binary.of (m : Nat) (q : Int) (least : Bool) : Binary :=
  let scale := if 0 ≤ q then power 2 q.toNat else 1
  let den := if 0 ≤ q then 1 else power 2 (-q).toNat
  { value := ⟨4 * m * scale, 4 * den⟩
    low := (4 * m - if least then 1 else 2) * scale
    high := (4 * m + 2) * scale
    closed := m % 2 = 0 }

/-! ## Decimals of a given length -/

/-- The decimal `digits * 10 ^ exponent`. -/
structure Digits where
  digits : Nat
  exponent : Int
deriving DecidableEq, Repr

/-- The decimal as a fraction. -/
def Digits.fraction (d : Digits) : Fraction :=
  if 0 ≤ d.exponent then ⟨d.digits * power 10 d.exponent.toNat, 1⟩
  else ⟨d.digits, power 10 (-d.exponent).toNat⟩

/-- The decimal rounds to the binary number. -/
def Binary.holds (b : Binary) (d : Digits) : Bool :=
  let f := d.fraction
  let x := f.num * b.value.den
  let low := b.low * f.den
  let high := b.high * f.den
  if b.closed then low ≤ x && x ≤ high else low < x && x < high

/-- The number of decimal digits of a positive number. -/
def digitCount (n : Nat) : Nat := (Nat.toDigits 10 n).length

/-- The digits of a number without the zeros at their end; nothing is left of zero. -/
def significantDigits (n : Nat) : List Char :=
  ((Nat.toDigits 10 n).reverse.dropWhile (· = '0')).reverse

/-- The exponent `k` with `10 ^ (k - 1) ≤ f < 10 ^ k`, for a positive fraction. -/
def magnitude (f : Fraction) : Int :=
  if f.den ≤ f.num then digitCount (f.num / f.den)
  else 1 - (digitCount ((f.den - 1) / f.num) : Int)

/-- The largest multiple of `10 ^ exponent` that is not above the fraction. -/
def floorAt (f : Fraction) (exponent : Int) : Nat :=
  if 0 ≤ exponent then f.num / (f.den * power 10 exponent.toNat)
  else f.num * power 10 (-exponent).toNat / f.den

/-- How far the fraction lies above the middle between two neighbouring multiples of
`10 ^ exponent`, of which `n` is the lower: before it, on it or behind it. -/
def besideMiddle (f : Fraction) (n : Nat) (exponent : Int) : Ordering :=
  if 0 ≤ exponent then compare (2 * f.num) ((2 * n + 1) * f.den * power 10 exponent.toNat)
  else compare (2 * f.num * power 10 (-exponent).toNat) ((2 * n + 1) * f.den)

/-- The decimal with `length` digits that rounds to the binary number, if there is one; of two,
the nearer one, and the one with the even last digit if both are as near. -/
def Binary.withLength? (b : Binary) (length : Nat) : Option Digits :=
  let exponent := magnitude b.value - length
  let n := floorAt b.value exponent
  let below : Digits := ⟨n, exponent⟩
  let above : Digits := ⟨n + 1, exponent⟩
  match b.holds below, b.holds above with
  | false, false => none
  | true, false => some below
  | false, true => some above
  | true, true =>
    match besideMiddle b.value n exponent with
    | .lt => some below
    | .gt => some above
    | .eq => some (if n % 2 = 0 then below else above)

/-- The decimal with the fewest digits that rounds to the binary number. Seventeen digits
always do. -/
def Binary.shortest (b : Binary) : Digits :=
  ((List.range 17).findSome? fun n => b.withLength? (n + 1)).getD
    ⟨floorAt b.value (magnitude b.value - 17), magnitude b.value - 17⟩

/-! ## Numbers in their bits -/

/-- The widths of the two fields behind the sign. -/
structure Layout where
  exponentBits : Nat
  fractionBits : Nat
deriving DecidableEq, Repr

/-- Numbers of 32 bits. -/
def Layout.single : Layout := ⟨8, 23⟩

/-- Numbers of 64 bits. -/
def Layout.double : Layout := ⟨11, 52⟩

namespace Layout

/-- The weight of the last bit of the fraction, as a power of two, in the lowest binade. -/
def lowest (l : Layout) : Int := 2 - (power 2 (l.exponentBits - 1) : Int) - l.fractionBits

/-- The first number behind those of this layout that have no sign. -/
def signWeight (l : Layout) : Nat := power 2 (l.exponentBits + l.fractionBits)

/-- The bits without the sign. -/
def size (l : Layout) (bits : Nat) : Nat := bits % l.signWeight

/-- The sign is set. -/
def isNegative (l : Layout) (bits : Nat) : Bool := bits / l.signWeight = 1

/-- The `m` and `q` of the finite number `m * 2 ^ q` that bits without a sign encode. -/
def parts (l : Layout) (bits : Nat) : Nat × Int :=
  let hidden := power 2 l.fractionBits
  let exponent := bits / hidden % power 2 l.exponentBits
  if exponent = 0 then (bits % hidden, l.lowest)
  else (hidden + bits % hidden, l.lowest + exponent - 1)

/-- The binary number that the bits of a positive finite number encode. The least number of a
binade has no fraction, but there are as fine numbers below the second binade as in it. -/
def number (l : Layout) (bits : Nat) : Binary :=
  let (m, q) := l.parts bits
  .of m q (m = power 2 l.fractionBits && q ≠ l.lowest)

end Layout

/-! ## Decimals as text -/

/-- Digits in plain notation, where the first `point` of them come before the point; `whole` stands
behind a whole number. -/
def plain (whole digits : List Char) (point : Int) : List Char :=
  if point ≤ 0 then ['0', '.'] ++ List.replicate (-point).toNat '0' ++ digits
  else
    let n := point.toNat
    let behind := digits.drop n
    digits.take n ++ List.replicate (n - digits.length) '0' ++
      (if behind = [] then whole else '.' :: behind)

/-- Digits with a point behind the first one, if there are more, and an exponent; `plus` is the
sign of one that is not negative. -/
def scientific (plus digits : List Char) (exponent : Int) : List Char :=
  digits.take 1 ++ (if digits.length ≤ 1 then [] else '.' :: digits.drop 1) ++ 'e' ::
    (if exponent < 0 then ['-'] else plus) ++ Nat.toDigits 10 exponent.natAbs

/-! ### All digits -/

/-- A decimal as text: plain from `10 ^ -5` up to `10 ^ 16`, with an exponent outside. -/
def Digits.text (d : Digits) : List Char :=
  let digits := significantDigits d.digits
  let point := digitCount d.digits + d.exponent
  if -5 < point && point ≤ 16 then plain ['.', '0'] digits point
  else scientific ['+'] digits (point - 1)

/-- A finite floating-point number as text. -/
def text (f : Float) : String :=
  let bits := f.toBits.toNat
  let size := Layout.double.size bits
  let digits := if size = 0 then ['0', '.', '0'] else (Layout.double.number size).shortest.text
  String.ofList (if Layout.double.isNegative bits then '-' :: digits else digits)

/-! ### Six digits at most -/

/-- How many significant digits are written at most. -/
def precision : Nat := 6

/-- The decimal rounded to the precision; a half goes away from zero. -/
def Digits.rounded (d : Digits) : Digits :=
  match digitCount d.digits - precision with
  | 0 => d
  | cut + 1 =>
    ⟨(d.digits + 5 * power 10 cut) / power 10 (cut + 1), d.exponent + (cut + 1 : Nat)⟩

/-- A positive decimal as text: plain from `10 ^ -6` up to `10 ^ 21`, with an exponent outside. -/
def Digits.shortText (d : Digits) : List Char :=
  let size (d : Digits) : Int := digitCount d.digits + d.exponent
  let digits := significantDigits d.rounded.digits
  if -6 < size d && size d ≤ 21 then plain [] digits (size d.rounded)
  else scientific [] digits (size d.rounded - 1)

/-- The size of a number as text, without its sign. -/
def sizeText (f : Float32) : List Char :=
  let size := Layout.single.size f.toBits.toNat
  if size = 0 then ['0'] else (Layout.single.number size).shortest.shortText

/-! ## What a division leaves -/

/-- What is left of `a` after `b` was taken from it as often as possible, with the sign of `a`. -/
def remainder (a b : Float32) : Float32 :=
  if a.isNaN || a.isInf || b.isNaN || b == 0 then 0 / 0
  else if b.isInf then a
  else
    let l := Layout.single
    let (m, p) := l.parts (l.size a.toBits.toNat)
    let (n, q) := l.parts (l.size b.toBits.toNat)
    let last := min p q
    let left := m * power 2 (p - last).toNat % (n * power 2 (q - last).toNat)
    let size := (Float32.ofNat left).scaleB last
    if l.isNegative a.toBits.toNat then -size else size

/-- What is left after division, with the sign of the divisor. -/
def modulus (a b : Float32) : Float32 := remainder (remainder a b + b) b

end ResponsiveCss.Decimal
