-- Numbers in CSS. They are read with twice the precision that they are kept
-- in, and written as short as the precision allows.
import ResponsiveCss.Decimal
import ResponsiveCss.Token.Parts

namespace ResponsiveCss.Value

open Token

/-! ## Reading -/

/-- The value of a digit. -/
def digitValue (c : Char) : Float := Float.ofNat (c.toNat - '0'.toNat)

/-- The value of digits before a point. -/
def wholeValue (digits : List Char) : Float := digits.foldl (fun n c => n * 10 + digitValue c) 0

/-- The value of digits behind a point, where the first of them counts `unit`. -/
def fractionValue (unit : Float) : List Char → Float → Float
  | [], n => n
  | c :: cs, n => fractionValue (unit * 0.1) cs (n + digitValue c * unit)

/-- The value of a sign, which may be missing. -/
def signValue (s : List Char) : Float := if s.head? = some '-' then -1 else 1

/-- The value of an exponent without its letter. -/
def exponentValue (s : List Char) : Float := signValue s * wholeValue (s.drop (signLength s))

/-- The value of a numeral. -/
def numeralValue (s : List Char) : Float :=
  let mantissa := s.drop (signLength s)
  let whole := mantissa.takeWhile Char.isDigit
  let rest := mantissa.dropWhile Char.isDigit
  let behind := ((rest.drop 1).take (fractionLength rest - 1))
  let n := signValue s * (wholeValue whole + fractionValue 0.1 behind 0)
  match rest.drop (fractionLength rest) with
  | [] => n
  | _ :: exponent => n * Float.pow 10 (exponentValue exponent)

/-- A numeral without point and exponent. -/
def isWhole (s : List Char) : Bool := (s.drop (signLength s)).all Char.isDigit

/-- The value of a whole numeral, in the range of 32 bits. -/
def wholeNumeral (s : List Char) : Int :=
  let size := (s.drop (signLength s)).foldl (fun n c => 10 * n + (c.toNat - '0'.toNat)) 0
  if s.head? = some '-' then max (-(size : Int)) (-2147483648) else min (size : Int) 2147483647

/-! ## Writing -/

/-- The size of a number with its sign. -/
def signed (f : Float32) (size : List Char) : List Char := if f < 0 then '-' :: size else size

/-- A text without the zeros in front of it. -/
def dropZeros (s : List Char) : List Char := s.dropWhile (· = '0')

/-- A number. One that is smaller than one goes without the zero before its point. -/
def numberText (f : Float32) : List Char :=
  let size := Decimal.sizeText f
  signed f (if f == 0 || 1 ≤ f.abs then size else dropZeros size)

end ResponsiveCss.Value
