-- Reading values from components: numbers, lengths and other quantities, and
-- the functions that calculate with them.
import ResponsiveCss.Component
import ResponsiveCss.Value.Calculation

namespace ResponsiveCss.Value

/-! ## What a calculation is about -/

/-- The quantities that a calculation may hold besides numbers. -/
inductive Measure where
  | numbers
  | lengths
  | percentages
  | lengthsAndPercentages
  | angles
  | times
deriving DecidableEq, Repr

/-- The quantity that a token is, if a calculation may hold it. -/
def Measure.quantity? (m : Measure) (t : Token) : Option Quantity :=
  match m with
  | .numbers => none
  | .lengths => Quantity.length? t
  | .percentages => Quantity.percentage? t
  | .lengthsAndPercentages => (Quantity.length? t).or (Quantity.percentage? t)
  | .angles => Quantity.angle? t
  | .times => Quantity.time? t

/-- The numbers that have a name. -/
def constants : List (String × Float32) :=
  [("e", 2.7182817), ("pi", 3.1415927), ("infinity", 1 / 0), ("-infinity", -1 / 0), ("nan", 0 / 0)]

/-- The number that a token is, or the name of a number. -/
def number? (t : Token) : Option Float32 :=
  if t.kind = .number then some (numeralValue t.numeral).toFloat32
  else if t.kind = .ident then
    (constants.find? fun c => Text.sameLetters c.1.toList t.identName).map Prod.snd
  else none

/-- A token as a calculation. -/
def Measure.single? (m : Measure) (t : Token) : Option Calculation :=
  ((number? t).map .number).or ((m.quantity? t).map .quantity)

/-! ## Functions by name -/

/-- A function that may be called in a calculation. -/
inductive Function where
  | operation (op : Operation)
  /-- The function rounds its second and third operand in the way that its first one names. -/
  | round
  /-- A function of numbers. -/
  | numeric (f : List Float32 → Option Float32)
  /-- A function of an angle, which may be given as a number. -/
  | ofAngle (f : Float32 → Float32)
  /-- A function of a number that comes to an angle. -/
  | toAngle (f : Float32 → Float32)
  /-- A function that comes to an angle, of two operands with anything in common. -/
  | angleBetween (f : Float32 → Float32 → Float32)

/-- The function of one number. -/
def Function.unary (f : Float32 → Float32) : Function :=
  .numeric fun
    | [a] => some (f a)
    | _ => none

/-- The functions by their names. -/
def functions : List (String × Function) :=
  [("calc", .operation .calc), ("min", .operation .least), ("max", .operation .greatest),
    ("clamp", .operation .clamp), ("round", .round), ("rem", .operation .remainder),
    ("mod", .operation .modulus), ("abs", .operation .size), ("sign", .operation .sign),
    ("hypot", .operation .hypotenuse), ("sqrt", .unary Float32.sqrt), ("exp", .unary Float32.exp),
    ("pow", .numeric fun
      | [a, b] => some (a.pow b)
      | _ => none),
    ("log", .numeric fun
      | [a] => some a.log
      | [a, b] => some (a.log / b.log)
      | _ => none),
    ("sin", .ofAngle Float32.sin), ("cos", .ofAngle Float32.cos), ("tan", .ofAngle Float32.tan),
    ("asin", .toAngle Float32.asin), ("acos", .toAngle Float32.acos),
    ("atan", .toAngle Float32.atan), ("atan2", .angleBetween Float32.atan2)]

/-- The function with a name, in whatever case. -/
def functionNamed? (name : List Char) : Option Function :=
  (functions.find? fun f => Text.sameLetters f.1.toList name).map Prod.snd

namespace Function

/-- What the operands of a function may be, where the call itself is about `m`. They are all of
the first kind that does. -/
def measures (f : Function) (m : Measure) : List Measure :=
  match f with
  | .operation _ | .round => [m]
  | .numeric _ => [.numbers]
  | .ofAngle _ | .toAngle _ => [.angles]
  | .angleBetween _ => [.lengths, .percentages, .angles, .times, .numbers]

/-- White space may stand before the commas between the operands. -/
def loose : Function → Bool
  | .operation .least | .operation .greatest | .operation .hypotenuse => true
  | _ => false

/-- An angle as the number of its radians. -/
def radians? : Calculation → Option Float32
  | .number n => some n
  | .quantity q => q.radians?
  | _ => none

/-- The angle of a function of two operands that have something in common. -/
def angleBetween? (f : Float32 → Float32 → Float32) : List Calculation → Option Float32
  | [.number m, .number n] => some (f m n)
  | [.quantity p, .quantity q] => (p.common? q).map fun (p, q) => f p.number q.number
  | _ => none

/-- An angle, where the calculation is about angles. -/
def angleIn? (m : Measure) (radians : Float32) : Option Calculation :=
  if m = .angles then some (.quantity (.angle radians "rad")) else none

/-- What a call of a function comes to in a calculation about `m`. What is no number is no angle
either. -/
def outcome? (f : Function) (m : Measure) (how : Rounding) (operands : List Calculation) :
    Option Calculation :=
  match f with
  | .operation op => Calculation.outcome? op operands
  | .round => Calculation.outcome? (.round how) operands
  | .numeric f => do return .number (← f (← operands.mapM Calculation.number?))
  | .ofAngle f =>
    match operands with
    | [c] => (radians? c).map fun n => .number (f n)
    | _ => none
  | .toAngle f =>
    match operands with
    | [.number n] => if (f n).isNaN then some (.number (f n)) else angleIn? m (f n)
    | _ => none
  | .angleBetween f => (angleBetween? f operands).bind (angleIn? m)

end Function

/-- The way of rounding that a component names. -/
def rounding? (c : Component) : Option Rounding :=
  (Rounding.names.find? fun r => c.isIdent r.1).map Prod.snd

/-! ## Calculations -/

/-- What has been read of a list of operands. -/
structure Tally where
  /-- The finished operands, last first. -/
  finished : List Calculation
  /-- The sum of the finished terms of this operand. -/
  total : Option Calculation
  /-- The term that is being read counts below zero. -/
  minus : Bool

namespace Tally

/-- Nothing has been read. -/
def start : Tally := ⟨[], none, false⟩

/-- The operand with its last term. -/
def close (t : Tally) (term : Calculation) : Calculation :=
  let term := if t.minus then term.times (-1) else term
  match t.total with
  | none => term
  | some total => total.add term

/-- The operand goes on with another term behind a sign. -/
def next (t : Tally) (term : Calculation) (minus : Bool) : Tally :=
  ⟨t.finished, some (t.close term), minus⟩

/-- Another operand begins. -/
def finish (t : Tally) (term : Calculation) : Tally := ⟨t.close term :: t.finished, none, false⟩

end Tally

/-- What stands in front of a factor: the factors of its term so far, and whether the next one
divides them. -/
abbrev Factors := Option (Calculation × Bool)

/-- The term with one more factor. -/
def Factors.with? (left : Factors) (c : Calculation) : Option Calculation :=
  match left with
  | none => some c
  | some (d, false) => d.product? c
  | some (d, true) => d.quotient? c

/-- The only one of some calculations. -/
def only? : List Calculation → Option Calculation
  | [c] => some c
  | _ => none

/-- A calculation inside another one stands there without its `calc`. -/
def unwrapped : Calculation → Calculation
  | .apply .calc [c] => c
  | c => c

mutual

/-- A factor of a term: a number, a quantity, a calculation in parentheses, or the call of a
function. -/
def factor? (m : Measure) : Component → Option Calculation
  | .token _ t => m.single? t
  | .group _ opening (first :: comma :: inside) =>
    if opening.kind = .opening .round then
      (operands? m false .start none (first :: comma :: inside)).bind only?
    else if opening.kind = .call then
      (functionNamed? opening.callName).bind fun f =>
        match f, rounding? first, comma.isToken .comma with
        | .round, some how, true => (operands? m false .start none inside).bind (f.outcome? m how)
        | _, _, _ =>
          (f.measures m).findSome? fun k =>
            (operands? k f.loose .start none (first :: comma :: inside)).bind
              (f.outcome? m .nearest)
    else none
  | .group _ opening inside =>
    if opening.kind = .opening .round then (operands? m false .start none inside).bind only?
    else if opening.kind = .call then
      (functionNamed? opening.callName).bind fun f =>
        (f.measures m).findSome? fun k =>
          (operands? k f.loose .start none inside).bind (f.outcome? m .nearest)
    else none

/-- Operands between commas, where a factor must come next. -/
def operands? (m : Measure) (loose : Bool) (t : Tally) (left : Factors) :
    List Component → Option (List Calculation)
  | [] => none
  | c :: cs =>
    match factor? m c with
    | none => none
    | some d =>
      match left.with? (unwrapped d) with
      | none => none
      | some term => operandsAfter? m loose t term cs

/-- Operands between commas, where a factor has just been read. A sign between two terms needs
white space in front of it. -/
def operandsAfter? (m : Measure) (loose : Bool) (t : Tally) (term : Calculation) :
    List Component → Option (List Calculation)
  | [] => some (t.finish term).finished.reverse
  | c :: cs =>
    if c.isDelim '*' then operands? m loose t (some (term, false)) cs
    else if c.isDelim '/' then operands? m loose t (some (term, true)) cs
    else if c.isToken .comma && (loose || !c.spaced) then operands? m loose (t.finish term) none cs
    else if c.isDelim '+' && c.spaced then operands? m loose (t.next term false) none cs
    else if c.isDelim '-' && c.spaced then operands? m loose (t.next term true) none cs
    else none

end

/-- The call of a function. -/
def call? (m : Measure) : Component → Option Calculation
  | .token .. => none
  | .group spaced opening inside =>
    if opening.kind = .call then factor? m (.group spaced opening inside) else none

/-! ## Values -/

/-- A value and the components behind it. -/
abbrev Read (α : Type) := Option (α × List Component)

/-- A number, which may be calculated. -/
def readNumber : List Component → Read Float32
  | [] => none
  | .token _ t :: rest =>
    if t.kind = .number then some ((numeralValue t.numeral).toFloat32, rest) else none
  | c :: rest => (call? .numbers c).bind fun d => d.number?.map fun n => (n, rest)

/-- A whole number. -/
def readWhole : List Component → Read Int
  | .token _ t :: rest =>
    if t.kind = .number && isWhole t.numeral then some (wholeNumeral t.numeral, rest) else none
  | _ => none

/-- A length, which may be calculated. A plain number counts pixels. -/
def readLength : List Component → Read Calculation
  | [] => none
  | .token _ t :: rest =>
    if t.kind = .number then
      some (.quantity (.length (numeralValue t.numeral).toFloat32 "px"), rest)
    else (Quantity.length? t).map fun q => (.quantity q, rest)
  | c :: rest => (call? .lengths c).map fun d => (d, rest)

/-- A length or a percentage, which may be calculated. A plain number counts pixels. -/
def readLengthOrPercentage : List Component → Read Calculation
  | [] => none
  | .token _ t :: rest =>
    if t.kind = .number then
      some (.quantity (.length (numeralValue t.numeral).toFloat32 "px"), rest)
    else (Measure.lengthsAndPercentages.quantity? t).map fun q => (.quantity q, rest)
  | c :: rest => (call? .lengthsAndPercentages c).map fun d => (d, rest)

end ResponsiveCss.Value
