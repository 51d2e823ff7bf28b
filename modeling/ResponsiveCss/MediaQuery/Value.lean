-- The values that features of media are tested for.
import ResponsiveCss.MediaQuery.Feature
import ResponsiveCss.Value.Plain
import ResponsiveCss.Value.Read

namespace ResponsiveCss

open Value

/-- A value of a feature. -/
inductive FeatureValue where
  | length (c : Calculation)
  | number (n : Float32)
  | whole (n : Int)
  | yesOrNo (b : Bool)
  | resolution (n : Float32) (unit : String)
  | ratio (m n : Float32)
  | word (name : List Char)
  /-- A value that the surroundings set, as it is written. -/
  | environment (text : List Char)
deriving Repr

namespace FeatureValue

/-- The kind of a value. What the surroundings set may be anything. -/
def kind : FeatureValue → Feature.Kind
  | .length _ => .length
  | .number _ => .number
  | .whole _ => .whole
  | .yesOrNo _ => .yesOrNo
  | .resolution .. => .resolution
  | .ratio .. => .ratio
  | .word _ => .word
  | .environment _ => .unknown

/-! ## Reading -/

/-- The units of resolutions, with how they are written. -/
def resolutionUnits : List (String × String) :=
  [("dpi", "dpi"), ("dpcm", "dpcm"), ("dppx", "x"), ("x", "x")]

/-- A resolution. -/
def readResolution : List Component → Read FeatureValue
  | .token _ t :: rest =>
    if t.kind = .dimension then
      (resolutionUnits.find? fun u => Text.sameLetters u.1.toList t.unitName).map fun u =>
        (.resolution (numeralValue t.numeral).toFloat32 u.2, rest)
    else none
  | _ => none

/-- Two numbers with a slash between them. -/
def readFraction (cs : List Component) : Read FeatureValue :=
  match readNumber cs with
  | some (m, slash :: rest) =>
    if slash.isDelim '/' then (readNumber rest).map fun (n, rest) => (.ratio m n, rest) else none
  | _ => none

/-- A ratio, which may be a single number. -/
def readRatio (cs : List Component) : Read FeatureValue :=
  match readNumber cs with
  | none => none
  | some (m, []) => some (.ratio m 1, [])
  | some (m, slash :: rest) =>
    if slash.isDelim '/' then readFraction cs else some (.ratio m 1, slash :: rest)

/-- A word. -/
def readWord : List Component → Read FeatureValue
  | [] => none
  | c :: rest => c.name?.map fun name => (.word name, rest)

/-- A value that the surroundings set. -/
def readEnvironment : List Component → Read FeatureValue
  | [] => none
  | c :: rest =>
    match c.call? with
    | none => none
    | some (name, inside) =>
      if Text.sameLetters name "env".toList && isSurrounding inside then
        (plainParts? true inside).map fun s => (.environment ("env(".toList ++ s ++ [')']), rest)
      else none

/-- A value of the kind that is asked for. -/
def readKind (k : Feature.Kind) (cs : List Component) : Read FeatureValue :=
  match k with
  | .length => (readLength cs).map fun (c, rest) => (.length c, rest)
  | .number => (readNumber cs).map fun (n, rest) => (.number n, rest)
  | .whole => (readWhole cs).map fun (n, rest) => (.whole n, rest)
  | .yesOrNo =>
    match readWhole cs with
    | some (0, rest) => some (.yesOrNo false, rest)
    | some (1, rest) => some (.yesOrNo true, rest)
    | _ => none
  | .resolution => readResolution cs
  | .ratio => readRatio cs
  | .word => readWord cs
  | .unknown => none

/-- A value of any kind. A ratio needs its slash here, and a number without a unit is no
length. -/
def readAny (cs : List Component) : Read FeatureValue :=
  (readFraction cs).or <| (readKind .number cs).or <| (readKind .length cs).or <|
    (readResolution cs).or <| (readEnvironment cs).or (readWord cs)

/-- A value, of the kind that is asked for if possible. -/
def read (k : Feature.Kind) (cs : List Component) : Read FeatureValue :=
  (readKind k cs).or (readAny cs)

/-! ## Writing -/

/-- A value as text. -/
def text : FeatureValue → List Char
  | .length c => c.text
  | .number n => numberText n
  | .whole n => (toString n).toList
  | .yesOrNo b => if b then ['1'] else ['0']
  | .resolution n unit => Quantity.withUnit n unit.toList
  | .ratio m n => numberText m ++ if n == 1 then [] else '/' :: numberText n
  | .word name => Token.identText name
  | .environment s => s

end FeatureValue

end ResponsiveCss
