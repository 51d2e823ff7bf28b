-- The features of media and of containers: their names and the kinds of their
-- values. A name may begin with a bound for the value.
import ResponsiveCss.Component
import ResponsiveCss.Token.Parts

namespace ResponsiveCss

/-- The order between a feature and a value. -/
inductive Comparison where
  | less
  | lessEqual
  | equal
  | greaterEqual
  | greater
deriving DecidableEq, Repr

/-- The comparison seen from the other side. -/
def Comparison.flipped : Comparison → Comparison
  | .less => .greater
  | .lessEqual => .greaterEqual
  | .equal => .equal
  | .greaterEqual => .lessEqual
  | .greater => .less

namespace Feature

/-! ## Kinds of values -/

/-- What the values of a feature are. -/
inductive Kind where
  | length
  | number
  | whole
  | yesOrNo
  | resolution
  | ratio
  | word
  | unknown
deriving DecidableEq, Repr

/-- Values of this kind come in an order. -/
def Kind.isOrdered : Kind → Bool
  | .yesOrNo | .word => false
  | _ => true

/-- A value of one kind will do for another; it always does if one of them is unknown. -/
def Kind.fits (a b : Kind) : Bool := a == b || a == .unknown || b == .unknown

/-- Features that are known, with the kinds of their values. -/
abbrev Known := List (String × Kind)

/-- The features of containers. -/
def ofContainers : Known :=
  [("width", .length), ("height", .length), ("inline-size", .length), ("block-size", .length),
    ("aspect-ratio", .ratio), ("orientation", .word)]

/-- The features of media. -/
def ofMedia : Known :=
  [("width", .length), ("height", .length), ("aspect-ratio", .ratio), ("orientation", .word),
    ("overflow-block", .word), ("overflow-inline", .word),
    ("horizontal-viewport-segments", .whole), ("vertical-viewport-segments", .whole),
    ("display-mode", .word), ("resolution", .resolution), ("scan", .word), ("grid", .yesOrNo),
    ("update", .word), ("environment-blending", .word), ("color", .whole), ("color-index", .whole),
    ("monochrome", .whole), ("color-gamut", .word), ("dynamic-range", .word),
    ("inverted-colors", .word), ("pointer", .word), ("hover", .word), ("any-pointer", .word),
    ("any-hover", .word), ("nav-controls", .word), ("video-color-gamut", .word),
    ("video-dynamic-range", .word), ("scripting", .word), ("prefers-reduced-motion", .word),
    ("prefers-reduced-transparency", .word), ("prefers-contrast", .word), ("forced-colors", .word),
    ("prefers-color-scheme", .word), ("prefers-reduced-data", .word), ("device-width", .length),
    ("device-height", .length), ("device-aspect-ratio", .ratio),
    ("-webkit-device-pixel-ratio", .number), ("-moz-device-pixel-ratio", .number)]

/-! ## Names -/

/-- A feature that is named: how its name is written, the kind of its values, and the bound that
the name asks for. -/
structure Named where
  text : List Char
  kind : Kind
  bound : Option Comparison
deriving DecidableEq, Repr

/-- The text without a beginning that it has in whatever case. -/
def without? (start s : List Char) : Option (List Char) :=
  if Text.sameLetters (s.take start.length) start then some (s.drop start.length) else none

/-- The bound that a name begins with, and the name behind it. -/
def bound (s : List Char) : Option Comparison × List Char :=
  match without? "min-".toList s, without? "max-".toList s with
  | some rest, _ => (some .greaterEqual, rest)
  | none, some rest => (some .lessEqual, rest)
  | none, none => (none, s)

/-- The bound of a name and the name without it. One prefix stands before the bound. -/
def splitBound (name : List Char) : Option Comparison × List Char :=
  let mark := "-webkit-".toList
  match without? mark name with
  | some rest => ((bound rest).1, mark ++ (bound rest).2)
  | none => bound name

/-- The feature with this name. One that is not known keeps all of its name. -/
def named (known : Known) (name : List Char) : Named :=
  let (how, rest) := splitBound name
  match known.find? fun f => Text.sameLetters f.1.toList rest with
  | some f => if ['-', '-'].isPrefixOf name then ⟨Token.identText name, .unknown, none⟩
    else ⟨f.1.toList, f.2, how⟩
  | none => ⟨Token.identText name, .unknown, none⟩

/-- The feature that a component names. -/
def read? (known : Known) (c : Component) : Option Named := c.name?.map (named known)

end Feature

end ResponsiveCss
