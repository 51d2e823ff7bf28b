-- Declarations in their shortest form. Colors, displays and distances from a
-- side are understood; other values are written token by token.
import ResponsiveCss.Minified.Display
import ResponsiveCss.Value.Plain
import ResponsiveCss.Value.Read

namespace ResponsiveCss.Minified

open Value

/-! ## Properties -/

/-- The properties whose values are understood. -/
inductive Property where
  | color
  | display
  /-- The distance from a side. -/
  | offset (side : String)
deriving DecidableEq, Repr

/-- The name of a property. -/
def Property.name : Property → String
  | .color => "color"
  | .display => "display"
  | .offset side => side

/-- The properties by name. -/
def properties : List Property :=
  [.color, .display, .offset "top", .offset "right", .offset "bottom", .offset "left"]

/-- The property with a name, in whatever case. -/
def propertyNamed? (name : List Char) : Option Property :=
  properties.find? fun p => Text.sameLetters p.name.toList name

/-! ## Values -/

/-- A color, which may be the one of the text around. -/
def colorValue? : List Component → Option (List Char)
  | [c] =>
    if c.isIdent "currentcolor" then some "currentColor".toList
    else (Color.read? c).map Color.text
  | _ => none

/-- A distance: a length, a percentage, or what comes of itself. -/
def offsetValue? : List Component → Option (List Char)
  | [] => none
  | c :: cs =>
    if c.isIdent "auto" && cs.isEmpty then some "auto".toList
    else
      match readLengthOrPercentage (c :: cs) with
      | some (value, []) => some value.text
      | _ => none

/-- A value that the property understands. -/
def Property.value? (p : Property) (cs : List Component) : Option (List Char) :=
  match p with
  | .color => colorValue? cs
  | .display => (Display.read? cs).map String.toList
  | .offset _ => offsetValue? cs

/-! ## Declarations -/

/-- A declaration: its text up to the mark of importance, and whether it has that mark. -/
structure Setting where
  text : List Char
  important : Bool
deriving DecidableEq, Repr

/-- The components without the mark of importance at their end, if they have it. -/
def dropImportant? (cs : List Component) : Option (List Component) :=
  match cs.reverse with
  | word :: mark :: more =>
    if mark.isDelim '!' && word.isIdent "important" then some more.reverse else none
  | _ => none

/-- The words that any property may have for a value. -/
def universalWords : List String := ["initial", "inherit", "unset", "revert", "revert-layer"]

/-- The value of the property that stands for all others: one word. -/
def universalValue? : List Component → Option (List Char)
  | [c] => (universalWords.find? fun w => c.isIdent w).map String.toList
  | _ => none

/-- The declaration of a property with a name. -/
def declare? (name : List Char) (important : Bool) (value : List Component) : Option Setting :=
  if value.any (·.isDelim '!') then none
  else if Text.sameLetters name "all".toList then
    (universalValue? value).map fun s => ⟨"all:".toList ++ s, important⟩
  else
    let p := propertyNamed? name
    let name := p.elim (Token.identText name) fun p => p.name.toList
    ((p.bind (·.value? value)).or (plain? value)).map fun s => ⟨name ++ ':' :: s, important⟩

/-- The declaration that components spell: a property, a colon and a value. Only a custom property
may have a block in its value. -/
def setting? : List Component → Option Setting
  | property :: colon :: cs =>
    property.name?.bind fun name =>
      if !colon.isToken .colon || (!isDashed name && cs.any (·.isGroup .curly)) then none
      else
        match dropImportant? cs with
        | some value => declare? name true value
        | none => declare? name false cs
  | _ => none

/-- A declaration in full. -/
def Setting.render (s : Setting) : List Char :=
  s.text ++ if s.important then "!important".toList else []

/-- Declarations in full with semicolons between them, the important ones last. -/
def renderSettings (all : List Setting) : List Char :=
  [';'].intercalate
    ((all.filter (!·.important) ++ all.filter (·.important)).map Setting.render)

/-- The text of a block that holds nothing but declarations. -/
def declarations? (inside : List Component) : Option (List Char) :=
  (((Component.pieces .semicolon inside).filter (!·.isEmpty)).mapM setting?).map renderSettings

end ResponsiveCss.Minified
