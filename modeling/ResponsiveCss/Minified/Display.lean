-- The values of the property `display` in their shortest form: one word, or
-- what the element is to its neighbours and what it is to its content.
import ResponsiveCss.Component

namespace ResponsiveCss.Minified.Display

/-! ## Words -/

/-- The words that stand alone. -/
def loneWords : List String :=
  ["none", "contents", "table-row-group", "table-header-group", "table-footer-group", "table-row",
    "table-cell", "table-column-group", "table-column", "table-caption", "ruby-base", "ruby-text",
    "ruby-base-container", "ruby-text-container"]

/-- What an element can be to its neighbours. -/
def outsides : List String := ["block", "inline", "run-in"]

/-- What an element can be to its content. -/
def insides : List String :=
  ["flow", "flow-root", "table", "flex", "-webkit-flex", "-ms-flexbox", "-webkit-box", "-moz-box",
    "grid", "ruby"]

/-- The short words for an inline element, by what it is to its content. -/
def inlineWords : List (String × String) :=
  [("flow-root", "inline-block"), ("table", "inline-table"), ("flex", "inline-flex"),
    ("-webkit-flex", "-webkit-inline-flex"), ("-ms-flexbox", "-ms-inline-flexbox"),
    ("-webkit-box", "-webkit-inline-box"), ("-moz-box", "-moz-inline-box"),
    ("grid", "inline-grid")]

/-! ## Reading -/

/-- What an element is: the words found so far. -/
structure Roles where
  outside : Option String
  inside : Option String
  listItem : Bool
deriving DecidableEq, Repr

/-- The roles with one more word. Each role is given once at most. -/
def Roles.add? (r : Roles) (word : String) : Option Roles :=
  if word = "list-item" then some { r with listItem := true }
  else if outsides.contains word && r.outside.isNone then some { r with outside := some word }
  else if insides.contains word && r.inside.isNone then some { r with inside := some word }
  else none

/-- The words that name roles, unless a list item is given a layout of its own. -/
def roles? (words : List String) : Option Roles := do
  let r ← words.foldlM Roles.add? ⟨none, none, false⟩
  if !r.listItem || ["flow", "flow-root"].contains (r.inside.getD "flow") then return r else none

/-! ## Writing -/

/-- Roles in words. What goes without saying is left out. -/
def Roles.text (r : Roles) : String :=
  let inside := r.inside.getD "flow"
  let usual := if inside = "ruby" then "inline" else "block"
  let outside := r.outside.getD usual
  match if outside = "inline" && !r.listItem then inlineWords.lookup inside else none with
  | some word => word
  | none =>
    " ".intercalate
      ((if outside ≠ usual || (inside = "flow" && !r.listItem) then [outside] else []) ++
        (if inside = "flow" then [] else [inside]) ++ if r.listItem then ["list-item"] else [])

/-- The value that components spell. -/
def read? (cs : List Component) : Option String := do
  let words ← cs.mapM fun c => c.name?.map fun n => String.ofList (n.map Char.toLower)
  match words with
  | [] => none
  | [word] =>
    if loneWords.contains word || inlineWords.any (·.2 == word) then return word
    else return (← roles? [word]).text
  | words => return (← roles? words).text

end ResponsiveCss.Minified.Display
