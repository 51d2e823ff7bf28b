-- Writing a stylesheet as text: compact, all on one line, or pretty, one node
-- a line and two spaces of indentation for each block around it. A third style
-- leaves the compact text to a minifier, of which nothing is known here.
import ResponsiveCss.Diagnostic
import ResponsiveCss.Stylesheet.Basic

namespace ResponsiveCss

/-! ## Parts that both forms share -/

/-- A declaration with the semicolon that ends it. -/
def Declaration.render (d : Declaration) : String :=
  d.property ++ ": " ++ d.value ++ (if d.important then " !important" else "") ++ ";"

/-- The beginning of an at-rule: its name, and its parameters if it has any. -/
def AtRule.heading (name params : String) : String :=
  "@" ++ name ++ if params = "" then "" else " " ++ params

/-- A comment between its marks. -/
def commentText (text : String) : String := "/* " ++ text ++ " */"

namespace Node

/-! ## Compact -/

mutual

/-- A node on one line. -/
def compact : Node → String
  | .statement name params _ => AtRule.heading name params ++ ";"
  | .block name params nodes _ => AtRule.heading name params ++ compactBlock nodes
  | .rule selector nodes _ => selector ++ compactBlock nodes
  | .declaration d => d.render
  | .comment text _ => commentText text

/-- A block with the space in front of it. -/
def compactBlock : List Node → String
  | [] => " \x7b\x7d"
  | n :: more => " \x7b " ++ compact n ++ compactMore more ++ " \x7d"

/-- Nodes that follow another one, each behind a space. -/
def compactMore : List Node → String
  | [] => ""
  | n :: more => " " ++ compact n ++ compactMore more

end

/-- Nodes with one space between them. -/
def compactAll : List Node → String
  | [] => ""
  | n :: more => compact n ++ compactMore more

/-! ## Pretty -/

/-- The indentation inside `depth` blocks. -/
def indent (depth : Nat) : String := String.ofList (List.replicate (2 * depth) ' ')

mutual

/-- A node inside `depth` blocks. -/
def pretty (depth : Nat) : Node → String
  | .statement name params _ => indent depth ++ AtRule.heading name params ++ ";"
  | .block name params nodes _ =>
    indent depth ++ AtRule.heading name params ++ prettyBlock depth nodes
  | .rule selector nodes _ => indent depth ++ selector ++ prettyBlock depth nodes
  | .declaration d => indent depth ++ d.render
  | .comment text _ => indent depth ++ commentText text

/-- The block of a node inside `depth` blocks, with the space in front of it. -/
def prettyBlock (depth : Nat) : List Node → String
  | [] => " \x7b\x7d"
  | n :: more =>
    " \x7b\n" ++ pretty (depth + 1) n ++ "\n" ++ prettyLines (depth + 1) more ++ indent depth ++
      "\x7d"

/-- Nodes inside `depth` blocks, each with the line break that ends it. -/
def prettyLines (depth : Nat) : List Node → String
  | [] => ""
  | n :: more => pretty depth n ++ "\n" ++ prettyLines depth more

end

end Node

namespace Stylesheet

/-- The stylesheet on one line. -/
def compact (s : Stylesheet) : String := Node.compactAll s.nodes

/-- The stylesheet with one node a line. -/
def pretty (s : Stylesheet) : String := Node.prettyLines 0 s.nodes

end Stylesheet

/-! ## Minifiers -/

/-- Something that reads all of CSS and writes it as short as it can. -/
class Minifier where
  /-- The short form of a text, or why there is none. -/
  minify (css : String) : Except String String
  /-- The text is CSS and begins with a media rule. -/
  beginsWithMedia (css : String) : Bool

/-! ## Styles of output -/

/-- How a stylesheet is written. -/
inductive OutputStyle where
  | compact
  | pretty
  | minified
deriving DecidableEq, Repr

/-- A style by its name. -/
def OutputStyle.ofName? : String → Option OutputStyle
  | "compact" => some .compact
  | "pretty" => some .pretty
  | "minified" => some .minified
  | _ => none

/-- The text of a stylesheet. Not every stylesheet can be minified. -/
def Stylesheet.render [Minifier] (s : Stylesheet) : OutputStyle → Except Error String
  | .compact => .ok s.compact
  | .pretty => .ok s.pretty
  | .minified => (Minifier.minify s.compact).mapError @Error.minify

end ResponsiveCss
