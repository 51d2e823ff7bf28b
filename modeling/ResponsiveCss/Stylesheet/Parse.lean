-- Reading a stylesheet: one pass over its tokens. A node begins with a
-- prelude, the text up to `;` or `{` outside of brackets; blocks that are
-- still open at the end of the text are closed there.
import ResponsiveCss.Diagnostic
import ResponsiveCss.Stylesheet.Basic
import ResponsiveCss.Token.Basic

namespace ResponsiveCss

open Text

/-! ## Declarations -/

namespace Declaration

/-- The mark that a declaration takes precedence. -/
def importantMark : List Char := "!important".toList

/-- The value before the mark at its end, if there is one in whatever case. -/
def dropMark? (value : List Char) : Option (List Char) :=
  let n := value.length - importantMark.length
  if sameLetters (value.drop n) importantMark then some (trimEnd (value.take n)) else none

/-- The declaration that a text is. Its first colon ends the property, which may not be
blank; the value may. -/
def ofText (text : List Char) (source : Location) : Except ParseError Declaration :=
  match splitFirst? ':' text with
  | none => .error ⟨.unknownWord (String.ofList (trim text)), source⟩
  | some (before, behind) =>
    let property := trim before
    if property = [] then .error ⟨.noProperty, source⟩
    else
      let value := trim behind
      match dropMark? value with
      | some rest => .ok ⟨String.ofList property, String.ofList rest, true, source⟩
      | none => .ok ⟨String.ofList property, String.ofList value, false, source⟩

end Declaration

namespace Stylesheet

/-! ## The beginning of a node -/

/-- A node whose end is not known yet. A group, from an opening bracket to the closing one
that matches, counts as read only once another token follows it: `kept` and `noted` stay at
its opening bracket until then. -/
structure Prelude where
  /-- The name of an at-rule; a style rule or a declaration has none. -/
  keyword : Option String
  /-- The place where the node begins. -/
  start : Location
  /-- The text read so far, last character first. -/
  read : List Char
  /-- The text that counts if `;` or `{` is next, last character first. -/
  kept : List Char
  /-- The place that counts if the next token is a fault. -/
  noted : Location
  /-- The open groups, innermost first. -/
  groups : List Bracket
deriving DecidableEq, Repr

namespace Prelude

/-- A prelude of which nothing has been read. -/
def empty (keyword : Option String) (start noted : Location) : Prelude :=
  ⟨keyword, start, [], [], noted, []⟩

/-- The prelude with a token that stands in no group. -/
def push (p : Prelude) (t : Token) : Prelude :=
  let read := t.text.reverse ++ p.read
  { p with read, kept := read, noted := t.stop }

/-- The prelude with a token that opens a group. -/
def enter (p : Prelude) (b : Bracket) (t : Token) : Prelude :=
  { p.push t with groups := [b] }

/-- The groups after a token: brackets open groups, and a closing bracket closes the innermost
group if it matches it, and is passed over if not. -/
def regroup (groups : List Bracket) : Token.Kind → List Bracket
  | .opening b => b :: groups
  | .call => .round :: groups
  | .closing b => if groups.head? = some b then groups.tail else groups
  | _ => groups

/-- The prelude with a token inside a group. -/
def pushInside (p : Prelude) (t : Token) : Prelude :=
  { p with read := t.text.reverse ++ p.read, groups := regroup p.groups t.kind }

/-- The node that ends here without a block, with its text last character first. -/
def statement (p : Prelude) (text : List Char) : Except ParseError Node :=
  match p.keyword with
  | some name => .ok (.statement name (String.ofList (trim text.reverse)) p.start)
  | none => (Declaration.ofText text.reverse p.start).map .declaration

end Prelude

/-! ## Open blocks -/

/-- A block whose closing brace has not come yet. -/
structure OpenBlock where
  /-- The name of an at-rule; a style rule has none. -/
  keyword : Option String
  /-- The parameters of the at-rule or the selector of the style rule. -/
  text : String
  /-- The place where the node begins. -/
  start : Location
  /-- The nodes in front of this one, last first. -/
  before : List Node
deriving Repr

/-- The node of a block with these nodes in it. -/
def OpenBlock.close (b : OpenBlock) (nodes : List Node) : Node :=
  match b.keyword with
  | some name => .block name b.text nodes b.start
  | none => .rule b.text nodes b.start

/-- The block that a prelude opens behind the nodes `before`. -/
def Prelude.block (p : Prelude) (before : List Node) : OpenBlock :=
  ⟨p.keyword, String.ofList (trim p.kept.reverse), p.start, before⟩

/-! ## One token at a time -/

/-- How far the reading has come. -/
structure Reading where
  /-- The open blocks, innermost first. -/
  enclosing : List OpenBlock
  /-- The finished nodes of the innermost block, last first. -/
  nodes : List Node
  /-- The node being read. -/
  pending : Option Prelude
deriving Repr

namespace Reading

/-- Nothing has been read. -/
def start : Reading := ⟨[], [], none⟩

/-- A finished node behind the others. -/
def add (r : Reading) (n : Node) : Reading := { r with nodes := n :: r.nodes }

/-- The node being read ends here, as at the end of the text. -/
def endPending (r : Reading) : Except ParseError Reading :=
  match r.pending with
  | none => .ok r
  | some p => (p.statement p.read).map fun n => { r with pending := none }.add n

/-- The innermost block ends here; `fault` is the place of its brace if there is none. -/
def endBlock (r : Reading) (fault : Location) : Except ParseError Reading :=
  match r.enclosing with
  | [] => .error ⟨.unexpectedBrace, fault⟩
  | b :: more => r.endPending.map fun r => ⟨more, b.close r.nodes.reverse :: b.before, none⟩

/-- A token of the node being read. -/
def scan (r : Reading) (p : Prelude) (t : Token) : Except ParseError Reading :=
  match p.groups with
  | _ :: _ => .ok { r with pending := some (p.pushInside t) }
  | [] =>
    match t.kind with
    | .semicolon => (p.statement p.kept).map fun n => { r with pending := none }.add n
    | .opening .curly => .ok ⟨p.block r.nodes :: r.enclosing, [], none⟩
    | .closing .curly => { r with pending := some p }.endBlock p.noted
    | .badString => .error ⟨.unclosedString, p.noted⟩
    | .badUrl => .error ⟨.malformedUrl, p.noted⟩
    | .opening b => .ok { r with pending := some (p.enter b t) }
    | .call => .ok { r with pending := some (p.enter .round t) }
    | _ => .ok { r with pending := some (p.push t) }

/-- The next token. Between nodes, white space and semicolons are passed over. -/
def step (r : Reading) (t : Token) : Except ParseError Reading :=
  match r.pending with
  | some p => r.scan p t
  | none =>
    match t.kind with
    | .space | .semicolon => .ok r
    | .comment => .ok (r.add (.comment (String.ofList (trim t.commentBody)) t.start))
    | .atKeyword => .ok { r with pending := some (.empty (some t.keyword) t.start t.stop) }
    | .closing .curly => r.endBlock t.start
    | _ => r.scan (.empty none t.start t.start) t

/-- The nodes of the text once all blocks are closed. -/
def closeAll : List OpenBlock → List Node → List Node
  | [], nodes => nodes.reverse
  | b :: more, nodes => closeAll more (b.close nodes.reverse :: b.before)

/-- The end of the text. -/
def finish (r : Reading) : Except ParseError (List Node) :=
  r.endPending.map fun r => closeAll r.enclosing r.nodes

end Reading

/-! ## The whole text -/

/-- The nodes that a list of tokens spells. -/
def nodesOf (tokens : List Token) : Except ParseError (List Node) :=
  tokens.foldlM Reading.step Reading.start >>= Reading.finish

/-- The stylesheet that a text spells. -/
def parse (text : String) : Except ParseError Stylesheet :=
  (nodesOf (Token.ofText text.toList)).map Stylesheet.mk

end Stylesheet

end ResponsiveCss
