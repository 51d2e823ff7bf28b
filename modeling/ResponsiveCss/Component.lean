-- Components: tokens nested by their brackets. White space and comments are
-- gone; what came behind white space remembers it. Brackets that are still
-- open at the end of the text are closed there.
import ResponsiveCss.Token.Basic

namespace ResponsiveCss

/-- A token, or what stands between an opening bracket and the one that closes it. A closing
bracket that matches nothing is a token like any other. -/
inductive Component where
  | token (spaced : Bool) (t : Token)
  | group (spaced : Bool) (opening : Token) (inside : List Component)
deriving Repr

namespace Component

/-- The component came behind white space. -/
def spaced : Component → Bool
  | .token spaced _ => spaced
  | .group spaced _ _ => spaced

/-- The component is a token of this kind. -/
def isToken (kind : Token.Kind) : Component → Bool
  | .token _ t => t.kind == kind
  | .group .. => false

/-- The component is this lone character. -/
def isDelim (c : Char) : Component → Bool
  | .token _ t => t.kind == .delim && t.text == [c]
  | .group .. => false

/-- The name of an identifier, with its escapes resolved. -/
def name? : Component → Option (List Char)
  | .token _ t => if t.kind = .ident then some t.identName else none
  | .group .. => none

/-- The component is this identifier, in whatever case. -/
def isIdent (name : String) (c : Component) : Bool :=
  c.name?.any (Text.sameLetters · name.toList)

/-- The component is a group in these brackets. -/
def isGroup (b : Bracket) : Component → Bool
  | .token .. => false
  | .group _ opening _ => opening.kind == .opening b

/-- The name of a call and what stands between its parentheses. -/
def call? : Component → Option (List Char × List Component)
  | .token .. => none
  | .group _ opening inside =>
    if opening.kind = .call then some (opening.callName, inside) else none

/-! ## Faults -/

mutual

/-- There is no broken string or url and no bracket without its partner in the component. -/
def isSound : Component → Bool
  | .token _ t => !t.kind.isFault
  | .group _ _ inside => areSound inside

/-- All of these components are sound. -/
def areSound : List Component → Bool
  | [] => true
  | c :: cs => c.isSound && areSound cs

end

/-! ## Nesting tokens -/

/-- A group whose closing bracket has not come yet. -/
structure Level where
  spaced : Bool
  opening : Token
  /-- The bracket that closes the group. -/
  closer : Bracket
  /-- The components in front of the group, last first. -/
  before : List Component

/-- The components so far: the open groups, innermost first, the components behind the
innermost opening bracket, last first, and whether white space came last. -/
structure Nesting where
  levels : List Level
  components : List Component
  spaced : Bool

namespace Nesting

/-- A component behind the others. -/
def push (n : Nesting) (c : Component) : Nesting := ⟨n.levels, c :: n.components, false⟩

/-- A bracket that opens a group. -/
def enter (n : Nesting) (t : Token) (closer : Bracket) : Nesting :=
  ⟨⟨n.spaced, t, closer, n.components⟩ :: n.levels, [], false⟩

/-- A closing bracket. -/
def leave (n : Nesting) (t : Token) (b : Bracket) : Nesting :=
  match n.levels with
  | [] => n.push (.token n.spaced t)
  | l :: more =>
    if l.closer = b then
      ⟨more, .group l.spaced l.opening n.components.reverse :: l.before, false⟩
    else n.push (.token n.spaced t)

/-- The next token. -/
def step (n : Nesting) (t : Token) : Nesting :=
  match t.kind with
  | .space => { n with spaced := true }
  | .comment => n
  | .opening b => n.enter t b
  | .call => n.enter t .round
  | .closing b => n.leave t b
  | _ => n.push (.token n.spaced t)

/-- The components once all groups are closed. -/
def closeAll : List Level → List Component → List Component
  | [], components => components.reverse
  | l :: more, components =>
    closeAll more (.group l.spaced l.opening components.reverse :: l.before)

end Nesting

/-- The components of a text. -/
def ofText (s : List Char) : List Component :=
  let n := (Token.ofText s).foldl Nesting.step ⟨[], [], false⟩
  Nesting.closeAll n.levels n.components

/-! ## Lists of components -/

/-- The pieces between the tokens of a kind: one more than there are such tokens. -/
def pieces (kind : Token.Kind) (cs : List Component) : List (List Component) :=
  cs.splitOnP (·.isToken kind)

end Component

end ResponsiveCss
