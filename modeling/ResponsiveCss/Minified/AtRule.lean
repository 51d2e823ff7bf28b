-- At-rules: the conditions or names between the keyword of one and its block,
-- and what its block may hold.
import ResponsiveCss.MediaQuery.Render
import ResponsiveCss.Minified.Declaration
import ResponsiveCss.Minified.Selector

namespace ResponsiveCss.Minified

open Value

/-! ## The at-rules by their keywords -/

/-- Where a rule stands. -/
inductive Surroundings where
  /-- At the top of a style sheet. -/
  | sheet
  /-- In the block of an at-rule. -/
  | block
  /-- In a style rule, or in the block of an at-rule in one. -/
  | style
deriving DecidableEq, Repr

/-- Where the rules in a block stand. -/
def Surroundings.inner : Surroundings → Surroundings
  | .style => .style
  | _ => .block

/-- The at-rules that mean something. -/
inductive AtRule where
  | media
  | supports
  | container
  | layer
  | scope
  | startingStyle
  | document
  | nest
  | fontFace
  | fontFeatures
  | fontPalette
  | counterStyle
  | viewport
  | keyframes
  | page
  | viewTransition
  | property
  | charset
  /-- One that must come before all other rules. -/
  | early
  /-- Any other one. -/
  | other
deriving DecidableEq, Repr

namespace AtRule

/-- The keywords of at-rules. -/
def keywords : List (String × AtRule) :=
  [("media", .media), ("supports", .supports), ("container", .container), ("layer", .layer),
    ("scope", .scope), ("starting-style", .startingStyle), ("-moz-document", .document),
    ("nest", .nest), ("font-face", .fontFace), ("font-feature-values", .fontFeatures),
    ("font-palette-values", .fontPalette), ("counter-style", .counterStyle),
    ("viewport", .viewport), ("-ms-viewport", .viewport), ("keyframes", .keyframes),
    ("-webkit-keyframes", .keyframes), ("-moz-keyframes", .keyframes),
    ("-o-keyframes", .keyframes), ("-ms-keyframes", .keyframes), ("page", .page),
    ("view-transition", .viewTransition), ("property", .property), ("charset", .charset),
    ("import", .early), ("namespace", .early)]

/-- The at-rule has its meaning in these surroundings only. -/
def home? : AtRule → Option Surroundings
  | .property | .charset | .early => some .sheet
  | .nest => some .style
  | _ => none

/-- The at-rule with a keyword, in whatever case. -/
def named (place : Surroundings) (keyword : String) : AtRule :=
  match keywords.find? fun k => Text.sameLetters k.1.toList keyword.toList with
  | some (_, r) => if r.home?.all (· = place) then r else .other
  | none => .other

/-- The at-rule may stand in a style rule. -/
def inStyle : AtRule → Bool
  | .media | .supports | .container | .layer | .scope | .startingStyle | .document | .nest
  | .other => true
  | _ => false

end AtRule

/-! ## Between the keyword and the block -/

/-- A condition that asks what is supported: anything in parentheses, or a call. -/
def isSupportsPart (c : Component) : Bool := (c.isGroup .round || c.call?.isSome) && c.isSound

/-- More conditions, each behind this word. -/
def areSupportsParts (word : String) : List Component → Bool
  | [] => true
  | [_] => false
  | w :: c :: cs => w.isIdent word && isSupportsPart c && areSupportsParts word cs

/-- Conditions that ask what is supported: one, one with `not`, or some with the same word between
them. -/
def isSupports : List Component → Bool
  | [] => false
  | [c] => isSupportsPart c
  | c :: d :: cs =>
    if c.isIdent "not" then isSupportsPart d && cs.isEmpty
    else
      isSupportsPart c &&
        (areSupportsParts "and" (d :: cs) || areSupportsParts "or" (d :: cs))

/-- The name of a layer: names with dots between them. -/
def isLayerName : List Component → Bool
  | [] => false
  | [c] => c.name?.isSome
  | [_, _] => false
  | c :: dot :: next :: cs =>
    c.name?.isSome && dot.isDelim '.' && !dot.spaced && !next.spaced && isLayerName (next :: cs)

/-- How many layers are named between commas. -/
def layerCount? (cs : List Component) : Option Nat :=
  let names := Component.pieces .comma cs
  if cs.isEmpty then some 0 else if names.all isLayerName then some names.length else none

/-- The component says which pages are meant. -/
def isPageWord (c : Component) : Bool :=
  ["left", "right", "first", "last", "blank"].any fun w => c.isIdent w

/-- Words with colons that say which pages are meant. -/
def arePageWords : List Component → Bool
  | [] => true
  | [_] => false
  | colon :: word :: cs =>
    colon.isToken .colon && !colon.spaced && isPageWord word && arePageWords cs

/-- Some pages: a name, words with colons, or both. -/
def isPage : List Component → Bool
  | [] => false
  | c :: cs =>
    if (customName? c).isSome then arePageWords cs
    else
      match cs with
      | word :: cs => c.isToken .colon && isPageWord word && arePageWords cs
      | [] => false

/-- The name of a family of fonts: a string, or words. -/
def isFamily : List Component → Bool
  | [] => false
  | [c] => c.isToken .string || c.name?.isSome
  | cs => cs.all fun c => c.name?.isSome

/-- The name of keyframes. -/
def isKeyframesName : List Component → Bool
  | [c] => c.isToken .string || ((customName? c).isSome && !c.isIdent "none")
  | _ => false

/-- The limits of a scope: where it begins and where it ends. -/
def isScope : List Component → Bool
  | [] => true
  | [c] => c.isGroup .round
  | [word, c] => word.isIdent "to" && c.isGroup .round
  | [c, word, d] => c.isGroup .round && word.isIdent "to" && d.isGroup .round
  | _ => false

/-- The documents that are meant: all of them. -/
def isDocument : List Component → Bool
  | [c] =>
    match c.call? with
    | some (name, inside) =>
      Text.sameLetters name "url-prefix".toList &&
        match inside with
        | [] => true
        | [.token _ t] => t.kind = .string && (stringContent t).isEmpty
        | _ => false
    | none => false
  | _ => false

/-- A condition on containers. -/
def containerCondition? (cs : List Component) : Option (List Char) :=
  match MediaQuery.readCondition .container true cs with
  | .ok c => some c.render
  | .error _ => none

/-- The containers that are meant: a name, a condition, or both. -/
def container? : List Component → Option (List Char)
  | [] => none
  | c :: cs =>
    match customName? c with
    | none => containerCondition? (c :: cs)
    | some name =>
      if ["none", "and", "not", "or"].any fun w => c.isIdent w then containerCondition? (c :: cs)
      else if cs.isEmpty then some (Token.identText name)
      else (containerCondition? cs).map fun s => Token.identText name ++ ' ' :: s

/-! ## Blocks without rules -/

/-- A block of whose content only the sound parts count. -/
def anything (inside : List Component) : Option (List Char) :=
  some ((plainParts? true inside).getD [])

/-- What the boxes in a block are: their keywords, what each may hold, and whether declarations
may stand beside them. -/
structure Boxes where
  keywords : List String
  content? : List Component → Option (List Char)
  declares : Bool

namespace Boxes

/-- The component is an at-keyword. -/
def isKeyword (c : Component) : Bool := c.isToken .atKeyword

/-- What stands before a semicolon or at the end of the block. -/
def beside? (b : Boxes) (item : List Component) : Option (List (List Char)) :=
  if item.isEmpty then some []
  else if b.declares then (setting? item).map fun s => [s.render]
  else none

/-- One box, from its keyword and its block. -/
def box? (b : Boxes) (heading inside : List Component) : Option (List Char) :=
  match heading with
  | [.token _ t] =>
    let keyword := t.keyword.toLower
    if b.keywords.contains keyword then
      (b.content? inside).map fun s => '@' :: keyword.toList ++ '\x7b' :: s ++ ['\x7d']
    else none
  | _ => none

/-- The items of a block, where `item` is what came since the last one, last component first. -/
def items? (b : Boxes) (item : List Component) : List Component → Option (List (List Char))
  | [] => b.beside? item.reverse
  | c :: cs =>
    if c.isToken .semicolon then do return (← b.beside? item.reverse) ++ (← items? b [] cs)
    else if c.isGroup .curly && item.getLast?.any isKeyword then
      match c with
      | .group _ _ inside => do return (← b.box? item.reverse inside) :: (← items? b [] cs)
      | .token .. => none
    else items? b (c :: item) cs

/-- The text of a block with boxes. -/
def text? (b : Boxes) (inside : List Component) : Option (List Char) :=
  (b.items? [] inside).map [';'].intercalate

end Boxes

/-- The margins of a page. -/
def margins : Boxes where
  keywords :=
    ["top-left-corner", "top-left", "top-center", "top-right", "top-right-corner", "left-top",
      "left-middle", "left-bottom", "right-top", "right-middle", "right-bottom",
      "bottom-left-corner", "bottom-left", "bottom-center", "bottom-right", "bottom-right-corner"]
  content? := declarations?
  declares := true

/-- The declaration of a feature of a font: a name and whole numbers. -/
def fontFeature? : List Component → Option (List Char)
  | name :: colon :: n :: more =>
    if colon.isToken .colon && (n :: more).all isWholeNumber then
      name.name?.bind fun s =>
        (plainParts? true (n :: more)).map fun v => Token.identText s ++ ':' :: v
    else none
  | _ => none

/-- The features of a font. -/
def fontFeatures : Boxes where
  keywords :=
    ["stylistic", "historical-forms", "styleset", "character-variant", "swash", "ornaments",
      "annotation"]
  content? inside :=
    (((Component.pieces .semicolon inside).filter (!·.isEmpty)).mapM fontFeature?).map
      [';'].intercalate
  declares := false

/-- What the declaration of a custom property says about it. -/
inductive Trait where
  | universalSyntax
  | limitedSyntax
  | inheritance
  | initialValue
deriving DecidableEq, Repr

/-- What one declaration says about a custom property. -/
def trait? : List Component → Option Trait
  | name :: colon :: value =>
    if !colon.isToken .colon then none
    else if name.isIdent "initial-value" then some .initialValue
    else
      match value with
      | [.token spaced t] =>
        let c := Component.token spaced t
        if name.isIdent "syntax" && t.kind = .string then
          some (if stringContent t = ['*'] then .universalSyntax else .limitedSyntax)
        else if name.isIdent "inherits" && (c.isIdent "true" || c.isIdent "false") then
          some .inheritance
        else none
      | _ => none
  | _ => none

/-- The declaration of a custom property: whether it is inherited, what its values are, and the
first of them unless they may be anything. -/
def customProperty? (inside : List Component) : Option (List Char) := do
  let traits ← ((Component.pieces .semicolon inside).filter (!·.isEmpty)).mapM trait?
  if traits.contains .inheritance &&
      (traits.contains .universalSyntax ||
        (traits.contains .limitedSyntax && traits.contains .initialValue)) then
    plainParts? true inside
  else none

/-! ## Rules with a block -/

/-- A rule up to its block. -/
inductive Opened where
  | style (selectors : List Char)
  | media (queries : List MediaQuery)
  /-- The block holds rules as its surroundings do. -/
  | rules (heading : List Char)
  /-- The block holds something else. -/
  | content (heading : List Char) (read : List Component → Option (List Char))

/-- The keyword of an at-rule and what follows it. -/
def headingText (keyword : String) (text : List Char) : List Char :=
  '@' :: Token.identText keyword.toList ++ if text.isEmpty then [] else ' ' :: text

/-- An at-rule with a block, from its keyword and what stands between the two. -/
def atBlock? (place : Surroundings) (keyword : String) (cs : List Component) : Option Opened :=
  let rule := AtRule.named place keyword
  let heading : Option (List Char) := (plainParts? true cs).map (headingText keyword)
  let rules (fits : Bool) : Option Opened := if fits then heading.map .rules else none
  let content (fits : Bool) (read : List Component → Option (List Char)) : Option Opened :=
    if fits then heading.map (.content · read) else none
  if place = .style && !rule.inStyle then none
  else
    match rule with
    | .media => (MediaQuery.readList? cs).map .media
    | .supports =>
      if isSupports cs then
        some (.rules (headingText keyword ((plainParts? true cs).getD [])))
      else none
    | .container => (container? cs).map fun s => .rules (headingText keyword s)
    | .layer => rules ((layerCount? cs).any (· ≤ 1))
    | .scope =>
      if isScope cs then some (.rules (headingText keyword ((plainParts? true cs).getD [])))
      else none
    | .startingStyle => rules cs.isEmpty
    | .document => rules (isDocument cs)
    | .nest => (containingSelectors? cs).map .style
    | .fontFace | .viewTransition => content cs.isEmpty anything
    | .fontFeatures => content ((Component.pieces .comma cs).all isFamily) fontFeatures.text?
    | .fontPalette => content (isDashedName cs) anything
    | .counterStyle => content (isCustomName cs) declarations?
    | .viewport => content cs.isEmpty declarations?
    | .keyframes => content (isKeyframesName cs) anything
    | .page => content (cs.isEmpty || (Component.pieces .comma cs).all isPage) margins.text?
    | .property => content (isDashedName cs) customProperty?
    | .charset | .early => none
    | .other => content true (plainParts? true)
where
  /-- A name that begins with two hyphens. -/
  isDashedName : List Component → Bool
    | [c] => c.name?.any isDashed
    | _ => false
  /-- A name that an author may choose. -/
  isCustomName : List Component → Bool
    | [c] => (customName? c).isSome
    | _ => false

/-- A rule with a block, from what stands in front of the block. -/
def opened? (place : Surroundings) (heading : List Component) : Option Opened :=
  let style := (if place = .style then nestedSelectors? heading else selectors? heading).map
    Opened.style
  match heading with
  | .token _ t :: cs => if t.kind = .atKeyword then atBlock? place t.keyword cs else style
  | _ => style

/-! ## Rules without a block -/

/-- The text of an at-rule without a block, from its keyword and what follows it. -/
def atStatement? (place : Surroundings) (keyword : String) (cs : List Component) :
    Option (List Char) :=
  let text := (plainParts? true cs).map fun s => headingText keyword s ++ [';']
  match AtRule.named place keyword with
  | .layer => if place ≠ .style && (layerCount? cs).any (0 < ·) then text else none
  | .charset =>
    match cs with
    | [c] => if c.isToken .string then some [] else none
    | _ => none
  | .other => text
  | _ => none

end ResponsiveCss.Minified
