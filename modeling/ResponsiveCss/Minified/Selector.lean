-- Selectors in their shortest form: elements by type, class, identity,
-- attribute and pseudo-class, their pseudo-elements, and the combinators
-- between them. A list of selectors is read from left to right.
import ResponsiveCss.Minified.Position
import ResponsiveCss.Value.Plain

namespace ResponsiveCss.Minified

open Value

/-! ## Combinators -/

/-- The combinators that have a sign of their own. -/
inductive Combinator where
  | child
  | nextSibling
  | laterSibling
deriving DecidableEq, Repr

/-- The sign of a combinator. -/
def Combinator.sign : Combinator → Char
  | .child => '>'
  | .nextSibling => '+'
  | .laterSibling => '~'

/-- The combinator that a lone character is. -/
def combinator? (c : Component) : Option Combinator :=
  [Combinator.child, .nextSibling, .laterSibling].find? fun k => c.isDelim k.sign

/-! ## Attributes -/

/-- The name of an attribute, which may have a namespace, and what follows it. -/
def attributeName? : List Component → Option (List Char × List Component)
  | [] => none
  | first :: rest =>
    let behindBar (front : List Char) : List Component → Option (List Char × List Component)
      | name :: rest =>
        if name.spaced then none
        else name.name?.map fun n => (front ++ '|' :: Token.identText n, rest)
      | [] => none
    if first.isDelim '|' then behindBar [] rest
    else
      match first.name?, rest with
      | some n, bar :: next :: more =>
        if bar.isDelim '|' && !bar.spaced then behindBar (Token.identText n) (next :: more)
        else some (Token.identText n, rest)
      | some n, rest => some (Token.identText n, rest)
      | none, bar :: rest =>
        if first.isDelim '*' && bar.isDelim '|' && !bar.spaced then behindBar ['*'] rest else none
      | none, [] => none

/-- How the value of an attribute is compared with a text, and what follows that. -/
def attributeOperator? : List Component → Option (List Char × List Component)
  | .token _ t :: rest =>
    if t.kind = .comparison || t.text = ['='] then some (t.text, rest) else none
  | _ => none

/-- A text that an attribute is compared with: a name or a string, whatever is shorter. -/
def attributeText? : Component → Option (List Char)
  | .group .. => none
  | .token _ t =>
    let shorter (s : List Char) : List Char :=
      if s.isEmpty || (stringText s).length ≤ (Token.identText s).length then stringText s
      else Token.identText s
    if t.kind = .ident then some (shorter t.identName)
    else if t.kind = .string then some (shorter (stringContent t))
    else none

/-- Whether the comparison minds the case of letters. -/
def attributeCase? : List Component → Option (List Char)
  | [] => some []
  | [c] =>
    if c.isIdent "i" then some [' ', 'i'] else if c.isIdent "s" then some [' ', 's'] else none
  | _ => none

/-- What stands between square brackets: an attribute that an element has, perhaps with a
value. -/
def attribute? (inside : List Component) : Option (List Char) := do
  let (name, rest) ← attributeName? inside
  if rest.isEmpty then return '[' :: name ++ [']']
  else
    let (operator, rest) ← attributeOperator? rest
    match rest with
    | [] => none
    | c :: rest =>
      return '[' :: name ++ operator ++ (← attributeText? c) ++ (← attributeCase? rest) ++ [']']

/-! ## Names of pseudo-classes and pseudo-elements -/

/-- The pseudo-classes that tell where an element stands. -/
def structuralClasses : List String :=
  ["first-child", "last-child", "only-child", "root", "empty", "scope", "host", "first-of-type",
    "last-of-type", "only-of-type"]

/-- The pseudo-classes that tell what the user does with an element. -/
def userActions : List String := ["active", "hover", "focus", "focus-within", "focus-visible"]

/-- The pseudo-classes of scroll bars alone. -/
def scrollbarClasses : List String :=
  ["horizontal", "vertical", "decrement", "increment", "start", "end", "double-button",
    "single-button", "no-button", "corner-present", "window-inactive"]

/-- The other pseudo-classes that scroll bars have. -/
def sharedClasses : List String := ["enabled", "disabled", "hover", "active"]

/-- The pseudo-elements that may have a single colon. -/
def oldElements : List String := ["before", "after", "first-line", "first-letter"]

/-- The pseudo-elements that the content of a slot may have. -/
def slottedElements : List String :=
  ["before", "after", "marker", "placeholder", "-webkit-input-placeholder", "-moz-placeholder",
    "-ms-input-placeholder", "file-selector-button", "-webkit-file-upload-button", "-ms-browse"]

/-- The parts of a scroll bar. -/
def scrollbarElements : List String :=
  ["-webkit-scrollbar", "-webkit-scrollbar-button", "-webkit-scrollbar-track",
    "-webkit-scrollbar-track-piece", "-webkit-scrollbar-thumb", "-webkit-scrollbar-corner",
    "-webkit-resizer"]

/-- The pseudo-elements that are known. -/
def knownElements : List String :=
  oldElements ++ slottedElements ++ scrollbarElements ++
    ["cue", "cue-region", "selection", "-moz-selection", "backdrop", "-webkit-backdrop",
      "view-transition"]

/-- The pseudo-elements of a view transition that name one of its parts. -/
def transitionElements : List String :=
  ["view-transition-group", "view-transition-image-pair", "view-transition-old",
    "view-transition-new"]

/-- The pseudo-classes with a list of selectors, of which the faulty ones do not count. -/
def forgivingClasses : List String := ["is", "where", "-webkit-any", "-moz-any", "has"]

/-- The pseudo-classes with a position, and whether selectors may follow that. -/
def positionClasses : List (String × Bool) :=
  [("nth-child", true), ("nth-last-child", true), ("nth-of-type", false),
    ("nth-last-of-type", false), ("nth-col", false), ("nth-last-col", false)]

/-! ## Reading from left to right -/

/-- What may come next in a selector. -/
inductive Expected where
  /-- An element, or a combinator that relates it to one outside. -/
  | relative
  /-- An element. -/
  | element
  /-- The type of this element, or more of it. -/
  | type
  /-- The bar behind a namespace, or more of this element. -/
  | bar
  /-- The type behind the bar of a namespace. -/
  | localType
  /-- More of this element, or a combinator. -/
  | more
  /-- The name of a class, behind its dot. -/
  | className
  /-- A pseudo-class, or another colon. -/
  | pseudoClass
  /-- A pseudo-element, behind its two colons. -/
  | pseudoElement
  /-- The word `of`, which ends a position. -/
  | wordOf
  /-- Nothing: the selector is faulty. -/
  | nothing
deriving DecidableEq, Repr

/-- The pseudo-elements that a selector has come to. -/
structure Behind where
  slot : Bool
  part : Bool
  /-- A pseudo-element that is known. -/
  element : Bool
  scrollbar : Bool
  transition : Bool
deriving DecidableEq, Repr

/-- No pseudo-element. -/
def Behind.none : Behind := ⟨false, false, false, false, false⟩

/-- Some pseudo-element. -/
def Behind.any (b : Behind) : Bool := b.slot || b.part || b.element

/-- What is not allowed in a selector. -/
structure Limits where
  pseudoElements : Bool
  combinators : Bool
deriving DecidableEq, Repr

/-- A selector as far as it has been read. -/
structure Selecting where
  text : List Char
  expected : Expected
  behind : Behind
  /-- The selector of the rule around has occurred. -/
  nests : Bool
deriving DecidableEq, Repr

namespace Selecting

/-- A selector of which nothing has been read. -/
def start (expected : Expected) (behind : Behind) : Selecting := ⟨[], expected, behind, false⟩

/-- The selector with more text. -/
def add (s : Selecting) (text : List Char) (expected : Expected) : Selecting :=
  { s with text := s.text ++ text, expected }

/-- The selector is faulty. -/
def broken (s : Selecting) : Selecting := { s with expected := .nothing }

/-- The selector where a condition holds, and a faulty one otherwise. -/
def provided (holds : Bool) (s : Selecting) : Selecting := if holds then s else s.broken

/-- An element has begun and may go on. -/
def isOpen (s : Selecting) : Bool := [.type, .bar, .more].contains s.expected

/-- A selector that has been read to its end, unless it is faulty. -/
def finished? (s : Selecting) : Option Selecting := if s.isOpen then some s else none

/-- White space behind an element means that another one follows, a descendant. Nothing follows a
pseudo-element. -/
def afterSpace (l : Limits) (spaced : Bool) (s : Selecting) : Selecting :=
  if spaced && s.isOpen then provided (!s.behind.any && !l.combinators) (s.add [' '] .element)
  else s

/-- A part of an element that is neither a type nor a pseudo-class. Pseudo-elements have none. -/
def addPart (s : Selecting) (text : List Char) (expected : Expected) : Selecting :=
  provided ((s.isOpen || [.relative, .element].contains s.expected) && !s.behind.any)
    (s.add text expected)

/-! ## Pseudo-classes and pseudo-elements -/

/-- A pseudo-class with this name. -/
def pseudoClass (s : Selecting) (name : List Char) : Selecting :=
  let lower := String.ofList (name.map Char.toLower)
  let isKnown (names : List String) : Bool := names.contains lower
  let fits :=
    if s.behind.slot then false
    else if !s.behind.any && isKnown structuralClasses then true
    else if s.behind.transition && lower = "only-child" then true
    else if s.behind.scrollbar then isKnown scrollbarClasses || isKnown sharedClasses
    else if s.behind.element then isKnown userActions
    else !isKnown scrollbarClasses
  let known := [structuralClasses, userActions, scrollbarClasses, sharedClasses].any isKnown
  provided fits (s.add (':' :: if known then lower.toList else Token.identText name) .more)

/-- A known pseudo-element; not all of them go with the content of a slot. -/
def knownElement (s : Selecting) (lower : String) (text : List Char) : Selecting :=
  let behind :=
    { s.behind with
      element := true
      scrollbar := s.behind.scrollbar || scrollbarElements.contains lower
      transition := s.behind.transition || transitionElements.contains lower }
  provided (!s.behind.slot || slottedElements.contains lower)
    { s.add text .more with behind }

/-- A pseudo-element with this name. After one that is not known anything may follow. -/
def pseudoElement (l : Limits) (s : Selecting) (name : List Char) : Selecting :=
  let lower := String.ofList (name.map Char.toLower)
  let colons := if oldElements.contains lower then [':'] else [':', ':']
  provided (!s.behind.element && !l.pseudoElements)
    (if knownElements.contains lower then s.knownElement lower (colons ++ lower.toList)
    else provided (!s.behind.slot) (s.add (colons ++ Token.identText name) .more))

/-! ## Tokens -/

/-- A token in the place of a type, or of the namespace in front of it. -/
def typeName? (c : Component) : Option (List Char × Expected) :=
  if c.isDelim '*' then some (['*'], .bar)
  else if c.isDelim '|' then some (['|'], .localType)
  else c.name?.map fun name => (Token.identText name, .bar)

/-- A token that begins a part of an element, or is one. -/
def partToken (s : Selecting) (t : Token) : Selecting :=
  if t.kind = .colon then
    provided (s.isOpen || [.relative, .element].contains s.expected) (s.add [] .pseudoClass)
  else if t.kind = .delim && t.text = ['&'] then
    { provided (s.isOpen || [.relative, .element].contains s.expected)
        (s.add ['&'] (if s.isOpen then .more else .type)) with nests := true }
  else if t.kind = .delim && t.text = ['.'] then s.addPart ['.'] .className
  else if t.kind = .hash && Token.startsName (t.text.drop 1) then
    s.addPart ('#' :: Token.identText t.hashName) .more
  else s.broken

/-- A token where an element goes on or begins. -/
def elementToken (l : Limits) (s : Selecting) (spaced : Bool) (t : Token) : Selecting :=
  let c := Component.token spaced t
  match combinator? c with
  | some k =>
    if s.isOpen then provided (!s.behind.any && !l.combinators) (s.add [k.sign] .element)
    else provided (s.expected = .relative) (s.add [k.sign] .element)
  | none =>
    let s := s.afterSpace l spaced
    if s.expected = .bar && c.isDelim '|' then s.add ['|'] .localType
    else
      match if [.relative, .element, .type].contains s.expected then typeName? c else none with
      | some (text, expected) => s.addPart text expected
      | none => s.partToken t

/-- A selector with one more token. -/
def token (l : Limits) (s : Selecting) (spaced : Bool) (t : Token) : Selecting :=
  let name? := if spaced || t.kind ≠ .ident then none else some t.identName
  match s.expected, name? with
  | .nothing, _ => s
  | .className, some name => s.add (Token.identText name) .more
  | .localType, some name => s.add (Token.identText name) .more
  | .localType, none => provided (!spaced && t.kind = .delim && t.text = ['*']) (s.add ['*'] .more)
  | .pseudoClass, some name =>
    if oldElements.contains (String.ofList (name.map Char.toLower)) then s.pseudoElement l name
    else s.pseudoClass name
  | .pseudoClass, none => provided (!spaced && t.kind = .colon) (s.add [] .pseudoElement)
  | .pseudoElement, some name => s.pseudoElement l name
  | .wordOf, _ =>
    if t.kind = .ident && Text.sameLetters t.identName "of".toList then s.add [] .element else s
  | .className, none | .pseudoElement, none => s.broken
  | _, _ => s.elementToken l spaced t

/-! ## Calls -/

/-- The names of the parts of an element, at least one. -/
def parts? (inside : List Component) : Option (List Char) :=
  if inside.isEmpty then none
  else (inside.mapM fun c => (Component.name? c).map Token.identText).map [' '].intercalate

/-- Texts of single components between commas. -/
def between? (text? : Component → Option (List Char)) (inside : List Component) :
    Option (List Char) :=
  let one? : List Component → Option (List Char)
    | [c] => text? c
    | _ => none
  ((Component.pieces .comma inside).mapM one?).map [','].intercalate

/-- Classes with their dots, as they may follow the name of a part of a view transition. -/
def transitionClasses? : List Component → Option (List Char)
  | [] => some []
  | [_] => none
  | dot :: c :: cs =>
    if dot.isDelim '.' && !dot.spaced && !c.spaced then do
      return '.' :: Token.identText (← c.name?) ++ (← transitionClasses? cs)
    else none

/-- The part of a view transition: a name or `*`, classes, or both. -/
def transitionPart? : List Component → Option (List Char)
  | [] => some []
  | c :: cs =>
    if c.isDelim '*' then (transitionClasses? cs).map ('*' :: ·)
    else
      match customName? c with
      | some name => (transitionClasses? cs).map (Token.identText name ++ ·)
      | none => transitionClasses? (c :: cs)

/-- What a pseudo-class without selectors holds between its parentheses. -/
def classArgument? (lower : String) (inside : List Component) : Option (List Char) :=
  if lower = "lang" then between? attributeText? inside
  else if lower = "dir" then
    match inside with
    | [c] =>
      if c.isIdent "ltr" then some "ltr".toList else if c.isIdent "rtl" then some "rtl".toList
      else none
    | _ => none
  else if lower = "active-view-transition-type" then
    between? (fun c => (customName? c).map Token.identText) inside
  else if Component.areSound inside then some ((plainParts? true inside).getD [])
  else none

/-- A position, where selectors may follow it if `allowed`. -/
def position? (allowed : Bool) (inside : List Component) : Option (Position × Bool) :=
  match Position.read? inside with
  | some (p, []) => some (p, false)
  | some (p, c :: _) => if allowed && c.isIdent "of" then some (p, true) else none
  | none => none

/-- The only one of some selectors. -/
def lone? : List (Option Selecting) → Option Selecting
  | [s] => s
  | _ => none

/-- Selectors between commas. -/
def listText (all : List Selecting) : List Char := [','].intercalate (all.map Selecting.text)

/-- A call with selectors in it, where `inner` are the ones that count. -/
def addCall (s : Selecting) (front : List Char) (inner : List Selecting) : Selecting :=
  { s.add (front ++ '(' :: listText inner ++ [')']) .more with
    nests := s.nests || inner.any Selecting.nests }

/-- A call without selectors in it. -/
def addPlainCall (s : Selecting) (front : List Char) (argument? : Option (List Char)) :
    Selecting :=
  match argument? with
  | some argument => s.add (front ++ '(' :: argument ++ [')']) .more
  | none => s.broken

/-- A pseudo-element with parentheses that hold no selectors. -/
def elementCall (s : Selecting) (name : List Char) (inside : List Component) : Selecting :=
  let lower := String.ofList (name.map Char.toLower)
  let front := [':', ':'] ++ Token.identText name
  if transitionElements.contains lower then
    match transitionPart? inside with
    | some part => s.knownElement lower (front ++ '(' :: part ++ [')'])
    | none => s.broken
  else
    provided (!s.behind.slot) (s.addPlainCall front (classArgument? "" inside))

end Selecting

/-! ## Lists of selectors -/

open Selecting

mutual

/-- The selectors between commas, where `s` is the first one as far as it has been read. The
others begin with `start`. -/
def selectorsFrom (l : Limits) (start s : Selecting) : List Component → List (Option Selecting)
  | [] => [s.finished?]
  | c :: cs =>
    if c.isToken .comma then s.finished? :: selectorsFrom l start start cs
    else selectorsFrom l start (selectorStep l s c) cs

/-- A selector with one more component. -/
def selectorStep (l : Limits) (s : Selecting) : Component → Selecting
  | .token spaced t => s.token l spaced t
  | .group spaced opening inside =>
    if s.expected = .wordOf || s.expected = .nothing then s
    else if opening.kind = .opening .square then
      match attribute? inside with
      | some text => (s.afterSpace l spaced).addPart text .more
      | none => s.broken
    else if opening.kind ≠ .call || spaced then s.broken
    else
      let name := opening.callName
      let lower := String.ofList (name.map Char.toLower)
      let strict : Limits := ⟨true, l.combinators⟩
      let begin (e : Expected) : Selecting := .start e s.behind
      if s.expected = .pseudoElement then
        if s.behind.element || l.pseudoElements then s.broken
        else if lower = "part" then
          let s := provided (!s.behind.any) (s.addPlainCall "::part".toList (parts? inside))
          { s with behind := { s.behind with part := true } }
        else if lower = "slotted" then
          match lone? (selectorsFrom ⟨true, true⟩ (begin .element) (begin .element) inside) with
          | some inner =>
            let s := provided (!s.behind.any) (s.addCall "::slotted".toList [inner])
            { s with behind := { s.behind with slot := true } }
          | none => s.broken
        else if lower = "cue" || lower = "cue-region" then
          let fresh : Selecting := .start .element .none
          match lone? (selectorsFrom ⟨false, false⟩ fresh fresh inside) with
          | some inner =>
            s.knownElement lower ([':', ':'] ++ lower.toList ++ '(' :: inner.text ++ [')'])
          | none => s.broken
        else s.elementCall name inside
      else if s.expected ≠ .pseudoClass then s.broken
      else if forgivingClasses.contains lower then
        let first := begin (if lower = "has" then .relative else .element)
        let limits := if lower = "has" then l else strict
        s.addCall (':' :: lower.toList) ((selectorsFrom limits first first inside).filterMap id)
      else if lower = "not" then
        match (selectorsFrom strict (begin .element) (begin .element) inside).mapM id with
        | some inner => s.addCall ":not".toList inner
        | none => s.broken
      else if lower = "host" then
        match lone? (selectorsFrom ⟨true, true⟩ (begin .element) (begin .element) inside) with
        | some inner => provided (!s.behind.any) (s.addCall ":host".toList [inner])
        | none => s.broken
      else if s.behind.any then s.broken
      else
        match positionClasses.lookup lower with
        | some allowed =>
          match position? allowed inside with
          | some (p, true) =>
            let inner := (selectorsFrom strict (begin .element) (begin .wordOf) inside).filterMap id
            s.addPlainCall (':' :: lower.toList) (some (p.text ++ " of ".toList ++ listText inner))
          | some (p, false) => s.addPlainCall (':' :: lower.toList) (some p.text)
          | none => s.broken
        | none => s.addPlainCall (':' :: Token.identText name) (classArgument? lower inside)

end

/-- The texts of selectors between commas. All of them must be sound. -/
def selectors? (cs : List Component) : Option (List Char) :=
  let start : Selecting := .start .element .none
  ((selectorsFrom ⟨false, false⟩ start start cs).mapM id).map listText

/-- The texts of selectors that all say where the selector of the rule around belongs. -/
def containingSelectors? (cs : List Component) : Option (List Char) :=
  let start : Selecting := .start .element .none
  ((selectorsFrom ⟨false, false⟩ start start cs).mapM id).bind fun all =>
    if all.all Selecting.nests then some (listText all) else none

/-- A selector inside a rule. It is about what the rule around it selects, and says so. -/
def Selecting.nested (s : Selecting) : List Char :=
  if s.text.head?.any fun c => c = '>' || c = '+' || c = '~' then '&' :: s.text
  else if s.nests then s.text
  else '&' :: ' ' :: s.text

/-- The texts of selectors inside a rule. -/
def nestedSelectors? (cs : List Component) : Option (List Char) :=
  let start : Selecting := .start .relative .none
  ((selectorsFrom ⟨false, false⟩ start start cs).mapM id).map fun all =>
    [','].intercalate (all.map Selecting.nested)

end ResponsiveCss.Minified
