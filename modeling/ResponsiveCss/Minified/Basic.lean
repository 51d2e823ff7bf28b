-- The minified form of CSS, for the part of it that is read here, and a minifier
-- that rests on it.
import ResponsiveCss.Minified.AtRule
import ResponsiveCss.Stylesheet.Render

namespace ResponsiveCss.Minified

/-! ## Rules -/

/-- A rule, its texts already in their shortest form. -/
inductive ShortRule where
  | style (selectors : List Char) (settings : List Setting) (rules : List ShortRule)
  | media (queries : List MediaQuery) (settings : List Setting) (rules : List ShortRule)
  /-- Another at-rule with rules in its block. -/
  | rules (heading : List Char) (settings : List Setting) (rules : List ShortRule)
  /-- An at-rule with something else in its block. -/
  | content (heading text : List Char)
  /-- An at-rule without a block. -/
  | statement (text : List Char)
deriving Repr

/-- What a block holds: declarations and rules. -/
structure Body where
  settings : List Setting
  rules : List ShortRule
deriving Repr

namespace Body

/-- Nothing. -/
def empty : Body := ⟨[], []⟩

/-- One body behind the other. -/
def append (a b : Body) : Body := ⟨a.settings ++ b.settings, a.rules ++ b.rules⟩

/-- A declaration or an at-rule without a block, or nothing. Declarations stand in style rules
only. -/
def ofItem? (place : Surroundings) : List Component → Option Body
  | [] => some empty
  | .token spaced t :: cs =>
    if t.kind = .atKeyword then
      (atStatement? place t.keyword cs).map fun s => ⟨[], [.statement s]⟩
    else if place = .style then (setting? (.token spaced t :: cs)).map fun s => ⟨[s], []⟩
    else none
  | .group .. :: _ => none

/-- A semicolon ends what came since the last item, here last component first. Outside of style
rules it ends at-rules only. -/
def endsAtSemicolon (place : Surroundings) (item : List Component) : Bool :=
  match item.getLast? with
  | none => place ≠ .sheet
  | some c => place = .style || c.isToken .atKeyword

/-- The item, last component first, is the declaration of a custom property, which a block does
not end. -/
def holdsBlocks (place : Surroundings) (item : List Component) : Bool :=
  match item.reverse with
  | name :: colon :: _ => place = .style && name.name?.any Value.isDashed && colon.isToken .colon
  | _ => false

/-- Signs of comments of the document around the sheet, which count for nothing at its top. -/
def isCommentSign (c : Component) : Bool := c.isToken .commentOpen || c.isToken .commentClose

/-- The rule that was opened, with its body. -/
def closed (o : Opened) (body : Body) : ShortRule :=
  match o with
  | .style selectors => .style selectors body.settings body.rules
  | .media queries => .media queries body.settings body.rules
  | .rules heading => .rules heading body.settings body.rules
  | .content heading _ => .content heading []

/-- Where the content of the block of a rule stands. -/
def insideOf (place : Surroundings) : Opened → Surroundings
  | .style _ => .style
  | _ => place.inner

mutual

/-- What components spell, where `item` is what came since the last item, last component first. -/
def ofComponents? (place : Surroundings) (item : List Component) : List Component → Option Body
  | [] => ofItem? place item.reverse
  | c :: more =>
    if c.isToken .semicolon && endsAtSemicolon place item then
      match ofItem? place item.reverse, ofComponents? place [] more with
      | some body, some rest => some (body.append rest)
      | _, _ => none
    else if c.isGroup .curly && !holdsBlocks place item then
      match rule? place item.reverse c, ofComponents? place [] more with
      | some rule, some rest => some (append ⟨[], [rule]⟩ rest)
      | _, _ => none
    else if place = .sheet && item.isEmpty && isCommentSign c then ofComponents? place [] more
    else ofComponents? place (c :: item) more

/-- A rule with a block, from what stands in front of the block. -/
def rule? (place : Surroundings) (heading : List Component) : Component → Option ShortRule
  | .token .. => none
  | .group _ _ inside =>
    match opened? place heading with
    | none => none
    | some (.content heading read) => (read inside).map (.content heading)
    | some o => (ofComponents? (insideOf place o) [] inside).map (closed o)

end

end Body

/-- The rules of a style sheet. -/
def rules? (css : List Char) : Option (List ShortRule) :=
  (Body.ofComponents? .sheet [] (Component.ofText css)).map Body.rules

/-! ## Text -/

/-- The content of a block, with a semicolon between the declarations and the rules. -/
def blockText (settings : List Setting) (rules : List Char) : List Char :=
  renderSettings settings ++ (if settings.isEmpty || rules.isEmpty then [] else [';']) ++ rules

/-- A heading with a block. -/
def withBlock (heading block : List Char) : List Char := heading ++ '\x7b' :: block ++ ['\x7d']

mutual

/-- A rule in its shortest form. A media block that every medium meets is left out around its
content. -/
def ShortRule.render : ShortRule → List Char
  | .style selectors settings rules => withBlock selectors (blockText settings (renderRules rules))
  | .media queries settings rules =>
    let block := blockText settings (renderRules rules)
    if queries.all MediaQuery.alwaysMatches then block
    else withBlock ("@media ".toList ++ MediaQuery.renderList queries) block
  | .rules heading settings rules => withBlock heading (blockText settings (renderRules rules))
  | .content heading text => withBlock heading text
  | .statement text => text

/-- Rules one after the other. -/
def renderRules : List ShortRule → List Char
  | [] => []
  | r :: more => r.render ++ renderRules more

end

/-- The minified form of a text, if it is a style sheet. -/
def minify (css : String) : Option String :=
  (rules? css.toList).map fun rules => String.ofList (renderRules rules)

/-- The text is a style sheet and begins with a media rule. -/
def beginsWithMedia (css : String) : Bool :=
  match rules? css.toList with
  | some (.media .. :: _) => true
  | _ => false

end ResponsiveCss.Minified

namespace ResponsiveCss

/-- Style sheets outside of what is read here count as faulty. -/
instance : Minifier where
  minify css := (Minified.minify css).elim (.error "not a style sheet") .ok
  beginsWithMedia := Minified.beginsWithMedia

end ResponsiveCss
