-- Media queries as short text: no optional white space, bounds written as
-- comparisons.
import ResponsiveCss.MediaQuery.Basic

namespace ResponsiveCss

/-- The sign of a comparison. -/
def Comparison.sign : Comparison → List Char
  | .less => ['<']
  | .lessEqual => ['<', '=']
  | .equal => ['=']
  | .greaterEqual => ['>', '=']
  | .greater => ['>']

/-- A test without its parentheses. -/
def FeatureTest.render : FeatureTest → List Char
  | .has name => name
  | .is name value => name ++ ':' :: value.text
  | .compares name how value => name ++ how.sign ++ value.text
  | .between low how name how' high => low.text ++ how.sign ++ name ++ how'.sign ++ high.text

namespace Condition

/-- A text in parentheses. -/
def parenthesized (s : List Char) : List Char := '(' :: s ++ [')']

/-- The condition is the test of a property, which is in parentheses by itself. -/
def isSet : Condition → Bool
  | .set _ => true
  | _ => false

mutual

/-- A condition on its own. -/
def render : Condition → List Char
  | .test t => parenthesized t.render
  | .set text => parenthesized text
  | .style c => "style".toList ++ if c.isSet then render c else parenthesized (render c)
  | .negation c => "not ".toList ++ renderOperand none c
  | .joined how first others => renderOperand (some how) first ++ renderOthers how others

/-- A condition as a part of another one. It needs parentheses unless the two are joined by the
same word. -/
def renderOperand (outer : Option Junction) : Condition → List Char
  | .test t => parenthesized t.render
  | .set text => parenthesized text
  | .style c => "style".toList ++ if c.isSet then render c else parenthesized (render c)
  | .negation c => parenthesized ("not ".toList ++ renderOperand none c)
  | .joined how first others =>
    let s := renderOperand (some how) first ++ renderOthers how others
    if outer = some how then s else parenthesized s

/-- The conditions that a junction adds to the first one. -/
def renderOthers (how : Junction) : List Condition → List Char
  | [] => []
  | c :: more =>
    ' ' :: how.word.toList ++ ' ' :: renderOperand (some how) c ++ renderOthers how more

end

end Condition

namespace MediaQuery

/-- The word of a qualifier with the space behind it. -/
def renderQualifier : Option Qualifier → List Char
  | none => []
  | some .negated => "not ".toList
  | some .only => "only ".toList

/-- The name of a type of medium. -/
def renderType : MediaType → List Char
  | .all => "all".toList
  | .print => "print".toList
  | .screen => "screen".toList
  | .other name => name

/-- A condition behind the type of a medium. -/
def renderBehind : Condition → List Char
  | .joined .any first others =>
    Condition.parenthesized (Condition.render (.joined .any first others))
  | c => c.render

/-- One query. The type is left out if all media are asked for by a condition alone. -/
def render (q : MediaQuery) : List Char :=
  let typed := renderQualifier q.qualifier ++ renderType q.mediaType
  match q.condition with
  | none => typed
  | some c =>
    if q.qualifier.isNone && q.mediaType = .all then c.render
    else typed ++ " and ".toList ++ renderBehind c

/-- A list of queries. An empty one is written as what no medium meets. -/
def renderList (qs : List MediaQuery) : List Char :=
  if qs.isEmpty then "not all".toList else [','].intercalate (qs.map render)

/-- The query asks for nothing but some medium. -/
def alwaysMatches (q : MediaQuery) : Bool :=
  q.qualifier.isNone && q.condition.isNone && q.mediaType = .all

end MediaQuery

end ResponsiveCss
