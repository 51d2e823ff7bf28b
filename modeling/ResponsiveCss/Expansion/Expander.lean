-- An expander: breakpoints that are ready for use, and the texts of whole
-- stylesheets expanded under them. Any minifier will do; the one of this library
-- comes along.
import ResponsiveCss.Expansion.Basic
import ResponsiveCss.Minified.Basic
import ResponsiveCss.Options
import ResponsiveCss.Stylesheet.Parse
import ResponsiveCss.Stylesheet.Render

namespace ResponsiveCss

/-! ## Expanders -/

/-- Breakpoints that are ready for use. -/
structure Expander where
  breakpoints : Breakpoints
deriving DecidableEq, Repr

namespace Expander

variable [Minifier]

/-- The expander of given options, which must name breakpoints, be it none at all. -/
def ofOptions (o : Options) : Except OptionsError Expander :=
  match o.breakpoints with
  | some bs => .ok ⟨bs⟩
  | none => .error .missingBreakpoints

/-- The text is fit to stand between `@media` and a block. It may end that block itself and
begin another rule. -/
def isMediaQuery (query : String) : Bool :=
  Minifier.beginsWithMedia ("@media " ++ query ++ " \x7b\x7d")

/-- The breakpoints whose query is no media query. -/
def doubtful (bs : Breakpoints) : List Breakpoint :=
  bs.toList.filter fun b => !isMediaQuery b.query

/-- What there is to say about the breakpoints before anything is expanded. -/
def remarks (e : Expander) : List Expansion.Event :=
  (if e.breakpoints.toList.isEmpty then [.noBreakpoints] else []) ++
    (doubtful e.breakpoints).map .doubtfulQuery

/-! ## Whole texts -/

/-- The text of an expanded stylesheet and what the expansion did. -/
structure Processed where
  css : String
  report : Report
deriving DecidableEq, Repr

/-- The outcome for one text, with the log of its expansion. -/
structure Run where
  result : Except Error Processed
  log : List Expansion.Event

/-- The expansion of a text. A text without responsive blocks comes back as it is, whatever the
style. -/
def run (e : Expander) (style : OutputStyle) (css : String) : Run :=
  match Stylesheet.parse css with
  | .error f => ⟨.error (.parse f), []⟩
  | .ok sheet =>
    let outcome := Expansion.expand e.breakpoints sheet
    let result :=
      match outcome.report with
      | .error f => .error (.expansion f)
      | .ok report =>
        if report.expanded then (outcome.sheet.render style).map fun text => ⟨text, report⟩
        else .ok ⟨css, report⟩
    ⟨result, outcome.log⟩

/-- The outcome for one text. -/
def process (e : Expander) (style : OutputStyle) (css : String) : Except Error Processed :=
  (e.run style css).result

/-- The outcomes for several texts, each on its own. -/
def processAll (e : Expander) (style : OutputStyle) (inputs : List String) :
    List (Except Error Processed) :=
  inputs.map (e.process style)

end Expander

end ResponsiveCss
