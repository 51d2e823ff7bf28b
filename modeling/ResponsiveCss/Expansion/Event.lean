-- What an expansion reports while it runs, as data, with the level and the
-- wording of each kind of report.
import ResponsiveCss.Breakpoints

namespace ResponsiveCss.Expansion

/-- Something that is worth a line in the log. -/
inductive Event where
  | noBreakpoints
  | doubtfulQuery (b : Breakpoint)
  | nothingToExpand
  | reusing (b : Breakpoint)
  | droppingNested (source : Location) (count : Nat)
  | unmatched (w : Warning)
  | renamed (selector variant : String)
  | removing (count : Nat)
  | appending (b : Breakpoint)
deriving DecidableEq, Repr

/-- How loud an event is. -/
inductive Level where
  | warn
  | debug
  | trace
deriving DecidableEq, Repr

namespace Event

/-- The level of an event. -/
def level : Event → Level
  | .noBreakpoints | .doubtfulQuery _ | .droppingNested .. | .unmatched _ => .warn
  | .nothingToExpand | .reusing _ | .removing _ | .appending _ => .debug
  | .renamed .. => .trace

/-- The wording of an event. -/
def message : Event → String
  | .noBreakpoints =>
    "no breakpoints configured, @responsive blocks will be dropped without output"
  | .doubtfulQuery b => "breakpoint \"" ++ b.name ++ "\" does not look like a media query"
  | .nothingToExpand => "no @responsive at-rule found, nothing to expand"
  | .reusing b => "reusing existing @media " ++ b.query ++ " for breakpoint \"" ++ b.name ++ "\""
  | .droppingNested source count =>
    source.text ++ ": dropping " ++ toString count ++ " at-rule(s) nested in @responsive"
  | .unmatched w => w.display
  | .renamed selector variant => selector ++ " -> " ++ variant
  | .removing count => "removing " ++ toString count ++ " @responsive block(s)"
  | .appending b => "appending @media " ++ b.query ++ " for breakpoint \"" ++ b.name ++ "\""

end Event

/-- The name of a level in a log. -/
def Level.text : Level → String
  | .warn => "WARN"
  | .debug => "DEBUG"
  | .trace => "TRACE"

/-- An event as a line of a log. -/
def Event.line (e : Event) : String := e.level.text ++ " " ++ e.message

end ResponsiveCss.Expansion
