-- What can go wrong, by cause, with the place where that applies, and how each
-- cause is worded.
import ResponsiveCss.Location

namespace ResponsiveCss

/-! ## Reading a stylesheet -/

/-- Why a text is no stylesheet. -/
inductive ParseError.Cause where
  | unexpectedBrace
  | unclosedString
  | malformedUrl
  | unknownWord (text : String)
  | noProperty
deriving DecidableEq, Repr

/-- The fault that ended the reading of a stylesheet. -/
structure ParseError where
  cause : ParseError.Cause
  location : Location
deriving DecidableEq, Repr

/-- The wording of a cause. -/
def ParseError.Cause.message : ParseError.Cause → String
  | .unexpectedBrace => "Unexpected \x7d"
  | .unclosedString => "Unclosed string"
  | .malformedUrl => "Malformed url()"
  | .unknownWord text => "Unknown word \"" ++ text ++ "\""
  | .noProperty => "Declaration without property"

/-- The place of the fault and what it is. -/
def ParseError.message (e : ParseError) : String := e.location.text ++ ": " ++ e.cause.message

/-! ## Expanding a stylesheet -/

/-- The name that the faults of an expansion go by. -/
def pluginName : String := "responsive-query"

/-- Why a responsive block cannot be expanded. -/
inductive ExpansionError where
  | nonClassRule (selector : String) (location : Location)
  | nonClassParameter (params : String) (location : Location)
deriving DecidableEq, Repr

/-- The place of the fault. -/
def ExpansionError.location : ExpansionError → Location
  | .nonClassRule _ l => l
  | .nonClassParameter _ l => l

/-- The place of the fault and what it is. -/
def ExpansionError.message (e : ExpansionError) : String :=
  pluginName ++ ": " ++ e.location.text ++ ": " ++
    match e with
    | .nonClassRule selector _ =>
      "Non-class rule detected inside @responsive rule: \"" ++ selector ++ "\""
    | .nonClassParameter params _ =>
      "Non-class parameter detected in @responsive rule: \"" ++ params ++ "\""

/-- A rule that its block's parameters leave out of the expansion. -/
structure Warning where
  selector : String
  location : Location
deriving DecidableEq, Repr

/-- What a warning says about its rule. -/
def Warning.message : String := "selector invalid under this responsive query's parameters"

/-- The warning with the name, the place and the selector of its rule. -/
def Warning.display (w : Warning) : String :=
  pluginName ++ ": " ++ w.location.text ++ ": " ++ Warning.message ++ " (\"" ++ w.selector ++ "\")"

/-! ## Reading options -/

/-- Why there are no usable options. -/
inductive OptionsError where
  | missingBreakpoints
  | unreadable (path : String) (reason : String)
  | malformed (reason : String)
deriving DecidableEq, Repr

/-- The wording of a fault in the options. -/
def OptionsError.message : OptionsError → String
  | .missingBreakpoints => "Breakpoints must be specified in the plugin options"
  | .unreadable path reason => "failed to read config " ++ path ++ ": " ++ reason
  | .malformed reason => "failed to parse config: " ++ reason

/-! ## From text to text -/

/-- Everything that can go wrong between the text of one stylesheet and its expansion. -/
inductive Error where
  | parse (e : ParseError)
  | expansion (e : ExpansionError)
  /-- The result cannot be minified, for a reason in the minifier's own words. -/
  | minify {reason : String}
deriving DecidableEq, Repr

/-- The wording of a fault. -/
def Error.message : Error → String
  | .parse e => "parse error at " ++ e.message
  | .expansion e => e.message
  | @minify reason => "failed to minify output: " ++ reason

end ResponsiveCss
