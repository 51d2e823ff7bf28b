-- The command line: inputs and options in any order. An option takes its value
-- from the same argument or from the next one; `--` ends the options. A call for
-- help counts if nothing is wrong in front of it, whatever comes behind it.
import ResponsiveCss.Expansion.Expander
import ResponsiveCss.Text.Basic

namespace ResponsiveCss.CommandLine

/-- What a run is asked to do. -/
structure Arguments where
  /-- The paths of the stylesheets, at least one. -/
  inputs : List String
  /-- The path of the options. -/
  config : Option String
  /-- Further breakpoints, each as `NAME=QUERY`. -/
  breakpoints : List String
  /-- The directory for the results. -/
  outDir : Option String
  style : OutputStyle
deriving DecidableEq, Repr

/-- Why a command line starts no run: help is called for, or something is wrong. -/
inductive UsageError where
  | help
  | noInput
  | unknownOption (argument : String)
  | missingValue (option : String)
  | repeatedOption (option : String)
  | invalidValue (option value : String)
deriving DecidableEq, Repr

/-- What the command is for, and how it is called. -/
def helpText : String :=
  "Expand @responsive blocks into per-breakpoint @media queries\n\n" ++
  "Usage: blazequery [OPTIONS] <INPUTS>...\n\n" ++
  "Arguments:\n" ++
  "  <INPUTS>...  Input stylesheets\n\n" ++
  "Options:\n" ++
  "  -c, --config <CONFIG>          JSON options file with a \"breakpoints\" map\n" ++
  "  -b, --breakpoint <NAME=QUERY>  Extra breakpoint, appended after the config file's ones\n" ++
  "  -o, --out-dir <OUT_DIR>        Write each result to <OUT_DIR>/<input file name> instead of " ++
  "stdout\n" ++
  "      --style <STYLE>            Output style [default: pretty] [possible values: compact, " ++
  "pretty,\n" ++
  "                                 minified]\n" ++
  "  -h, --help                     Print help\n"

/-- The help, or the wording of a fault in the command line. -/
def UsageError.message : UsageError → String
  | .help => helpText
  | .noInput => "error: no input is given"
  | .unknownOption argument => "error: unexpected argument '" ++ argument ++ "'"
  | .missingValue option => "error: a value is required for '" ++ option ++ "'"
  | .repeatedOption option => "error: '" ++ option ++ "' cannot be used more than once"
  | .invalidValue option value => "error: invalid value '" ++ value ++ "' for '" ++ option ++ "'"

/-! ## Options -/

/-- The options, all of which take a value. -/
inductive Flag where
  | config
  | breakpoint
  | outDir
  | style
deriving DecidableEq, Repr

/-- The long name of an option. -/
def Flag.name : Flag → String
  | .config => "--config"
  | .breakpoint => "--breakpoint"
  | .outDir => "--out-dir"
  | .style => "--style"

/-- The option with a long name, hyphens included. -/
def Flag.ofLong? (name : String) : Option Flag :=
  [Flag.config, .breakpoint, .outDir, .style].find? (·.name == name)

/-- The option with a one-letter name. -/
def Flag.ofLetter? : Char → Option Flag
  | 'c' => some .config
  | 'b' => some .breakpoint
  | 'o' => some .outDir
  | _ => none

/-! ## Arguments one by one -/

/-- What an argument is. -/
inductive Part where
  | input (path : String)
  /-- An option, with its value if the argument holds it. -/
  | flag (f : Flag) (value : Option String)
  /-- The mark that only inputs follow. -/
  | endOfFlags
  | help
  | unknown
deriving DecidableEq, Repr

/-- What an argument is by its form. -/
def Part.of (argument : String) : Part :=
  match argument.toList with
  | ['-', '-'] => .endOfFlags
  | '-' :: '-' :: _ =>
    match Text.splitFirst? '=' argument.toList with
    | none =>
      if argument == "--help" then .help
      else ((Flag.ofLong? argument).map (.flag · none)).getD .unknown
    | some (name, value) =>
      ((Flag.ofLong? (String.ofList name)).map (.flag · (some (String.ofList value)))).getD .unknown
  | ['-'] => .input argument
  | '-' :: 'h' :: _ => .help
  | '-' :: letter :: value =>
    let value? := match value with
      | [] => none
      | '=' :: value => some (String.ofList value)
      | value => some (String.ofList value)
    ((Flag.ofLetter? letter).map (.flag · value?)).getD .unknown
  | _ => .input argument

/-- The argument can be the value of the option before it: it begins with no hyphen, or is one. -/
def canBeValue (argument : String) : Bool :=
  argument.toList.head? ≠ some '-' || argument == "-"

/-- An argument list taken apart. -/
inductive Item where
  | input (path : String)
  | setting (f : Flag) (value : String)
  | help
deriving DecidableEq, Repr

/-- The inputs and settings of an argument list in order, up to a call for help. -/
def items : List String → Except UsageError (List Item)
  | [] => .ok []
  | argument :: more =>
    match Part.of argument with
    | .endOfFlags => .ok (more.map .input)
    | .help => .ok [.help]
    | .unknown => .error (.unknownOption argument)
    | .input path => (items more).map (.input path :: ·)
    | .flag f (some value) => (items more).map (.setting f value :: ·)
    | .flag f none =>
      match more with
      | [] => .error (.missingValue f.name)
      | value :: more =>
        if canBeValue value then (items more).map (.setting f value :: ·)
        else .error (.missingValue f.name)

/-! ## What the items say -/

namespace Item

/-- The values of an option in order. -/
def values (f : Flag) (all : List Item) : List String :=
  all.filterMap fun
    | .setting g value => if g = f then some value else none
    | _ => none

/-- The paths of the inputs in order. -/
def paths (all : List Item) : List String :=
  all.filterMap fun
    | .input path => some path
    | _ => none

/-- The value of an option that may be given once at most. -/
def single? (f : Flag) (all : List Item) : Except UsageError (Option String) :=
  match values f all with
  | [] => .ok none
  | [value] => .ok (some value)
  | _ => .error (.repeatedOption f.name)

/-- The value of an option that is a path, which may not be empty. -/
def pathOf? (f : Flag) (all : List Item) : Except UsageError (Option String) := do
  let value ← single? f all
  if value = some "" then .error (.invalidValue f.name "") else return value

/-- The style that is asked for; pretty is the usual one. -/
def outputStyle (all : List Item) : Except UsageError OutputStyle := do
  match ← single? .style all with
  | none => return .pretty
  | some name =>
    match OutputStyle.ofName? name with
    | some s => return s
    | none => .error (.invalidValue Flag.style.name name)

end Item

/-! ## The whole command line -/

/-- What the arguments of a command ask for. -/
def Arguments.ofList (arguments : List String) : Except UsageError Arguments := do
  let all ← items arguments
  let config ← Item.pathOf? .config all
  let outDir ← Item.pathOf? .outDir all
  let style ← Item.outputStyle all
  let inputs := Item.paths all
  if inputs.contains "" then .error (.invalidValue "INPUTS" "")
  else if all.contains .help then .error .help
  else if inputs.isEmpty then .error .noInput
  else return ⟨inputs, config, Item.values .breakpoint all, outDir, style⟩

end ResponsiveCss.CommandLine
