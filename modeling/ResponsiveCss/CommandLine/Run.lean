-- One run of the command: the expander is built, all inputs are read, and only
-- then is anything written. A failed input does not keep the others back. The
-- banner stands in front of all else that the command has to say.
import ResponsiveCss.CommandLine.Arguments
import ResponsiveCss.Files.Access

namespace ResponsiveCss.CommandLine

variable {m : Type → Type} [Monad m] [FileAccess m]

/-! ## What a run says -/

/-- What is said on the two channels, and whether something failed. -/
structure Output where
  stdout : String
  stderr : String
  failed : Bool
deriving DecidableEq, Repr

namespace Output

/-- Nothing is said and nothing failed. -/
def silent : Output := ⟨"", "", false⟩

/-- One output behind another. -/
def append (a b : Output) : Output :=
  ⟨a.stdout ++ b.stdout, a.stderr ++ b.stderr, a.failed || b.failed⟩

/-- A failure that is told in one line. -/
def failure (message : String) : Output := ⟨"", message ++ "\n", true⟩

/-- Several outputs one after the other. -/
def concat (all : List Output) : Output := all.foldr append silent

end Output

/-- How a run ends. -/
structure Ending where
  exit : Nat
  stdout : String
  stderr : String
deriving DecidableEq, Repr

/-- A run ends with 1 if anything failed and with 0 otherwise. -/
def Output.ending (o : Output) : Ending := ⟨if o.failed then 1 else 0, o.stdout, o.stderr⟩

/-! ## The expander -/

/-- Options with breakpoints from the command line, which come behind the others or change
their queries. -/
def withPairs (o : Options) (pairs : List String) : Except OptionsError Options :=
  if pairs.isEmpty then .ok o
  else (pairs.mapM Breakpoint.ofPair).map fun bs =>
    ⟨some ((o.breakpoints.getD .empty).insertAll bs)⟩

/-- The options of a file. -/
def loadOptions (path : String) : m (Except OptionsError Options) := do
  match ← readText path with
  | .error e => return .error (.unreadable path e.message)
  | .ok text => return Options.ofJson text

/-- The expander of a run. -/
def buildExpander (a : Arguments) : m (Except OptionsError Expander) := do
  let options ← match a.config with
    | none => pure (.ok .unset)
    | some path => loadOptions path
  return options.bind fun o => (withPairs o a.breakpoints).bind Expander.ofOptions

/-! ## Inputs and results -/

/-- The path and the text of every input, or the first path that cannot be read. -/
def readInputs : List String → m (Except (String × FileError) (List (String × String)))
  | [] => return .ok []
  | path :: more => do
    match ← readText path with
    | .error e => return .error (path, e)
    | .ok text => return (← readInputs more).map ((path, text) :: ·)

/-- A warning about an input, as a line. -/
def warningLine (path : String) (w : Warning) : String :=
  path ++ ":" ++ w.location.text ++ ": " ++ Warning.message ++ " (\"" ++ w.selector ++ "\")\n"

/-- A text with a line break at its end. -/
def asLines (text : String) : String :=
  if text.toList.getLast? = some '\n' then text else text ++ "\n"

/-- The result of an input goes to its file in the directory. -/
def store (directory path text : String) : m Output := do
  match ← Files.makeDirectories directory with
  | .error e => return fail e
  | .ok () =>
    match ← writeText (Files.inside directory ((Files.fileName? path).getD "out.css")) text with
    | .error e => return fail e
    | .ok () => return .silent
where
  fail (e : FileError) : Output :=
    .failure ("Error writing output for " ++ path ++ ": " ++ e.message)

/-- The result of an input goes to its file, or to the standard output if there is no
directory for it. -/
def deliver (outDir : Option String) (path text : String) : m Output :=
  match outDir with
  | some directory => store directory path text
  | none => return ⟨asLines text, "", false⟩

/-- What comes of one input. -/
def handle [Minifier] (a : Arguments) (e : Expander) (path text : String) : m Output := do
  match e.process a.style text with
  | .error f => return .failure (path ++ ": " ++ f.message)
  | .ok p =>
    let warnings : Output := ⟨"", String.join (p.report.warnings.map (warningLine path)), false⟩
    return warnings.append (← deliver a.outDir path p.css)

/-! ## The run -/

/-- All that a run with these arguments does and says. -/
def run [Minifier] (a : Arguments) : m Ending := do
  match ← buildExpander a with
  | .error e => return (Output.failure ("Error: " ++ e.message)).ending
  | .ok e =>
    match ← readInputs a.inputs with
    | .error (path, f) =>
      return (Output.failure ("Error reading CSS file " ++ path ++ ": " ++ f.message)).ending
    | .ok sources =>
      let outputs ← sources.mapM fun (path, text) => handle a e path text
      return (Output.concat outputs).ending

/-- The ending if no run is started: with 0 and the help, or with 2. -/
def UsageError.ending (e : UsageError) : Ending :=
  if e = .help then ⟨0, e.message, ""⟩ else ⟨2, "", e.message ++ "\n"⟩

/-- The run of a command line, without the banner. -/
def runWith [Minifier] (arguments : List String) : m Ending :=
  match Arguments.ofList arguments with
  | .error e => return e.ending
  | .ok a => run a

/-- The name of the command in large letters. -/
def banner : String :=
  "\n" ++
  "        ____  __                 ____\n" ++
  "       / __ )/ /___ _____  ___  / __ \\__  _____  _______  __\n" ++
  "      / __  / / __ `/_  / / _ \\/ / / / / / / _ \\/ ___/ / / /\n" ++
  "     / /_/ / / /_/ / / /_/  __/ /_/ / /_/ /  __/ /  / /_/ /\n" ++
  "    /_____/_/\\__,_/ /___/\\___/\\___\\_\\__,_/\\___/_/   \\__, /\n" ++
  "                                                   /____/\n" ++
  "    BlazeQuery - @responsive blocks, expanded per breakpoint.\n"

/-- The ending with the banner in front of what is said on the standard error. -/
def Ending.underBanner (e : Ending) : Ending := { e with stderr := banner ++ "\n" ++ e.stderr }

/-- All that the command does and says, but for a log, which it keeps only if asked to. The banner
comes before anything else, whatever the arguments are. -/
def command [Minifier] (arguments : List String) : m Ending := do
  return (← runWith arguments).underBanner

end ResponsiveCss.CommandLine
