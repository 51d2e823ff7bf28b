-- The program: the command line run on the files of the computer.
import ResponsiveCss.CommandLine.Run

namespace ResponsiveCss

/-- The failure that an exception of the file system stands for. Its code may come with a minus
sign. -/
def FileError.ofException : IO.Error → FileError
  | .noFileOrDirectory .. => .notFound
  | .alreadyExists .. => .alreadyExists
  | .inappropriateType file code details =>
    if code = 20 || code = -20 then .notADirectory
    else if code = 21 || code = -21 then .isADirectory
    else .other (toString (IO.Error.inappropriateType file code details))
  | e => .other (toString e)

/-- The value of an action, or the failure that ended it. -/
def attempt {α : Type} (action : IO α) : IO (Except FileError α) :=
  try
    return .ok (← action)
  catch e =>
    return .error (.ofException e)

instance : FileAccess IO where
  readText path := do
    match ← attempt (IO.FS.readBinFile path) with
    | .error e => return .error e
    | .ok bytes => return (String.fromUTF8? bytes).elim (.error .invalidText) .ok
  writeText path text := attempt (IO.FS.writeFile path text)
  makeDirectory path := attempt (IO.FS.createDir path)
  isDirectory path := do
    match ← attempt (IO.FS.realPath path) with
    | .ok real => real.isDir
    | .error _ => return false

end ResponsiveCss

/-- Runs the command and says what it has to say. -/
def main (arguments : List String) : IO UInt32 := do
  let ending ← (ResponsiveCss.CommandLine.command arguments : IO ResponsiveCss.CommandLine.Ending)
  (← IO.getStderr).putStr ending.stderr
  (← IO.getStdout).putStr ending.stdout
  return ending.exit.toUInt32
