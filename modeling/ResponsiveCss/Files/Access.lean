-- Access to files: their paths as text, with the steps between slashes, the
-- operations that a run needs, and why these may fail.
namespace ResponsiveCss

namespace Files

/-! ## Paths -/

/-- The steps of a path between its slashes. A slash at the end counts as an empty step. -/
def steps (path : String) : List String :=
  (path.toList.splitOn '/').map String.ofList

/-- A step that stays where it is. -/
def stays (step : String) : Bool := step == "" || step == "."

/-- A step that names no entry of its own. -/
def isSpecial (step : String) : Bool := stays step || step == ".."

/-- The directories around a place, from its steps last first; the nearest comes first. -/
def outward : List String → List (List String)
  | [] => []
  | step :: before =>
    if stays step then outward before else (step :: before) :: outward before

/-- The path of steps that come last first. -/
def join (reversed : List String) : String := "/".intercalate reversed.reverse

/-- A path and the directories around it, the nearest first. -/
def lineage (path : String) : List String :=
  path :: (outward (((steps path).reverse.dropWhile stays).drop 1)).map join

/-- The last name of a path, unless it ends with two dots or has no name. -/
def fileName? (path : String) : Option String :=
  match (steps path).reverse.dropWhile stays with
  | [] => none
  | step :: _ => if step = ".." then none else some step

/-- The path of a name inside a directory. -/
def inside (directory name : String) : String :=
  if directory.toList.getLast? = some '/' then directory ++ name else directory ++ "/" ++ name

end Files

/-! ## Operations -/

/-- Why an operation on a file failed. -/
inductive FileError where
  | notFound
  | alreadyExists
  | notADirectory
  | isADirectory
  | invalidText
  | other (reason : String)
deriving DecidableEq, Repr

/-- The wording of a failure. -/
def FileError.message : FileError → String
  | .notFound => "No such file or directory (os error 2)"
  | .alreadyExists => "File exists (os error 17)"
  | .notADirectory => "Not a directory (os error 20)"
  | .isADirectory => "Is a directory (os error 21)"
  | .invalidText => "stream did not contain valid UTF-8"
  | .other reason => reason

/-- A place that holds files. -/
class FileAccess (m : Type → Type) where
  /-- The text of a file. -/
  readText (path : String) : m (Except FileError String)
  /-- A file gets a text, whatever it held before. -/
  writeText (path text : String) : m (Except FileError Unit)
  /-- A new directory in one that is there. -/
  makeDirectory (path : String) : m (Except FileError Unit)
  /-- The path leads to a directory. -/
  isDirectory (path : String) : m Bool

export FileAccess (readText writeText makeDirectory isDirectory)

/-! ## Directories -/

namespace Files

variable {m : Type → Type} [Monad m] [FileAccess m]

/-- The first of these paths comes to be a directory, and so do the others, which lie around it
one by one, as far as they are missing. -/
def makeAll : List String → m (Except FileError Unit)
  | [] => return .ok ()
  | path :: around => do
    match ← makeDirectory path with
    | .ok () => return .ok ()
    | .error .notFound =>
      match ← makeAll around with
      | .error e => return .error e
      | .ok () =>
        match ← makeDirectory path with
        | .ok () => return .ok ()
        | .error e => settle path e
    | .error e => settle path e
where
  /-- A directory that is there already is as good as a new one. -/
  settle (path : String) (e : FileError) : m (Except FileError Unit) :=
    return if ← isDirectory path then .ok () else .error e

/-- A directory comes to be, with those around it, unless it is there. -/
def makeDirectories (path : String) : m (Except FileError Unit) := makeAll (lineage path)

end Files

end ResponsiveCss
