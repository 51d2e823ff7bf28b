-- A directory with its files in memory. Paths are followed step by step from
-- its top. They may leave it, for the directories around it.
import ResponsiveCss.Files.Access

namespace ResponsiveCss

/-- What a file holds: text, or bytes that are no text. -/
inductive FileContent where
  | text (s : String)
  | bytes (b : List UInt8)
deriving DecidableEq, Repr

/-- An entry of a directory. -/
inductive FileEntry where
  | file (c : FileContent)
  | directory
deriving DecidableEq, Repr

/-- A place among directories. A path may lead out of the tree, and then nothing but the
directories around the tree is known to be there. -/
structure Place where
  /-- The place is not in the tree. -/
  outside : Bool
  /-- The names on the way to the place, from the top of the tree or from the outermost
  directory. -/
  names : List String
deriving DecidableEq, Repr

/-- The entries below a directory, each by its place. -/
structure FileTree where
  entries : List (Place × FileEntry)
deriving DecidableEq, Repr

namespace Place

/-- The top of the tree. -/
def top : Place := ⟨false, []⟩

/-- The outermost directory. -/
def root : Place := ⟨true, []⟩

/-- The place with this name inside this one. -/
def child (p : Place) (name : String) : Place := { p with names := p.names ++ [name] }

/-- The directory around a place. The outermost one lies around itself. -/
def parent (p : Place) : Place :=
  if p.names.isEmpty then root else { p with names := p.names.dropLast }

end Place

namespace FileTree

open Files

/-- A directory without entries. -/
def empty : FileTree := ⟨[]⟩

/-! ## Entries -/

/-- The entry at a place. Without a name it is a directory. -/
def entry? (t : FileTree) (place : Place) : Option FileEntry :=
  if place.names.isEmpty then some .directory
  else (t.entries.find? (·.1 == place)).map Prod.snd

/-- The entries with another one put at a place. -/
def putEntry (place : Place) (e : FileEntry) : List (Place × FileEntry) → List (Place × FileEntry)
  | [] => [(place, e)]
  | x :: more => if x.1 = place then (place, e) :: more else x :: putEntry place e more

/-- The tree with an entry at a place, instead of the one there. -/
def put (t : FileTree) (place : Place) (e : FileEntry) : FileTree :=
  ⟨putEntry place e t.entries⟩

/-! ## Following paths -/

/-- The directory one step further. -/
def enter (t : FileTree) (place : Place) (step : String) : Except FileError Place :=
  if stays step then .ok place
  else if step = ".." then .ok place.parent
  else
    match t.entry? (place.child step) with
    | some .directory => .ok (place.child step)
    | some (.file _) => .error .notADirectory
    | none => .error .notFound

/-- The place that a path leads to. Only the last step may lead to something that is no
directory, or to nothing. A slash in front leads to the outermost directory first. -/
def locate (t : FileTree) (path : String) : Except FileError Place :=
  let origin : Place := if path.toList.head? = some '/' then .root else .top
  match (steps path).reverse with
  | [] => .ok origin
  | last :: before => do
    let place ← before.reverse.foldlM t.enter origin
    if isSpecial last then t.enter place last else return place.child last

/-! ## Operations -/

/-- The text of the file at a path. -/
def read (t : FileTree) (path : String) : Except FileError String := do
  match t.entry? (← t.locate path) with
  | none => .error .notFound
  | some .directory => .error .isADirectory
  | some (.file (.text s)) => .ok s
  | some (.file (.bytes _)) => .error .invalidText

/-- The tree after a text was written to a path. -/
def write (t : FileTree) (path text : String) : Except FileError FileTree := do
  let place ← t.locate path
  match t.entry? place with
  | some .directory => .error .isADirectory
  | _ => return t.put place (.file (.text text))

/-- The tree with one more directory. Slashes at the end of its path do not count. -/
def addDirectory (t : FileTree) (path : String) : Except FileError FileTree := do
  let place ← t.locate (String.ofList (path.toList.reverse.dropWhile (· == '/')).reverse)
  match t.entry? place with
  | some _ => .error .alreadyExists
  | none => return t.put place .directory

/-- The path leads to a directory. -/
def hasDirectory (t : FileTree) (path : String) : Bool :=
  match t.locate path with
  | .ok place => t.entry? place = some .directory
  | .error _ => false

/-- An operation that gives a new tree unless it fails. -/
def update (change : FileTree → Except FileError FileTree) :
    StateM FileTree (Except FileError Unit) := fun t =>
    match change t with
    | .ok t => (.ok (), t)
    | .error e => (.error e, t)

instance : FileAccess (StateM FileTree) where
  readText path := fun t => (t.read path, t)
  writeText path text := update fun t => t.write path text
  makeDirectory path := update fun t => t.addDirectory path
  isDirectory path := fun t => (t.hasDirectory path, t)

end FileTree

end ResponsiveCss
