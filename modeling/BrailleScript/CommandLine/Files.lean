import BrailleScript.Path

/-!
# Files

The files a command sees and leaves, by the parts of their paths.  A directory is there when it
was made or when a file is below it.
-/

namespace BrailleScript.CommandLine

/-- Why a file cannot be read or written. -/
inductive FileError where
  | notFound | alreadyThere | notDirectory | isDirectory
  /-- Any other failure, in the words of the system. -/
  | other (message : String)
  deriving Repr, DecidableEq

/-- The words of the system for an error. -/
def FileError.message : FileError → String
  | notFound => "No such file or directory (os error 2)"
  | alreadyThere => "File exists (os error 17)"
  | notDirectory => "Not a directory (os error 20)"
  | isDirectory => "Is a directory (os error 21)"
  | other message => message

/-- The files and directories that a command can see. -/
structure Files where
  contents : List (List String × String) := []
  directories : List (List String) := []
  /-- Files that are there but cannot be read. -/
  unreadable : List (List String × FileError) := []

namespace Files

/-- Whether there is a file at a path. -/
def isFile (f : Files) (path : List String) : Bool :=
  f.contents.any (·.1 == path)

/-- Whether there is a directory at a path; every file is in the directories of its path. -/
def isDirectory (f : Files) (path : List String) : Bool :=
  path.isEmpty || f.directories.contains path ||
    f.contents.any fun (p, _) => path.isPrefixOf p && p != path

/-- The paths that lead to a path, from the shortest on. -/
def ancestors (path : List String) : List (List String) :=
  (List.range path.length).map (path.take ·)

/-- Reads the file at a path. -/
def readParts (f : Files) (path : List String) : Except FileError String :=
  match f.unreadable.lookup path with
  | some e => .error e
  | none =>
    match f.contents.lookup path with
    | some s => .ok s
    | none =>
      if f.isDirectory path then .error .isDirectory
      else if (ancestors path).any f.isFile then .error .notDirectory
      else .error .notFound

/-- The text of a file. -/
def read (f : Files) (path : String) : Except FileError String :=
  if path = "" then .error .notFound else f.readParts (Path.parts path)

/-- Makes a directory and those above it. -/
def makeDirectory (f : Files) (dir : List String) : Except FileError Files :=
  if f.isFile dir then .error .alreadyThere
  else if (ancestors dir).any f.isFile then .error .notDirectory
  else .ok { f with directories := f.directories ++ ((ancestors dir) ++ [dir]).filter (!f.isDirectory ·) }

/-- Puts a text into a file, in place of what was in it; missing directories are made. -/
def write (f : Files) (path text : String) : Except FileError Files := do
  let place := Path.parts path
  let f ← f.makeDirectory place.dropLast
  if path = "" then .error .notFound
  else if f.isDirectory place then .error .isDirectory
  else .ok { f with contents := f.contents.filter (·.1 != place) ++ [(place, text)] }

end Files

end BrailleScript.CommandLine
