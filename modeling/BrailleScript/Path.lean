/-!
# Paths

Texts that name files.  Parts are separated by slashes; slashes at the end and parts that are a
single point do not count.
-/

namespace BrailleScript.Path

/-- Drops what does not count at the end of a path; the path and the result are in reverse. -/
def trimReverse : List Char → List Char
  | '/' :: rest => trimReverse rest
  | '.' :: '/' :: rest => trimReverse rest
  | cs => cs

/-- The directory with its slash, and the name of the file, if there is one. -/
def splitName? (cs : List Char) : Option (List Char × List Char) :=
  let path := trimReverse cs.reverse
  let name := (path.takeWhile (· != '/')).reverse
  if name = [] || name = ['.'] || name = ['.', '.'] then none
  else some ((path.dropWhile (· != '/')).reverse, name)

/-- A name without its last point and what follows it; a point in front does not count. -/
def stem (name : List Char) : List Char :=
  match name.reverse.dropWhile (· != '.') with
  | [] => name
  | _ :: before => if before.isEmpty then name else before.reverse

/-- The path with another extension; a path without a file name stays as it is. -/
def withExtension (extension path : String) : String :=
  match splitName? path.toList with
  | some (dir, name) => String.ofList (dir ++ stem name) ++ "." ++ extension
  | none => path

/-- Adds a part to a path; two points lead back out of the last one. -/
def enter (path : List String) (part : String) : List String :=
  if part = "" || part = "." then path
  else if part = ".." && (path.getLast?.getD "..") != ".." then path.dropLast
  else path ++ [part]

/-- The parts of a path that count; a slash in front is a part of its own. -/
def parts (path : String) : List String :=
  (path.splitOn "/").foldl enter (if path.toList.head? = some '/' then ["/"] else [])

end BrailleScript.Path
