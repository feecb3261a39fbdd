namespace LineAtlas

/-!
# Source locations

A location is a line of a file, with the path of the file cut at its last
slash. Line tables know nothing about the code around a line, so the context of
a location is usually missing.
-/

/-- What stands in for a missing context. -/
def missingContext : String :=
  "* not available"

/-- A line of a source file. -/
structure Location where
  line : Int64
  /-- The path up to its last slash, or no text if it has none. -/
  directory : String
  /-- The path after its last slash. -/
  file : String
  context : Option String
  deriving Repr, DecidableEq

namespace Location

/-- The characters after the last slash. -/
def lastName (path : List Char) : List Char :=
  (path.reverse.takeWhile (· ≠ '/')).reverse

/-- The characters before the last slash, or none if there is no slash. -/
def parent (path : List Char) : List Char :=
  ((path.reverse.dropWhile (· ≠ '/')).drop 1).reverse

/-- A line of the file at `path`. -/
def ofPath
    (line : Int64)
    (path : String) :
    Location where
  line := line
  directory := String.ofList (parent path.toList)
  file := String.ofList (lastName path.toList)
  context := none

/-- The context, or the mark for a missing one. -/
def contextText (location : Location) : String :=
  location.context.getD missingContext

/-- The directory and the file in one; without a directory, the file alone. -/
def path (location : Location) : String :=
  if location.directory.isEmpty then
    location.file
  else
    location.directory ++ "/" ++ location.file

/-- The path and the line. -/
def text (location : Location) : String :=
  location.path ++ ":" ++ toString location.line.toInt

end Location

end LineAtlas
