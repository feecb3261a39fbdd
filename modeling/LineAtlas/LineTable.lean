import LineAtlas.LineProgram.Registers

namespace LineAtlas

/-!
# Line tables

A line table is what one sequence of a line-number program leaves behind: the
rows in program order, and the directories and files of its unit. A sequence
without rows leaves no table, so a table always has a first and a last row.

Rows need not be sorted by address. A table answers for the addresses between
those of its first and its last row, and `floorRow?` picks the last row, in
program order, that does not lie past the address.
-/

/-- A file that the program of a unit can name. -/
structure SourceFile where
  name : String
  /-- The place in the directory list, counted from zero. -/
  directoryIndex : UInt64
  modificationTime : UInt64
  size : UInt64
  /-- The directory, a slash and the name. -/
  path : String
  deriving Repr, DecidableEq

/-- The rows of one sequence, with the directories and files of its unit. -/
structure LineTable where
  directories : List String
  files : List SourceFile
  rows : List LineProgram.Row
  rows_ne_nil : rows ≠ []
  deriving DecidableEq

namespace LineTable

/-- The table of a sequence, if the sequence has rows. -/
def ofRows?
    (directories : List String)
    (files : List SourceFile)
    (rows : List LineProgram.Row) :
    Option LineTable :=
  if rows_ne_nil : rows ≠ [] then
    some {
      directories := directories
      files := files
      rows := rows
      rows_ne_nil := rows_ne_nil
    }
  else
    none

/-- The address of the first row. -/
def startAddress (table : LineTable) : UInt64 :=
  (table.rows.head table.rows_ne_nil).address

/-- The address of the last row. -/
def endAddress (table : LineTable) : UInt64 :=
  (table.rows.getLast table.rows_ne_nil).address

/-- The path of the first file, or no text without files. -/
def primaryPath (table : LineTable) : String :=
  match table.files.head? with
  | some file => file.path
  | none => ""

/-- Whether the address lies between those of the first and the last row. -/
def brackets
    (table : LineTable)
    (address : UInt64) :
    Bool :=
  table.startAddress ≤ address ∧ address ≤ table.endAddress

/-- The last row whose address is not past the given one. -/
def floorRow?
    (table : LineTable)
    (address : UInt64) :
    Option LineProgram.Row :=
  table.rows.reverse.find? (·.address ≤ address)

/-- The file that a row names; rows count the files from one. -/
def fileOf?
    (table : LineTable)
    (row : LineProgram.Row) :
    Option SourceFile :=
  if row.file = 0 then
    none
  else
    table.files[row.file.toNat - 1]?

/-- The path that a row is attributed to. -/
def pathFor
    (table : LineTable)
    (row : LineProgram.Row)
    (attribution : Attribution) :
    String :=
  match attribution with
  | .firstFile => table.primaryPath
  | .perRow =>
      match table.fileOf? row with
      | some file => file.path
      | none => table.primaryPath

end LineTable

end LineAtlas
