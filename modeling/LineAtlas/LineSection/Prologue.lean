import LineAtlas.LineTable
import LineAtlas.Text.Utf8

namespace LineAtlas

/-!
# Prologues

A prologue is all of a unit that comes before its program: the fixed header,
the list of directories and the list of files. Both lists end with an empty
name. Directory 0 is the compilation directory and is not written down.

The header says where the program starts. The prologue is left there, whether
its lists end earlier or later.
-/

/-- The name of directory 0. -/
def compilationDirectory : String :=
  "."

/-- What comes before the program of a unit. -/
structure Prologue where
  header : LineProgram.Header
  directories : List String
  files : List SourceFile
  deriving Repr, DecidableEq

namespace Prologue

/-- Reads a terminated text. -/
def readText : Reader String :=
  Utf8.decodeLossy <$> Reader.terminated

/-- Reads the next directory name, or the empty one that ends the list. -/
def readDirectory : Reader (Option String) := do
  let name ← readText
  if name.isEmpty then
    return none
  return some name

/-- The path of a file in a directory of the list. -/
def joinPath
    (directory name : String) :
    String :=
  directory ++ "/" ++ name

/--
Reads the next file, or the empty name that ends the list.

A file has to name a directory of the list; a failure is reported at the
file's own position.
-/
def readFile (directories : List String) : Reader (Option SourceFile) := do
  let start ← Reader.position
  let name ← readText
  if name.isEmpty then
    return none
  let directoryIndex ← Reader.unsigned
  let modificationTime ← Reader.unsigned
  let size ← Reader.unsigned
  match directories[directoryIndex.toNat]? with
  | none =>
      throw (.invalidStructure "file table" start
        ("directory index " ++ toString directoryIndex.toNat ++ " out of range ("
          ++ toString directories.length ++ " directories)"))
  | some directory =>
      return some {
        name := name
        directoryIndex := directoryIndex
        modificationTime := modificationTime
        size := size
        path := joinPath directory name
      }

theorem consuming_readText : readText.Consuming :=
  Reader.consuming_terminated.map Utf8.decodeLossy

theorem consuming_readDirectory : readDirectory.Consuming := by
  refine consuming_readText.bind fun name => ?_
  split
  · exact Reader.forward_pure _
  · exact Reader.forward_pure _

theorem consuming_readFile
    (directories : List String) :
    (readFile directories).Consuming := by
  intro before value after success
  obtain ⟨start, unmoved, asked, read⟩ := bind_eq_ok_iff.mp success
  cases asked
  refine (consuming_readText.bind fun name => ?_) before value after read
  split
  · exact Reader.forward_pure _
  · refine Reader.consuming_unsigned.forward.bind fun directoryIndex => ?_
    refine Reader.consuming_unsigned.forward.bind fun modificationTime => ?_
    refine Reader.consuming_unsigned.forward.bind fun size => ?_
    split
    · exact Reader.forward_throw _
    · exact Reader.forward_pure _

/-- Reads the directory list. -/
def readDirectories : Reader (List String) :=
  (compilationDirectory :: ·) <$> Reader.collect readDirectory consuming_readDirectory

/-- Reads the file list. -/
def readFiles (directories : List String) : Reader (List SourceFile) :=
  Reader.collect (readFile directories) (consuming_readFile directories)

/-- Moves to the start of the program, which has to lie inside the unit. -/
def seekProgram (header : LineProgram.Header) : Reader Unit := fun cursor =>
  if cursor.size < header.programOffset then
    .error
      (.invalidStructure "line program header" header.programOffset
        "prologue_length points past the unit")
      cursor
  else
    .ok () { cursor with position := header.programOffset }

/-- Reads the prologue of a unit of the given length, and moves to its program. -/
def read (unitLength : UInt32) : Reader Prologue := do
  let header ← LineProgram.Header.read unitLength
  let directories ← readDirectories
  let files ← readFiles directories
  seekProgram header
  return { header := header, directories := directories, files := files }

end Prologue

end LineAtlas
