import LineAtlas.Proofs.LineSection.PrologueLocality
import LineAtlas.Proofs.Writing.Text
import Mathlib.Data.List.Forall2

namespace LineAtlas

/-!
# Units as they are written

A `WrittenUnit` is everything that a unit says, together with the choices that its
bytes leave open: the spelling of each number in the file list, the padding after
the lists, and the byte strings of the sequences. Its fields carry what makes it
a unit that can be read, so each one is read back as the prologue that it writes.
-/

/-- A number in one of the base-128 spellings that a reader accepts for it. -/
structure WrittenNumber where
  value : UInt64
  bytes : Bytes
  spelling : Base128.UnsignedSpelling bytes value.toNat
  short : bytes.length ≤ 10

/-- A name that can stand in a list. -/
structure ListedName where
  text : String
  nonempty : text ≠ ""
  noNul : '\x00' ∉ text.toList

/-- The bytes of a name and of the NUL that ends it. -/
def ListedName.bytes (name : ListedName) : Bytes :=
  Utf8.encode name.text ++ [0]

/-- The directories of a unit, by their places: the compilation directory and those listed. -/
def directoryNames (directories : List ListedName) : List String :=
  "." :: directories.map (·.text)

/-- A file that can stand in a list after the given directories. -/
structure ListedFile (directories : List ListedName) where
  name : ListedName
  directoryIndex : WrittenNumber
  modificationTime : WrittenNumber
  size : WrittenNumber
  listed : directoryIndex.value.toNat ≤ directories.length

namespace ListedFile

variable {directories : List ListedName}

def bytes (file : ListedFile directories) : Bytes :=
  file.name.bytes
    ++ (file.directoryIndex.bytes ++ (file.modificationTime.bytes ++ file.size.bytes))

/-- The name of the directory that a file is in. -/
def directory (file : ListedFile directories) : String :=
  (directoryNames directories).get
    ⟨file.directoryIndex.value.toNat, by
      have := file.listed
      simp only [directoryNames, List.length_cons, List.length_map]
      omega⟩

/-- The file that is read from these bytes. -/
def sourceFile (file : ListedFile directories) : SourceFile where
  name := file.name.text
  directoryIndex := file.directoryIndex.value
  modificationTime := file.modificationTime.value
  size := file.size.value
  path := file.directory ++ "/" ++ file.name.text

end ListedFile

/-- A unit as it is written. -/
structure WrittenUnit where
  version : UInt16
  known : version = 2 ∨ version = 3 ∨ version = 4
  minimumInstructionLength : UInt8
  /-- Written from version 4 on. -/
  maximumOperations : UInt8
  defaultIsStatement : UInt8
  lineBase : UInt8
  lineRange : UInt8
  lineRange_ne_zero : lineRange ≠ 0
  opcodeBase : UInt8
  opcodeBase_ne_zero : opcodeBase ≠ 0
  operandCounts : List UInt8
  operandCounts_length : operandCounts.length = opcodeBase.toNat - 1
  directories : List ListedName
  files : List (ListedFile directories)
  /-- What the prologue length counts after the lists. -/
  padding : Bytes
  sequences : List Bytes

namespace WrittenUnit

variable
  (unit : WrittenUnit)
  (order : ByteOrder)

/-- The fields between the prologue length and the lists. -/
def fields : Bytes :=
  [unit.minimumInstructionLength]
    ++ ((if unit.version < 4 then [] else [unit.maximumOperations])
    ++ ([unit.defaultIsStatement]
    ++ ([unit.lineBase]
    ++ ([unit.lineRange]
    ++ ([unit.opcodeBase] ++ unit.operandCounts)))))

def directoryList : Bytes :=
  unit.directories.flatMap (·.bytes) ++ [0]

def fileList : Bytes :=
  unit.files.flatMap (·.bytes) ++ [0]

/-- What the prologue length counts. -/
def prologueLength : Nat :=
  (unit.fields ++ (unit.directoryList ++ (unit.fileList ++ unit.padding))).length

/-- The bytes of the header, from the version on. -/
def headerBytes : Bytes :=
  order.field 2 unit.version.toNat ++ (order.field 4 unit.prologueLength ++ unit.fields)

/-- The bytes of a unit after its length field. -/
def body : Bytes :=
  unit.headerBytes order
    ++ (unit.directoryList ++ (unit.fileList ++ (unit.padding ++ unit.sequences.flatten)))

/-- The bytes of a unit. -/
def bytes : Bytes :=
  order.field 4 (unit.body order).length ++ unit.body order

/-- The header that is read from these bytes. -/
def header : LineProgram.Header where
  unitLength := UInt32.ofNat (unit.body order).length
  version := unit.version
  prologueLength := UInt32.ofNat unit.prologueLength
  minimumInstructionLength := unit.minimumInstructionLength
  maximumOperations := if unit.version < 4 then 1 else unit.maximumOperations
  defaultIsStatement := unit.defaultIsStatement ≠ 0
  lineBase := unit.lineBase.toInt8
  lineRange := unit.lineRange
  opcodeBase := unit.opcodeBase
  operandCounts := unit.operandCounts

/-- The prologue that is read from these bytes. -/
def prologue : Prologue where
  header := unit.header order
  directories := directoryNames unit.directories
  files := unit.files.map (·.sourceFile)

/-! ## Headers are read back -/

theorem reads_version :
    LineProgram.Header.readVersion.Reads order
      (order.field 2 unit.version.toNat) unit.version := by
  have inRange : ¬ (unit.version < 2 ∨ 4 < unit.version) := by
    rcases unit.known with two | three | four
    · simp [two]
    · simp [three]
    · simp [four]
  refine (Reader.reads_uint16 order unit.version).bind_nil ?_
  simpa [inRange] using Reader.reads_pure order unit.version

theorem reads_nonzero
    (name : String)
    {byte : UInt8}
    (nonzero : byte ≠ 0) :
    (LineProgram.Header.readNonzero name).Reads order [byte] byte := by
  refine (Reader.reads_uint8 order byte).bind_nil ?_
  simpa [nonzero] using Reader.reads_pure order byte

theorem reads_operandCounts :
    (Reader.uint8.times (unit.opcodeBase.toNat - 1)).Reads order
      unit.operandCounts unit.operandCounts := by
  have each :
      List.Forall₂ (Reader.uint8.Reads order)
        (unit.operandCounts.map fun count => [count]) unit.operandCounts := by
    rw [List.forall₂_map_left_iff]
    exact List.forall₂_same.mpr fun count _ => Reader.reads_uint8 order count
  have counts := Reader.reads_times each
  rwa [← List.flatMap_def, List.flatMap_singleton', unit.operandCounts_length] at counts

theorem reads_header
    (short : unit.prologueLength < 2 ^ 32) :
    (LineProgram.Header.read (UInt32.ofNat (unit.body order).length)).Reads order
      (unit.headerBytes order) (unit.header order) := by
  have sameLength : (UInt32.ofNat unit.prologueLength).toNat = unit.prologueLength := by
    simpa using Nat.mod_eq_of_lt short
  have length := Reader.reads_uint32 order (UInt32.ofNat unit.prologueLength)
  rw [sameLength] at length
  have operations :
      (if unit.version < 4 then pure 1 else Reader.uint8).Reads order
        (if unit.version < 4 then [] else [unit.maximumOperations])
        (if unit.version < 4 then 1 else unit.maximumOperations) := by
    split
    · exact Reader.reads_pure order 1
    · exact Reader.reads_uint8 order unit.maximumOperations
  rw [Prologue.readHeader_eq]
  refine (unit.reads_version order).bind (length.bind ?_)
  refine (Reader.reads_uint8 order unit.minimumInstructionLength).bind ?_
  refine operations.bind ?_
  refine (Reader.reads_uint8 order unit.defaultIsStatement).bind ?_
  refine (Reader.reads_uint8 order unit.lineBase).bind ?_
  refine (reads_nonzero order "line_range" unit.lineRange_ne_zero).bind ?_
  refine (reads_nonzero order "opcode_base" unit.opcodeBase_ne_zero).bind ?_
  exact (unit.reads_operandCounts order).bind_nil (Reader.reads_pure order _)

/-! ## Lists are read back -/

theorem reads_text (name : ListedName) :
    Prologue.readText.Reads order name.bytes name.text := by
  have noNul := Utf8.zero_not_mem_encode name.noNul
  have text := (Reader.reads_terminated order noNul).map Utf8.decodeLossy
  rwa [Utf8.decodeLossy_encode] at text

/-- The mark that ends a list is read as an empty text. -/
theorem reads_mark : Prologue.readText.Reads order [0] "" := by
  have empty : Utf8.decodeLossy [] = "" := rfl
  have mark := (Reader.reads_terminated order List.not_mem_nil).map Utf8.decodeLossy
  rwa [empty] at mark

theorem isEmpty_text (name : ListedName) :
    name.text.isEmpty = false := by
  simpa using name.nonempty

theorem reads_directory (name : ListedName) :
    Prologue.readDirectory.Reads order name.bytes (some name.text) := by
  refine (reads_text order name).bind_nil ?_
  rw [if_neg (by simp [isEmpty_text])]
  exact Reader.reads_pure order _

theorem reads_directories :
    Prologue.readDirectories.Reads order
      unit.directoryList (directoryNames unit.directories) := by
  have ends : Prologue.readDirectory.Reads order [0] none :=
    (reads_mark order).bind_nil (Reader.reads_pure order none)
  exact (Reader.reads_collect (fun name _ => reads_directory order name) ends).map _

theorem reads_file
    {directories : List ListedName}
    (file : ListedFile directories) :
    (Prologue.readFile (directoryNames directories)).Reads order
      file.bytes (some file.sourceFile) := by
  have found :
      (directoryNames directories)[file.directoryIndex.value.toNat]? = some file.directory :=
    List.getElem?_eq_getElem _
  refine Reader.reads_position_bind fun start => ?_
  refine (reads_text order file.name).bind ?_
  rw [if_neg (by simp [isEmpty_text])]
  refine (Reader.reads_unsigned order file.directoryIndex.spelling file.directoryIndex.short).bind ?_
  refine (Reader.reads_unsigned order file.modificationTime.spelling file.modificationTime.short).bind ?_
  refine (Reader.reads_unsigned order file.size.spelling file.size.short).bind_nil ?_
  rw [found]
  exact Reader.reads_pure order _

theorem reads_files :
    (Prologue.readFiles (directoryNames unit.directories)).Reads order
      unit.fileList (unit.files.map (·.sourceFile)) := by
  have ends : (Prologue.readFile (directoryNames unit.directories)).Reads order [0] none :=
    Reader.reads_position_bind fun _ =>
      (reads_mark order).bind_nil (Reader.reads_pure order none)
  exact Reader.reads_collect (fun file _ => reads_file order file) ends

/-! ## The whole prologue -/

theorem length_headerBytes :
    (unit.headerBytes order).length = 6 + unit.fields.length := by
  simp only [headerBytes, List.length_append, ByteOrder.length_field]
  omega

theorem toNat_prologueLength
    (short : unit.prologueLength < 2 ^ 32) :
    (unit.prologue order).header.prologueLength.toNat = unit.prologueLength :=
  UInt32.toNat_ofNat_of_lt' short

/-- The sequences come after as many bytes as the header says. -/
theorem exists_body_eq :
    ∃ front,
      unit.body order = front ++ unit.sequences.flatten ∧
        front.length = 6 + unit.prologueLength := by
  refine ⟨unit.headerBytes order ++ (unit.directoryList ++ (unit.fileList ++ unit.padding)), ?_, ?_⟩
  · simp only [body, List.append_assoc]
  · simp only [prologueLength, length_headerBytes, List.length_append]
    omega

/-- The header and the lists are read one after the other. -/
theorem opens_body
    (short : (unit.body order).length < 2 ^ 32) :
    (unit.prologue order).Opens order
      (UInt32.ofNat (unit.body order).length) (unit.body order) := by
  obtain ⟨front, frontSplit, frontLength⟩ := unit.exists_body_eq order
  have inside : 6 + unit.prologueLength ≤ (unit.body order).length := by
    rw [frontSplit, List.length_append]
    omega
  have placed : (Cursor.ofBytes order (unit.body order)).Placed :=
    Cursor.placed_ofBytes (Nat.lt_trans short (by decide))
  have split : (Cursor.ofBytes order (unit.body order)).rest = unit.headerBytes order ++ _ :=
    rfl
  have headerRead := unit.reads_header order (by omega) _ _ placed rfl split
  have directoriesRead :=
    unit.reads_directories order _ _ (placed.advance split) rfl (Cursor.rest_advance split)
  have filesRead :=
    unit.reads_files order _ _
      ((placed.advance split).advance (Cursor.rest_advance split)) rfl
      (Cursor.rest_advance (Cursor.rest_advance split))
  refine ⟨⟨_, _, _, headerRead, directoriesRead, filesRead⟩, ?_⟩
  rwa [unit.toNat_prologueLength order (by omega)]

/-- The program is what the sequences write. -/
theorem programBytes_body
    (short : (unit.body order).length < 2 ^ 32) :
    (unit.prologue order).programBytes (unit.body order) = unit.sequences.flatten := by
  obtain ⟨front, split, length⟩ := unit.exists_body_eq order
  have fits : unit.prologueLength < 2 ^ 32 := by
    rw [split, List.length_append] at short
    omega
  rw [Prologue.programBytes, unit.toNat_prologueLength order fits, split, ← length,
    List.drop_left]

end WrittenUnit

end LineAtlas
