import LineAtlas.Proofs.Checked.Reading
import LineAtlas.Proofs.Findings
import LineAtlas.Proofs.LineSection.PrologueLocality

namespace LineAtlas.Checked

/-!
# Prologues on a processor

The prologue of a unit is read field by field. Two facts about what it finds keep later
operations from trapping: the line range that special opcodes divide by is not zero, and
the offset of the program is that of a 32-bit number and six bytes.
-/

open LineProgram (Header)

/-- Reads the version, which has to be a known one. -/
def readVersion : Reading UInt16 := do
  let version ← Reading.uint16
  if version < 2 ∨ 4 < version then
    throw (.failure (.unsupportedVersion "line program" version.toUInt32))
  return version

/-- Reads a byte that must not be zero; `name` says what it is for. -/
def readNonzero (name : String) : Reading UInt8 := do
  let byte ← Reading.uint8
  if byte = 0 then
    let after ← Reading.position
    throw (.failure (.invalidStructure "line program header" after (name ++ " is zero")))
  return byte

/-- Reads the count of operations, which is written from version 4 on. -/
def readOperations (version : UInt16) : Reading UInt8 :=
  if version < 4 then
    pure 1
  else
    Reading.uint8

/-- Reads the fixed part of a header, whose unit has the given length. -/
def readHeader (unitLength : UInt32) : Reading Header := do
  let version ← readVersion
  let prologueLength ← Reading.uint32
  let minimumInstructionLength ← Reading.uint8
  let maximumOperations ← readOperations version
  let defaultIsStatement ← Reading.uint8
  let lineBase ← Reading.uint8
  let lineRange ← readNonzero "line_range"
  let opcodeBase ← readNonzero "opcode_base"
  let operandCounts ← Reading.times Reading.uint8 (opcodeBase.toNat - 1)
  return {
    unitLength := unitLength
    version := version
    prologueLength := prologueLength
    minimumInstructionLength := minimumInstructionLength
    maximumOperations := maximumOperations
    defaultIsStatement := defaultIsStatement ≠ 0
    lineBase := lineBase.toInt8
    lineRange := lineRange
    opcodeBase := opcodeBase
    operandCounts := operandCounts
  }

/-- The offset of the first opcode, counted from the version field. -/
def programOffset (header : Header) : Except Stop Nat :=
  sum 6 header.prologueLength.toNat

/-- Reads a terminated text. -/
def readText : Reading String :=
  Utf8.decodeLossy <$> Reading.terminated

/-- Reads the next directory name, or the empty one that ends the list. -/
def readDirectory : Reading (Option String) := do
  let name ← readText
  if name.isEmpty then
    return none
  return some name

/-- Reads the directory list. -/
def readDirectories : Reading (List String) :=
  (compilationDirectory :: ·) <$> Reading.collect readDirectory

/-- Reads the next file, or the empty name that ends the list. -/
def readFile (directories : List String) : Reading (Option SourceFile) := do
  let start ← Reading.position
  let name ← readText
  if name.isEmpty then
    return none
  let directoryIndex ← Reading.unsigned
  let modificationTime ← Reading.unsigned
  let size ← Reading.unsigned
  match directories[directoryIndex.toNat]? with
  | none =>
      throw (.failure (.invalidStructure "file table" start
        ("directory index " ++ toString directoryIndex.toNat ++ " out of range ("
          ++ toString directories.length ++ " directories)")))
  | some directory =>
      return some {
        name := name
        directoryIndex := directoryIndex
        modificationTime := modificationTime
        size := size
        path := Prologue.joinPath directory name
      }

/-- Moves to the start of the program, unless the lists have ended there. -/
def realign (start : Nat) : Reading Unit := do
  let cursor ← get
  if cursor.position ≠ start then
    if cursor.size < start then
      throw (.failure (.invalidStructure "line program header" start
        "prologue_length points past the unit"))
    set { cursor with position := start }

/-- Reads the prologue of a unit of the given length, and moves to its program. -/
def readPrologue (unitLength : UInt32) : Reading Prologue := do
  let header ← readHeader unitLength
  let start ← programOffset header
  let directories ← readDirectories
  let files ← Reading.collect (readFile directories)
  realign start
  return { header := header, directories := directories, files := files }

/-! ## Agreement -/

theorem agrees_position : Agrees Fits Reading.position Reader.position where
  same _ _ := rfl
  keeps before value after fits success := by
    cases success
    exact fits

theorem agrees_readVersion : Agrees Fits readVersion Header.readVersion :=
  Reading.agrees_uint16.bind fun _ =>
    agrees_ite (fun _ => agrees_throw _) fun _ => agrees_pure _

theorem agrees_readNonzero (name : String) :
    Agrees Fits (readNonzero name) (Header.readNonzero name) :=
  Reading.agrees_uint8.bind fun _ =>
    agrees_ite (fun _ => agrees_position.bind fun _ => agrees_throw _) fun _ => agrees_pure _

theorem agrees_readOperations (version : UInt16) :
    Agrees Fits (readOperations version) (if version < 4 then pure 1 else Reader.uint8) :=
  agrees_ite (fun _ => agrees_pure 1) fun _ => Reading.agrees_uint8

theorem agrees_readHeader (unitLength : UInt32) :
    Agrees Fits (readHeader unitLength) (Header.read unitLength) := by
  rw [Prologue.readHeader_eq]
  refine agrees_readVersion.bind fun version => ?_
  refine Reading.agrees_uint32.bind fun prologueLength => ?_
  refine Reading.agrees_uint8.bind fun minimumInstructionLength => ?_
  refine (agrees_readOperations version).bind fun maximumOperations => ?_
  refine Reading.agrees_uint8.bind fun defaultIsStatement => ?_
  refine Reading.agrees_uint8.bind fun lineBase => ?_
  refine (agrees_readNonzero "line_range").bind fun lineRange => ?_
  refine (agrees_readNonzero "opcode_base").bind fun opcodeBase => ?_
  refine (Reading.agrees_times Reading.agrees_uint8 _).bind fun operandCounts => ?_
  exact agrees_pure _

theorem programOffset_eq (header : Header) :
    programOffset header = .ok header.programOffset := by
  have small := header.prologueLength.toNat_lt
  have limit : addressLimit = 2 ^ 64 := rfl
  exact sum_of_lt (by omega)

theorem agrees_readText : Agrees Fits readText Prologue.readText :=
  Reading.agrees_terminated.map Utf8.decodeLossy

theorem agrees_readDirectory : Agrees Fits readDirectory Prologue.readDirectory :=
  agrees_readText.bind fun _ => agrees_ite (fun _ => agrees_pure _) fun _ => agrees_pure _

theorem agrees_readDirectories : Agrees Fits readDirectories Prologue.readDirectories :=
  (Reading.agrees_collect _ agrees_readDirectory).map _

theorem agrees_readFile (directories : List String) :
    Agrees Fits (readFile directories) (Prologue.readFile directories) := by
  refine agrees_position.bind fun start => agrees_readText.bind fun name => ?_
  refine agrees_ite (fun _ => agrees_pure _) fun _ => ?_
  refine Reading.agrees_unsigned.bind fun directoryIndex => ?_
  refine Reading.agrees_unsigned.bind fun modificationTime => ?_
  refine Reading.agrees_unsigned.bind fun size => ?_
  cases directories[directoryIndex.toNat]? with
  | none =>
      exact agrees_throw _
  | some directory =>
      exact agrees_pure _

theorem agrees_realign (header : Header) :
    Agrees Fits (realign header.programOffset) (Prologue.seekProgram header) where
  same before fits := by
    rw [realign, get_bind, Prologue.seekProgram]
    split
    · split
      · rfl
      · rfl
    · next aligned =>
        have here : before.position = header.programOffset := Decidable.not_not.mp aligned
        rw [if_neg (Nat.not_lt.mpr (here ▸ fits.position_le)), ← here]
        rfl
  keeps before value after fits success := by
    unfold Prologue.seekProgram at success
    split at success
    · cases success
    · next inside =>
        cases success
        exact ⟨Nat.le_of_not_lt inside, fits.size_lt⟩

theorem agrees_readPrologue (unitLength : UInt32) :
    Agrees Fits (readPrologue unitLength) (Prologue.read unitLength) := by
  refine (agrees_readHeader unitLength).bind fun header => ?_
  rw [programOffset_eq, lift_ok_bind]
  refine agrees_readDirectories.bind fun directories => ?_
  refine (Reading.agrees_collect _ (agrees_readFile directories)).bind fun files => ?_
  exact (agrees_realign header).bind fun _ => agrees_pure _

/-! ## Divisors -/

theorem finds_readNonzero (name : String) : (Header.readNonzero name).Finds (· ≠ 0) := by
  refine Reader.finds_bind fun byte => ?_
  split
  · exact Reader.finds_bind fun _ => Reader.finds_throw _
  · next nonzero =>
      exact Reader.finds_pure nonzero

/-- Special opcodes have a line range to divide by. -/
theorem finds_readHeader (unitLength : UInt32) :
    (Header.read unitLength).Finds (·.lineRange ≠ 0) := by
  rw [Prologue.readHeader_eq]
  refine Reader.finds_bind fun version => ?_
  refine Reader.finds_bind fun prologueLength => ?_
  refine Reader.finds_bind fun minimumInstructionLength => ?_
  refine Reader.finds_bind fun maximumOperations => ?_
  refine Reader.finds_bind fun defaultIsStatement => ?_
  refine Reader.finds_bind fun lineBase => ?_
  refine (finds_readNonzero "line_range").bind fun lineRange nonzero => ?_
  refine Reader.finds_bind fun opcodeBase => ?_
  exact Reader.finds_bind fun operandCounts => Reader.finds_pure nonzero

theorem finds_readPrologue (unitLength : UInt32) :
    (Prologue.read unitLength).Finds (·.header.lineRange ≠ 0) := by
  refine (finds_readHeader unitLength).bind fun header nonzero => ?_
  refine Reader.finds_bind fun directories => Reader.finds_bind fun files => ?_
  exact Reader.finds_bind fun _ => Reader.finds_pure nonzero

end LineAtlas.Checked
