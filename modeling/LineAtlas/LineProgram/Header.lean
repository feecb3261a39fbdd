import LineAtlas.Reader

namespace LineAtlas.LineProgram

/-!
# Headers of line-number programs

A unit starts with the length of the bytes after the length field. The fixed
part of the header follows; it says how the instructions of the unit are
encoded. `Header.read` accepts versions 2, 3 and 4 with a line range and an
opcode base other than zero.
-/

/-- The fixed part of the header of one unit. -/
structure Header where
  /-- The length of the unit, without the length field itself. -/
  unitLength : UInt32
  version : UInt16
  /-- The count of bytes from the end of this field to the first opcode. -/
  prologueLength : UInt32
  minimumInstructionLength : UInt8
  /-- Present from version 4 on, and 1 before. -/
  maximumOperations : UInt8
  defaultIsStatement : Bool
  lineBase : Int8
  lineRange : UInt8
  opcodeBase : UInt8
  /-- How many operands the opcodes 1, 2, 3 and so on are declared to have. -/
  operandCounts : List UInt8
  deriving Repr, DecidableEq

/-- How far one instruction moves the address and the line. -/
structure Advance where
  address : UInt64
  line : Int64
  deriving Repr, DecidableEq

namespace Header

/-- Reads the version, which has to be a known one. -/
def readVersion : Reader UInt16 := do
  let version ← Reader.uint16
  if version < 2 ∨ 4 < version then
    throw (.unsupportedVersion "line program" version.toUInt32)
  return version

/-- Reads a byte that must not be zero; `name` says what it is for. -/
def readNonzero (name : String) : Reader UInt8 := do
  let byte ← Reader.uint8
  if byte = 0 then
    let after ← Reader.position
    throw (.invalidStructure "line program header" after (name ++ " is zero"))
  return byte

/-- Reads the fixed part of a header, whose unit has the given length. -/
def read (unitLength : UInt32) : Reader Header := do
  let version ← readVersion
  let prologueLength ← Reader.uint32
  let minimumInstructionLength ← Reader.uint8
  let maximumOperations ← if version < 4 then pure 1 else Reader.uint8
  let defaultIsStatement ← Reader.uint8
  let lineBase ← Reader.uint8
  let lineRange ← readNonzero "line_range"
  let opcodeBase ← readNonzero "opcode_base"
  let operandCounts ← Reader.times Reader.uint8 (opcodeBase.toNat - 1)
  return {
    unitLength := unitLength
    version := version
    prologueLength := prologueLength
    minimumInstructionLength := minimumInstructionLength
    maximumOperations := maximumOperations
    defaultIsStatement := defaultIsStatement ≠ 0
    lineBase := lineBase.toInt8
    lineRange := lineRange
    opcodeBase := opcodeBase
    operandCounts := operandCounts
  }

/--
The offset of the first opcode, counted from the version field: two bytes of
version and four of prologue length come before the prologue.
-/
def programOffset (header : Header) : Nat :=
  6 + header.prologueLength.toNat

/--
What a special opcode advances by; opcodes below the opcode base are not
special.

The opcodes from the base on run through all lines of the line range for one
address, then through all lines for the next.
-/
def specialAdvance?
    (header : Header)
    (opcode : UInt8) :
    Option Advance :=
  if opcode < header.opcodeBase then
    none
  else
    let adjusted := opcode - header.opcodeBase
    some {
      address :=
        (adjusted / header.lineRange).toUInt64
          * header.minimumInstructionLength.toUInt64
      line :=
        header.lineBase.toInt64
          + Int64.ofNat (adjusted % header.lineRange).toNat
    }

/-- The address advance of the last special opcode, 255. -/
def constantAdvance (header : Header) : UInt64 :=
  match header.specialAdvance? 255 with
  | some advance => advance.address
  | none => 0

/-- How many operands an opcode is declared to have; without a declaration, none. -/
def operandCount
    (header : Header)
    (opcode : UInt8) :
    Nat :=
  match header.operandCounts[opcode.toNat - 1]? with
  | some count => count.toNat
  | none => 0

end Header

end LineAtlas.LineProgram
