import LineAtlas.LineProgram.Instruction
import LineAtlas.Options

namespace LineAtlas.LineProgram

/-!
# Registers and rows

The registers of the line machine, and what each instruction does to them.
Addresses and lines wrap at 64 bits. `Registers.apply` reads no bytes, so it
cannot fail.
-/

/-- One row of the line matrix: where an address comes from. -/
structure Row where
  address : UInt64
  line : Int64
  /-- The place in the file list, counted from one. -/
  file : UInt64
  /-- The column, or zero if it is unknown. -/
  column : UInt64
  deriving Repr, DecidableEq

/-- The registers of the line machine. -/
structure Registers where
  address : UInt64
  file : UInt64
  line : Int64
  column : UInt64
  isStatement : Bool
  basicBlock : Bool
  endSequence : Bool
  deriving Repr, DecidableEq

namespace Registers

/-- The registers at the start of a sequence. -/
def initial (isStatement : Bool) : Registers where
  address := 0
  file := 1
  line := 1
  column := 0
  isStatement := isStatement
  basicBlock := false
  endSequence := false

/-- The row that the registers describe. -/
def row (registers : Registers) : Row where
  address := registers.address
  line := registers.line
  file := registers.file
  column := registers.column

/-- Appends the row that the registers describe, which ends a basic block. -/
def emit (registers : Registers) : Registers × Option Row :=
  ({ registers with basicBlock := false }, some registers.row)

/-- Moves the address on. -/
def advanceAddress
    (registers : Registers)
    (count : UInt64) :
    Registers :=
  { registers with address := registers.address + count }

/-- Moves the line on, or back. -/
def advanceLine
    (registers : Registers)
    (delta : Int64) :
    Registers :=
  { registers with line := registers.line + delta }

/-- The registers after an instruction, and the row that it appends. -/
def apply
    (header : Header)
    (constAddPc : ConstAddPc)
    (registers : Registers)
    (instruction : Instruction) :
    Registers × Option Row :=
  match instruction with
  | .copy => registers.emit
  | .advancePc count =>
      (registers.advanceAddress (count * header.minimumInstructionLength.toUInt64), none)
  | .advanceLine delta => (registers.advanceLine delta, none)
  | .setFile file => ({ registers with file := file }, none)
  | .setColumn column => ({ registers with column := column }, none)
  | .negateStatement =>
      ({ registers with isStatement := !registers.isStatement }, none)
  | .setBasicBlock => ({ registers with basicBlock := true }, none)
  | .constAddPc =>
      match constAddPc with
      | .ignore => (registers, none)
      | .standard => (registers.advanceAddress header.constantAdvance, none)
  | .fixedAdvancePc count => (registers.advanceAddress count.toUInt64, none)
  | .special advance =>
      ((registers.advanceAddress advance.address).advanceLine advance.line).emit
  | .endSequence => ({ registers with endSequence := true }, none)
  | .setAddress address => ({ registers with address := address }, none)
  | .ignored => (registers, none)

end Registers

end LineAtlas.LineProgram
