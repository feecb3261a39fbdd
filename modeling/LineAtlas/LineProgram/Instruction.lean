import LineAtlas.LineProgram.Header
import LineAtlas.LineProgram.Opcode

namespace LineAtlas.LineProgram

/-!
# Instructions of line-number programs

`Instruction.read` takes an opcode and reads the operands that matter for the
effect. The length of an extended instruction is binding: what its effect does
not read stays behind as surplus, and the machine skips it after the effect.
-/

/-- What one instruction does, with its operands. -/
inductive Instruction where
  /-- Appends a row. -/
  | copy
  /-- Advances the address by a count of minimal instructions. -/
  | advancePc (count : UInt64)
  | advanceLine (delta : Int64)
  | setFile (file : UInt64)
  | setColumn (column : UInt64)
  | negateStatement
  | setBasicBlock
  /-- Advances the address like the last special opcode does. -/
  | constAddPc
  /-- Advances the address by a count of bytes. -/
  | fixedAdvancePc (count : UInt16)
  /-- Advances the address and the line, and appends a row. -/
  | special (advance : Advance)
  | endSequence
  | setAddress (address : UInt64)
  /-- Has no effect on registers or rows. -/
  | ignored
  deriving Repr, DecidableEq

/-- An instruction and the count of its bytes that its effect does not read. -/
structure Fetched where
  instruction : Instruction
  surplus : Nat
  deriving Repr, DecidableEq

namespace Instruction

/-- Reads the operand of a standard instruction. -/
def readStandard (opcode : StandardOpcode) : Reader Instruction :=
  match opcode with
  | .copy => return copy
  | .advancePc => return advancePc (← Reader.unsigned)
  | .advanceLine => return advanceLine (← Reader.signed)
  | .setFile => return setFile (← Reader.unsigned)
  | .setColumn => return setColumn (← Reader.unsigned)
  | .negateStatement => return negateStatement
  | .setBasicBlock => return setBasicBlock
  | .constAddPc => return constAddPc
  | .fixedAdvancePc => return fixedAdvancePc (← Reader.uint16)

/-- The operand sizes that an address can have. -/
def isAddressSize (size : Nat) : Bool :=
  size = 1 ∨ size = 2 ∨ size = 4 ∨ size = 8

/--
Reads the operand of an extended instruction with `size` operand bytes.

Only an address of a usual size is read. Every other operand is surplus.
-/
def readExtendedOperand
    (opcode : ExtendedOpcode)
    (size : Nat) :
    Reader Fetched :=
  match opcode with
  | .endSequence =>
      return { instruction := endSequence, surplus := size }
  | .setAddress =>
      if isAddressSize size then do
        let address ← Reader.address size
        return { instruction := setAddress address, surplus := 0 }
      else
        return { instruction := ignored, surplus := size }
  | .defineFile =>
      return { instruction := ignored, surplus := size }
  | .unknown _ =>
      return { instruction := ignored, surplus := size }

/-- Fails if the position `count` bytes further on does not fit into 64 bits. -/
def requireAhead (count : Nat) : Reader Unit := do
  let here ← Reader.position
  if addressLimit ≤ here + count then
    throw (.overflow "extended opcode")

/--
Reads an extended instruction: its length, then the opcode and the operand that
the length counts. A length of zero counts no opcode and has no effect.
-/
def readExtended : Reader Fetched := do
  let length ← Reader.unsigned
  if length = 0 then
    return { instruction := ignored, surplus := 0 }
  let opcode ← Reader.uint8
  let size := length.toNat - 1
  requireAhead size
  readExtendedOperand (.ofByte opcode) size

/--
Reads the operands of the instruction that `opcode` names.

The standard instructions come first, so that they keep their meaning where
the opcode base would make them special. An opcode below the base without a
meaning has its declared operands read and dropped.
-/
def read
    (header : Header)
    (opcode : UInt8) :
    Reader Fetched :=
  if opcode = 0 then
    readExtended
  else
    match StandardOpcode.ofByte? opcode, header.specialAdvance? opcode with
    | some standard, _ => do
        let instruction ← readStandard standard
        return { instruction := instruction, surplus := 0 }
    | none, some advance =>
        return { instruction := special advance, surplus := 0 }
    | none, none => do
        let _ ← Reader.times Reader.unsigned (header.operandCount opcode)
        return { instruction := ignored, surplus := 0 }

theorem forward_readStandard
    (opcode : StandardOpcode) :
    (readStandard opcode).Forward := by
  cases opcode
  case advancePc =>
    exact Reader.consuming_unsigned.forward.bind fun _ => Reader.forward_pure _
  case advanceLine =>
    exact Reader.consuming_signed.forward.bind fun _ => Reader.forward_pure _
  case setFile =>
    exact Reader.consuming_unsigned.forward.bind fun _ => Reader.forward_pure _
  case setColumn =>
    exact Reader.consuming_unsigned.forward.bind fun _ => Reader.forward_pure _
  case fixedAdvancePc =>
    exact Reader.consuming_uint16.forward.bind fun _ => Reader.forward_pure _
  all_goals exact Reader.forward_pure _

theorem forward_readExtendedOperand
    (opcode : ExtendedOpcode)
    (size : Nat) :
    (readExtendedOperand opcode size).Forward := by
  cases opcode
  case setAddress =>
    simp only [readExtendedOperand]
    split
    · exact (Reader.forward_address size).bind fun _ => Reader.forward_pure _
    · exact Reader.forward_pure _
  all_goals exact Reader.forward_pure _

theorem forward_requireAhead (count : Nat) : (requireAhead count).Forward := by
  refine Reader.forward_position.bind fun here => ?_
  split
  · exact Reader.forward_throw _
  · exact Reader.forward_pure ()

theorem forward_readExtended : readExtended.Forward := by
  refine Reader.consuming_unsigned.forward.bind fun length => ?_
  split
  · exact Reader.forward_pure _
  · exact Reader.consuming_uint8.forward.bind fun opcode =>
      (forward_requireAhead _).bind fun _ =>
        forward_readExtendedOperand _ _

theorem forward_read
    (header : Header)
    (opcode : UInt8) :
    (read header opcode).Forward := by
  unfold read
  split
  · exact forward_readExtended
  · split
    · exact (forward_readStandard _).bind fun _ => Reader.forward_pure _
    · exact Reader.forward_pure _
    · exact (Reader.consuming_unsigned.forward.times _).bind fun _ =>
        Reader.forward_pure _

end Instruction

end LineAtlas.LineProgram
