import LineAtlas.Bytes

namespace LineAtlas.LineProgram

/-!
# Opcodes of line-number programs

The first byte of an instruction names it. The bytes 1 to 9 name the standard
instructions whatever the header says, and 0 opens an extended instruction,
which a second byte names.
-/

/-- The instructions that the bytes 1 to 9 name. -/
inductive StandardOpcode where
  | copy
  | advancePc
  | advanceLine
  | setFile
  | setColumn
  | negateStatement
  | setBasicBlock
  | constAddPc
  | fixedAdvancePc
  deriving Repr, DecidableEq

/-- The standard instruction that a byte names, if it names one. -/
def StandardOpcode.ofByte? (byte : UInt8) : Option StandardOpcode :=
  match byte with
  | 1 => some copy
  | 2 => some advancePc
  | 3 => some advanceLine
  | 4 => some setFile
  | 5 => some setColumn
  | 6 => some negateStatement
  | 7 => some setBasicBlock
  | 8 => some constAddPc
  | 9 => some fixedAdvancePc
  | _ => none

/-- The extended instructions. -/
inductive ExtendedOpcode where
  | endSequence
  | setAddress
  | defineFile
  /-- An instruction without a meaning here. -/
  | unknown (byte : UInt8)
  deriving Repr, DecidableEq

/-- The extended instruction that a byte names. -/
def ExtendedOpcode.ofByte (byte : UInt8) : ExtendedOpcode :=
  match byte with
  | 1 => endSequence
  | 2 => setAddress
  | 3 => defineFile
  | other => unknown other

end LineAtlas.LineProgram
