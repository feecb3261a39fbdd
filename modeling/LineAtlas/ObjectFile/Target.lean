namespace LineAtlas.ObjectFile

/-!
# Targets of object files

The processor that an object file is made for, and the width of the file's
own fields.
-/

/-- The width of the fields of an object file. -/
inductive FileClass where
  | bits32
  | bits64
  deriving Repr, DecidableEq

/-- The width in bits. -/
def FileClass.bits : FileClass → Nat
  | bits32 => 32
  | bits64 => 64

/-- The processor that an object file names. -/
inductive Processor where
  | none
  | x86
  | arm
  | x86_64
  | msp430
  | arm64
  | riscV
  /-- A number without a name here. -/
  | other (number : UInt16)
  deriving Repr, DecidableEq

/-- The processor with a number of the format's list. -/
def Processor.ofNumber (number : UInt16) : Processor :=
  match number with
  | 0 => none
  | 3 => x86
  | 40 => arm
  | 62 => x86_64
  | 105 => msp430
  | 183 => arm64
  | 243 => riscV
  | number => other number

/-- A processor in one of its widths. -/
inductive Architecture where
  | msp430
  | x86_64
  | x86
  | arm64
  | arm
  | riscV64
  | riscV32
  | unknown (number : UInt16)
  deriving Repr, DecidableEq

namespace Architecture

/-- The architecture of a processor in a file of the given class. -/
def ofProcessor
    (processor : Processor)
    (fileClass : FileClass) :
    Architecture :=
  match processor, fileClass with
  | .msp430, _ => msp430
  | .x86_64, _ => x86_64
  | .x86, _ => x86
  | .arm64, _ => arm64
  | .arm, _ => arm
  | .riscV, .bits64 => riscV64
  | .riscV, .bits32 => riscV32
  | .other number, _ => unknown number
  | .none, _ => unknown 0

/-- The count of bytes of an address. -/
def addressSize : Architecture → Nat
  | msp430 => 2
  | x86_64 => 8
  | arm64 => 8
  | riscV64 => 8
  | x86 => 4
  | arm => 4
  | riscV32 => 4
  | unknown _ => 4

/-- The name of an architecture. -/
def name : Architecture → String
  | msp430 => "msp430"
  | x86_64 => "x86_64"
  | x86 => "x86"
  | arm64 => "arm64"
  | arm => "arm"
  | riscV64 => "riscv64"
  | riscV32 => "riscv32"
  | unknown _ => "unknown"

end Architecture

/-- The use of an object file. -/
inductive FileKind where
  | none
  | relocatable
  | executable
  | sharedObject
  | core
  /-- A number without a name here. -/
  | other (number : UInt16)
  deriving Repr, DecidableEq

/-- The use with a number of the format's list. -/
def FileKind.ofNumber (number : UInt16) : FileKind :=
  match number with
  | 0 => none
  | 1 => relocatable
  | 2 => executable
  | 3 => sharedObject
  | 4 => core
  | number => other number

end LineAtlas.ObjectFile
