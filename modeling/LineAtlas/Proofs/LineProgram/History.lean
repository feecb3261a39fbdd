import LineAtlas.Proofs.LineProgram.Assembly
import Mathlib.Data.List.DropRight
import Mathlib.Data.List.Infix

namespace LineAtlas.LineProgram

/-!
# Rows told by what was written before them

What a row says follows from the instructions up to the one that appends it, and
no machine is needed to tell it. The address is the one set last and all advances
since then, the line is one and all line advances, the file and the column are
those set last. Sums are taken over unbounded numbers and reduced to 64 bits only
when the row is appended.

The main statement is that running an assembled program gives exactly the rows
told in this way, and stops where the program ends.
-/

namespace AssemblyInstruction

variable {header : Header}

/-- The address that an instruction sets, if it sets one. -/
def address?
    (order : ByteOrder) :
    AssemblyInstruction header → Option Nat
  | setAddress operand =>
      if Instruction.isAddressSize operand.length then
        some (order.number operand)
      else
        none
  | _ => none

/-- How far an instruction moves the address on. -/
def addressAdvance
    (policy : ConstAddPc) :
    AssemblyInstruction header → Nat
  | advancePc count => count.toNat * header.minimumInstructionLength.toNat
  | constAddPc =>
      match policy with
      | .ignore => 0
      | .standard => header.specialAddressAdvance 255
  | fixedAdvancePc count => count.toNat
  | special opcode _ _ => header.specialAddressAdvance opcode
  | _ => 0

/-- How far an instruction moves the line, back or on. -/
def lineAdvance : AssemblyInstruction header → Int
  | advanceLine delta => delta.toInt
  | special opcode _ _ => header.specialLineAdvance opcode
  | _ => 0

/-- The file that an instruction sets, if it sets one. -/
def file? : AssemblyInstruction header → Option UInt64
  | setFile file => some file
  | _ => none

/-- The column that an instruction sets, if it sets one. -/
def column? : AssemblyInstruction header → Option UInt64
  | setColumn column => some column
  | _ => none

/-- Whether an instruction appends a row. -/
def appendsRow : AssemblyInstruction header → Bool
  | copy => true
  | special _ _ _ => true
  | _ => false

end AssemblyInstruction

/-- Instructions in the order in which they were written, from the start of a sequence. -/
abbrev History (header : Header) :=
  List (AssemblyInstruction header)

namespace History

variable
  {header : Header}
  (order : ByteOrder)
  (policy : ConstAddPc)

/-- The value that was set last, or the one at the start. -/
def lastSet
    {α : Type}
    (set? : AssemblyInstruction header → Option α)
    (start : α)
    (history : History header) :
    α :=
  (history.filterMap set?).getLastD start

/-- The instructions after the last one that set the address. -/
def sinceAddress (history : History header) : List (AssemblyInstruction header) :=
  history.rtakeWhile fun written => (written.address? order).isNone

/-- The address that was set last, and all advances since. -/
def address (history : History header) : Nat :=
  history.lastSet (·.address? order) 0
    + ((history.sinceAddress order).map (·.addressAdvance policy)).sum

/-- The first line, and all line advances. -/
def line (history : History header) : Int :=
  1 + (history.map (·.lineAdvance)).sum

/-- The row that is appended after a history. -/
def row (history : History header) : Row where
  address := UInt64.ofNat (history.address order policy)
  line := Int64.ofInt history.line
  file := history.lastSet (·.file?) 1
  column := history.lastSet (·.column?) 0

/-- Whether the last instruction of a history appends a row. -/
def endsWithRow (history : History header) : Bool :=
  history.getLast?.any (·.appendsRow)

/-- The rows of a program, one for each history that ends with one. -/
def rows (program : List (AssemblyInstruction header)) : List Row :=
  (program.inits.filter endsWithRow).map (row order policy)

/-! ## One more instruction -/

theorem lastSet_concat
    {α : Type}
    (set? : AssemblyInstruction header → Option α)
    (start : α)
    (history : History header)
    (written : AssemblyInstruction header) :
    lastSet set? start (history ++ [written]) =
      (set? written).getD (history.lastSet set? start) := by
  cases found : set? written <;> simp [lastSet, found]

/-- What sets the address does not move it on. -/
theorem addressAdvance_of_address?
    {written : AssemblyInstruction header}
    {address : Nat}
    (sets : written.address? order = some address) :
    written.addressAdvance policy = 0 := by
  cases written with
  | setAddress operand =>
      rfl
  | _ =>
      cases sets

/-- An instruction that sets the address makes all advances before it void. -/
theorem address_concat
    (history : History header)
    (written : AssemblyInstruction header) :
    address order policy (history ++ [written]) =
      (written.address? order).getD (history.address order policy)
        + written.addressAdvance policy := by
  rw [address, lastSet_concat, sinceAddress, List.rtakeWhile_concat]
  cases found : written.address? order with
  | none =>
      simp [address, sinceAddress, Nat.add_assoc]
  | some address =>
      simp [addressAdvance_of_address? order policy found]

theorem line_concat
    (history : History header)
    (written : AssemblyInstruction header) :
    line (history ++ [written]) = history.line + written.lineAdvance := by
  simp [line, Int.add_assoc]

theorem rows_concat
    (history : History header)
    (written : AssemblyInstruction header) :
    rows order policy (history ++ [written]) =
      rows order policy history ++
        if written.appendsRow then [row order policy (history ++ [written])] else [] := by
  have endsAsWritten : endsWithRow (history ++ [written]) = written.appendsRow := by
    simp [endsWithRow]
  rw [rows, rows, List.inits_append]
  cases appends : written.appendsRow <;> simp [endsAsWritten, appends]

end History

/-! ## The machine follows the history -/

/-- What an instruction does to the row that the registers describe. -/
def AssemblyInstruction.effect
    {header : Header}
    (order : ByteOrder)
    (policy : ConstAddPc)
    (written : AssemblyInstruction header)
    (row : Row) :
    Row where
  address :=
    ((written.address? order).map UInt64.ofNat).getD row.address
      + UInt64.ofNat (written.addressAdvance policy)
  line := row.line + Int64.ofInt written.lineAdvance
  file := written.file?.getD row.file
  column := written.column?.getD row.column

variable
  {header : Header}
  (order : ByteOrder)
  (policy : ConstAddPc)

/-- Reducing to 64 bits at every step gives the same as reducing at the end. -/
theorem History.row_concat
    (history : History header)
    (written : AssemblyInstruction header) :
    row order policy (history ++ [written]) =
      written.effect order policy (history.row order policy) := by
  have sameAddress :
      UInt64.ofNat (address order policy (history ++ [written])) =
        ((written.address? order).map UInt64.ofNat).getD
            (UInt64.ofNat (history.address order policy))
          + UInt64.ofNat (written.addressAdvance policy) := by
    rw [address_concat, UInt64.ofNat_add]
    cases written.address? order <;> rfl
  simp only [row, AssemblyInstruction.effect, sameAddress, line_concat, lastSet_concat,
    Int64.ofInt_add]

namespace Registers

open AssemblyInstruction in
/-- Executing an instruction has its effect on the row that the registers describe. -/
theorem row_apply
    (registers : Registers)
    (written : AssemblyInstruction header) :
    (registers.apply header policy (written.instruction order)).1.row =
      written.effect order policy registers.row := by
  cases written with
  | constAddPc =>
      cases policy <;>
        simp [apply, row, advanceAddress, instruction, effect, address?, addressAdvance,
          lineAdvance, file?, column?, header.constantAdvance_eq]
  | setAddress operand =>
      by_cases usual : Instruction.isAddressSize operand.length = true <;>
        simp [apply, row, instruction, ExtendedOpcode.instruction, effect, address?,
          addressAdvance, lineAdvance, file?, column?, usual]
  | _ =>
      simp [apply, row, emit, advanceAddress, Registers.advanceLine, instruction, effect,
        address?, addressAdvance, lineAdvance, file?, column?]

open AssemblyInstruction in
/-- A row that is appended is the one that the registers describe afterwards. -/
theorem appended_apply
    (registers : Registers)
    (written : AssemblyInstruction header) :
    (registers.apply header policy (written.instruction order)).2.toList =
      if written.appendsRow then
        [(registers.apply header policy (written.instruction order)).1.row]
      else
        [] := by
  cases written with
  | constAddPc =>
      cases policy <;> rfl
  | setAddress operand =>
      by_cases usual : Instruction.isAddressSize operand.length = true <;>
        simp [apply, instruction, ExtendedOpcode.instruction, appendsRow, usual]
  | _ =>
      rfl

/-- Running the instructions of a program from the start of a sequence follows its history. -/
theorem follows_history
    (isStatement : Bool)
    (program : List (AssemblyInstruction header)) :
    ((initial isStatement).after header policy (program.map (·.instruction order))).row =
        History.row order policy program ∧
      (initial isStatement).rows header policy (program.map (·.instruction order)) =
        History.rows order policy program := by
  -- The last instruction comes first here: what it does is told by the history before it.
  induction program using List.reverseRecOn with
  | nil =>
      exact ⟨rfl, rfl⟩
  | append_singleton history written inductionHypothesis =>
      obtain ⟨sameRow, sameRows⟩ := inductionHypothesis
      have effectOfLast :
          (((initial isStatement).after header policy (history.map (·.instruction order))).apply
              header policy (written.instruction order)).1.row =
            History.row order policy (history ++ [written]) := by
        rw [row_apply, sameRow, History.row_concat]
      rw [List.map_append, List.map_singleton]
      constructor
      · rw [after_concat, effectOfLast]
      · rw [rows_concat, appended_apply, effectOfLast, sameRows, History.rows_concat]

end Registers

/--
An assembled program that fits into memory runs to its end, whatever comes after
it, and its rows are those that its history tells.
-/
theorem runSequence_assemble
    (program : List (AssemblyInstruction header))
    (tail : Bytes)
    (fits : (assemble order program ++ tail).length < addressLimit) :
    runSequence header policy (.ofBytes order (assemble order program ++ tail)) =
      .ok
        (History.rows order policy program)
        { data := assemble order program ++ tail
          position := (assemble order program).length
          order := order } := by
  have short : (assemble order program).length < addressLimit := by
    rw [List.length_append] at fits
    omega
  have reads := (reads_assemble order program short).map
    ((Registers.initial header.defaultIsStatement).rows header policy)
  rw [← runSequence_eq, (Registers.follows_history order policy _ program).2] at reads
  have ran := reads (.ofBytes order _) tail (Cursor.placed_ofBytes fits) rfl rfl
  simpa [Cursor.advance, Cursor.ofBytes] using ran

/-- A header for four-byte instructions, with unnamed opcodes below the opcode base. -/
def wideHeader : Header where
  unitLength := 0
  version := 4
  prologueLength := 0
  minimumInstructionLength := 4
  maximumOperations := 1
  defaultIsStatement := true
  lineBase := -5
  lineRange := 14
  opcodeBase := 13
  operandCounts := [0, 1, 1, 1, 1, 0, 0, 0, 1, 0, 0, 1]

/-- A special opcode of this header, which moves the address and the line. -/
def wideSpecial : AssemblyInstruction wideHeader :=
  .special 32 (by decide) (by decide)

/-- A program whose address passes the 64-bit limit and whose line falls below zero. -/
def wrappingProgram : List (AssemblyInstruction wideHeader) := [
  .setAddress [0xF0, 0xFF, 0xFF, 0xFF, 0xFF, 0xFF, 0xFF, 0xFF],
  wideSpecial,
  .advancePc 5,
  .advanceLine (-3),
  .setFile 300,
  .copy,
  .unknownStandard 12 (by decide) (by decide) [128] (by decide),
  .emptyExtended,
  .setAddress [1, 2, 3],
  .unknownExtended 0x80 (by decide) [7],
  .constAddPc,
  .setColumn 9,
  .copy
]

theorem runSequence_assemble_wrappingProgram :
    (assemble .little wrappingProgram ++ [0xAA]).length < addressLimit ∧
      runSequence wideHeader .standard
          (.ofBytes .little (assemble .little wrappingProgram ++ [0xAA])) =
        .ok
          [{ address := 0xFFFFFFFFFFFFFFF4, line := 1, file := 1, column := 0 },
            { address := 8, line := -2, file := 300, column := 0 },
            { address := 76, line := -2, file := 300, column := 9 }]
          { data := assemble .little wrappingProgram ++ [0xAA]
            position := 42
            order := .little } := by
  have fits : (assemble .little wrappingProgram ++ [0xAA]).length < addressLimit := by
    decide +kernel
  have size : (assemble .little wrappingProgram).length = 42 := by
    decide +kernel
  have ran := runSequence_assemble .little .standard wrappingProgram [0xAA] fits
  rw [size] at ran
  exact ⟨fits, ran⟩

end LineAtlas.LineProgram
