import LineAtlas.Proofs.LineProgram.History

namespace LineAtlas.LineProgram

/-!
# What a run takes from the header

A header says much that no run depends on. Its instructions are read with the opcode base,
the line advances, and the operand counts of the opcodes that have no meaning; rows depend
on these and on the minimal instruction length. The opcodes 1 to 9 keep their operands
whatever is declared for them, and no row shows whether it is a statement.

The main statement is that two headers that agree on these parameters run every program
alike.
-/

/-- Two headers with the same parameters of the encoding. -/
structure Header.SameEncoding (header other : Header) : Prop where
  minimumInstructionLength : header.minimumInstructionLength = other.minimumInstructionLength
  lineBase : header.lineBase = other.lineBase
  lineRange : header.lineRange = other.lineRange
  opcodeBase : header.opcodeBase = other.opcodeBase
  /-- An operand count that is not declared is zero. -/
  operandCount :
    ∀ opcode,
      10 ≤ opcode →
        opcode < header.opcodeBase →
          header.operandCount opcode = other.operandCount opcode

variable
  {header other : Header}
  {constAddPc : ConstAddPc}

/-! ## Instructions -/

/-- The opcodes below ten are named, or open an extended instruction. -/
theorem StandardOpcode.ten_le_of_ofByte?_eq_none
    {opcode : UInt8}
    (notExtended : opcode ≠ 0)
    (notNamed : StandardOpcode.ofByte? opcode = none) :
    10 ≤ opcode := by
  unfold StandardOpcode.ofByte? at notNamed
  split at notNamed <;> grind

namespace Header.SameEncoding

/-- The same encoding moves the address and the line as far. -/
theorem specialAdvance?_eq
    (same : header.SameEncoding other)
    (opcode : UInt8) :
    header.specialAdvance? opcode = other.specialAdvance? opcode := by
  simp only [specialAdvance?, same.minimumInstructionLength, same.lineBase, same.lineRange,
    same.opcodeBase]

theorem constantAdvance_eq (same : header.SameEncoding other) :
    header.constantAdvance = other.constantAdvance := by
  simp only [constantAdvance, same.specialAdvance?_eq]

/-- The same encoding has the same operands after every opcode. -/
theorem read_eq
    (same : header.SameEncoding other)
    (opcode : UInt8) :
    Instruction.read header opcode = Instruction.read other opcode := by
  unfold Instruction.read
  rw [same.specialAdvance?_eq]
  by_cases extended : opcode = 0
  · rw [if_pos extended, if_pos extended]
  · rw [if_neg extended, if_neg extended]
    cases named : StandardOpcode.ofByte? opcode with
    | some standard =>
        rfl
    | none =>
        cases special : other.specialAdvance? opcode with
        | some advance =>
            rfl
        | none =>
            have lower := StandardOpcode.ten_le_of_ofByte?_eq_none extended named
            have upper : opcode < header.opcodeBase := by
              rw [same.opcodeBase]
              by_contra isSpecial
              simp [specialAdvance?, isSpecial] at special
            rw [same.operandCount opcode lower upper]

theorem next_eq (same : header.SameEncoding other) :
    Instruction.next header = Instruction.next other := by
  simp only [Instruction.next, Instruction.readWhole, same.read_eq]

/-- The same encoding divides every program into the same instructions. -/
theorem sequence_eq (same : header.SameEncoding other) :
    Instruction.sequence header = Instruction.sequence other := by
  unfold Instruction.sequence
  congr 1
  rw [same.next_eq]

end Header.SameEncoding

/-! ## Rows -/

namespace Registers

variable
  (constAddPc)
  {left right : Registers}

/-- Registers that describe the same row do so after every instruction, and append the same. -/
theorem row_apply_eq
    (same : header.SameEncoding other)
    (sameRow : left.row = right.row)
    (instruction : Instruction) :
    (left.apply header constAddPc instruction).1.row =
        (right.apply other constAddPc instruction).1.row ∧
      (left.apply header constAddPc instruction).2 =
        (right.apply other constAddPc instruction).2 := by
  simp only [row, Row.mk.injEq] at sameRow
  obtain ⟨address, line, file, column⟩ := sameRow
  cases instruction with
  | constAddPc =>
      cases constAddPc <;>
        simp [apply, advanceAddress, row, address, line, file, column, same.constantAdvance_eq]
  | _ =>
      simp [apply, emit, advanceAddress, advanceLine, row, address, line, file, column,
        same.minimumInstructionLength]

/-- Registers that describe the same row append the same rows. -/
theorem rows_eq_of_row_eq
    (same : header.SameEncoding other)
    (sameRow : left.row = right.row)
    (instructions : List Instruction) :
    left.rows header constAddPc instructions = right.rows other constAddPc instructions := by
  induction instructions generalizing left right with
  | nil =>
      rfl
  | cons instruction later inductionHypothesis =>
      obtain ⟨sameAfter, appended⟩ :=
        row_apply_eq constAddPc same sameRow instruction
      simp only [rows, appended, inductionHypothesis sameAfter]

end Registers

variable (constAddPc) in
/--
Headers with the same encoding run every program alike: to the same rows or the same
failure, and to the same place.
-/
theorem runSequence_eq_of_sameEncoding
    (same : header.SameEncoding other) :
    runSequence header constAddPc = runSequence other constAddPc := by
  have sameRows :
      (Registers.initial header.defaultIsStatement).rows header constAddPc =
        (Registers.initial other.defaultIsStatement).rows other constAddPc :=
    funext (Registers.rows_eq_of_row_eq constAddPc same rfl)
  rw [runSequence_eq, runSequence_eq, same.sequence_eq, sameRows]

/-- A header that says nothing about the operands of opcode 14. -/
def terseHeader : Header :=
  { wideHeader with
    version := 2
    opcodeBase := 15
    operandCounts := wideHeader.operandCounts ++ [1] }

/-- A header that differs from it in everything that no run depends on. -/
def looseHeader : Header :=
  { terseHeader with
    unitLength := 90
    version := 4
    prologueLength := 7
    maximumOperations := 3
    defaultIsStatement := false
    operandCounts := [7, 0, 9, 0, 2, 3, 5, 1, 0, 0, 0, 1, 1, 0] }

/-- A program with instructions that change no row, and opcodes without a meaning. -/
def flaggedProgram : List (AssemblyInstruction terseHeader) := [
  .negateStatement,
  .advancePc 3,
  .special 40 (by decide) (by decide),
  .setBasicBlock,
  .unknownStandard 13 (by decide) (by decide) [1] (by decide),
  .unknownStandard 14 (by decide) (by decide) [] (by decide),
  .setFile 2,
  .copy
]

theorem runSequence_eq_of_sameEncoding_looseHeader :
    terseHeader.SameEncoding looseHeader ∧
      ∃ rows,
        rows.map (fun row => (row.address, row.line, row.file)) = [(16, 7, 1), (16, 7, 2)] ∧
        runSequence looseHeader .standard (.ofBytes .big (assemble .big flaggedProgram)) =
          .ok rows ((Cursor.ofBytes .big (assemble .big flaggedProgram)).advance 14) := by
  have counts :
      ∀ code < 15,
        10 ≤ code →
          terseHeader.operandCount (UInt8.ofNat code) =
            looseHeader.operandCount (UInt8.ofNat code) := by
    decide
  have same : terseHeader.SameEncoding looseHeader := by
    refine ⟨rfl, rfl, rfl, rfl, fun opcode lower upper => ?_⟩
    have counted := counts opcode.toNat upper lower
    rwa [UInt8.ofNat_toNat] at counted
  have fits : (assemble .big flaggedProgram).length < addressLimit := by
    decide +kernel
  have size : (assemble .big flaggedProgram).length = 14 := by
    decide +kernel
  have ran := (reads_runSequence_assemble .big .standard flaggedProgram fits).takesAll fits
  rw [Reader.TakesAll, size, runSequence_eq_of_sameEncoding .standard same] at ran
  exact ⟨same, _, by decide +kernel, ran⟩

end LineAtlas.LineProgram
