import LineAtlas.Proofs.LineProgram.Assembly

namespace LineAtlas.LineProgram

/-!
# Special opcodes are abbreviations

A special opcode advances the address and the line and appends a row. Each of the three
has an instruction of its own, with the advance as its operand. A constant advance, where
it is executed at all, is the address advance of the special opcode 255. Writing these
instructions instead gives a longer program with the same rows: whatever the registers
are, they have the effect of the instruction that they stand for.
-/

namespace Header

/-- How many minimal instructions a special opcode moves the address on. -/
def specialOperationAdvance
    (header : Header)
    (opcode : UInt8) :
    Nat :=
  (opcode.toNat - header.opcodeBase.toNat) / header.lineRange.toNat

/-- The address advance of a special opcode, as an instruction of its own. -/
def spelledAdvance
    (header : Header)
    (opcode : UInt8) :
    AssemblyInstruction header :=
  .advancePc (UInt64.ofNat (header.specialOperationAdvance opcode))

end Header

namespace AssemblyInstruction

variable
  {header : Header}
  (policy : ConstAddPc)

/-- Whether an instruction stands for others. -/
def isAbbreviation : AssemblyInstruction header → Bool
  | special _ _ _ => true
  | constAddPc => policy = .standard
  | _ => false

/-- The instructions that an instruction stands for, or the instruction itself. -/
def spelledOut : AssemblyInstruction header → List (AssemblyInstruction header)
  | special opcode _ _ =>
      [header.spelledAdvance opcode,
        advanceLine (Int64.ofInt (header.specialLineAdvance opcode)),
        copy]
  | constAddPc =>
      match policy with
      | .ignore => [constAddPc]
      | .standard => [header.spelledAdvance 255]
  | written => [written]

end AssemblyInstruction

/-- The program with the instructions that its abbreviations stand for. -/
def spellOut
    {header : Header}
    (policy : ConstAddPc)
    (program : List (AssemblyInstruction header)) :
    List (AssemblyInstruction header) :=
  program.flatMap (·.spelledOut policy)

variable
  {header : Header}
  (order : ByteOrder)
  (policy : ConstAddPc)

/-! ## What is written -/

namespace AssemblyInstruction

theorem isAbbreviation_of_mem_spelledOut
    {written part : AssemblyInstruction header}
    (member : part ∈ written.spelledOut policy) :
    part.isAbbreviation policy = false := by
  cases written with
  | special opcode notNamed isSpecial =>
      rcases (by simpa [spelledOut] using member) with rfl | rfl | rfl <;> rfl
  | constAddPc =>
      cases policy <;> obtain rfl := (by simpa [spelledOut] using member) <;> rfl
  | _ =>
      obtain rfl := (by simpa [spelledOut] using member)
      rfl

/-- An abbreviation is not longer than what it stands for. -/
theorem length_bytes_le
    (written : AssemblyInstruction header) :
    (written.bytes order).length ≤
      ((written.spelledOut policy).flatMap (·.bytes order)).length := by
  cases written with
  | special opcode notNamed isSpecial =>
      simp [spelledOut, Header.spelledAdvance, bytes]
  | constAddPc =>
      cases policy <;> simp [spelledOut, Header.spelledAdvance, bytes]
  | _ =>
      simp [spelledOut]

end AssemblyInstruction

/-- No abbreviation is left in a program that is spelled out. -/
theorem isAbbreviation_of_mem_spellOut
    {program : List (AssemblyInstruction header)}
    {written : AssemblyInstruction header}
    (member : written ∈ spellOut policy program) :
    written.isAbbreviation policy = false := by
  obtain ⟨short, -, part⟩ := List.mem_flatMap.mp member
  exact AssemblyInstruction.isAbbreviation_of_mem_spelledOut policy part

/-- A program with abbreviations is not longer than the one without. -/
theorem length_assemble_le_spellOut
    (program : List (AssemblyInstruction header)) :
    (assemble order program).length ≤ (assemble order (spellOut policy program)).length := by
  simp only [assemble, List.length_append, Nat.add_le_add_iff_right]
  induction program with
  | nil =>
      simp [spellOut]
  | cons written later inductionHypothesis =>
      have first := written.length_bytes_le order policy
      simp only [spellOut, List.flatMap_cons, List.flatMap_append, List.length_append]
      exact Nat.add_le_add first inductionHypothesis

/-! ## What is executed -/

/-- A special opcode moves the address on by a number of minimal instructions. -/
theorem Header.ofNat_specialAddressAdvance
    (header : Header)
    (opcode : UInt8) :
    UInt64.ofNat (header.specialAddressAdvance opcode) =
      UInt64.ofNat (header.specialOperationAdvance opcode)
        * header.minimumInstructionLength.toUInt64 := by
  rw [specialAddressAdvance, UInt64.ofNat_mul, UInt64.ofNat_uInt8ToNat]
  rfl

namespace Registers

variable (registers : Registers)

/-- An address advance that is spelled out moves the address as far. -/
theorem apply_spelledAdvance (opcode : UInt8) :
    registers.apply header policy ((header.spelledAdvance opcode).instruction order) =
      (registers.advanceAddress (UInt64.ofNat (header.specialAddressAdvance opcode)), none) := by
  rw [header.ofNat_specialAddressAdvance]
  rfl

/-- A constant advance that is executed is the address advance of special opcode 255. -/
theorem apply_constAddPc :
    registers.apply header .standard .constAddPc =
      registers.apply header .standard ((header.spelledAdvance 255).instruction order) := by
  rw [apply_spelledAdvance, ← header.constantAdvance_eq]
  rfl

/--
Whatever the registers are, what an instruction stands for leaves them as it does, and
appends the same row or none.
-/
theorem run_spelledOut
    (written : AssemblyInstruction header) :
    registers.after header policy ((written.spelledOut policy).map (·.instruction order)) =
        (registers.apply header policy (written.instruction order)).1 ∧
      registers.rows header policy ((written.spelledOut policy).map (·.instruction order)) =
        (registers.apply header policy (written.instruction order)).2.toList := by
  have alone (instruction : Instruction) :
      registers.after header policy [instruction] =
          (registers.apply header policy instruction).1 ∧
        registers.rows header policy [instruction] =
          (registers.apply header policy instruction).2.toList := by
    simp [after, rows]
  cases written with
  | special opcode notNamed isSpecial =>
      simp only [AssemblyInstruction.spelledOut, List.map_cons, after, rows, List.foldl_cons,
        apply_spelledAdvance]
      exact ⟨rfl, rfl⟩
  | constAddPc =>
      cases policy with
      | ignore =>
          exact alone .constAddPc
      | standard =>
          have spelled := alone ((header.spelledAdvance 255).instruction order)
          rwa [← apply_constAddPc] at spelled
  | _ =>
      exact alone _

/-- From all registers, a program appends the same rows when it is spelled out. -/
theorem rows_spellOut
    (program : List (AssemblyInstruction header)) :
    registers.rows header policy ((spellOut policy program).map (·.instruction order)) =
      registers.rows header policy (program.map (·.instruction order)) := by
  induction program generalizing registers with
  | nil =>
      rfl
  | cons written later inductionHypothesis =>
      obtain ⟨sameRegisters, sameRows⟩ := registers.run_spelledOut order policy written
      rw [spellOut, List.flatMap_cons, List.map_append, rows_append, sameRows, sameRegisters,
        ← spellOut, inductionHypothesis]
      rfl

end Registers

/--
A program runs to its end and gives the same rows whether its special opcodes and executed
constant advances are written short or spelled out, and then none of them is left.
-/
theorem runSequence_spellOut
    (program : List (AssemblyInstruction header))
    (tail : Bytes)
    (fits : (assemble order (spellOut policy program) ++ tail).length < addressLimit) :
    (∀ written ∈ spellOut policy program, written.isAbbreviation policy = false) ∧
      ∃ rows,
        runSequence header policy (.ofBytes order (assemble order program ++ tail)) =
            .ok rows
              ((Cursor.ofBytes order (assemble order program ++ tail)).advance
                (assemble order program).length) ∧
          runSequence header policy
              (.ofBytes order (assemble order (spellOut policy program) ++ tail)) =
            .ok rows
              ((Cursor.ofBytes order (assemble order (spellOut policy program) ++ tail)).advance
                (assemble order (spellOut policy program)).length) := by
  have shorter := length_assemble_le_spellOut order policy program
  have room := fits
  rw [List.length_append] at room
  have shortFits : (assemble order program ++ tail).length < addressLimit := by
    rw [List.length_append]
    omega
  have short :=
    (reads_runSequence_assemble order policy program (by omega)).atStart shortFits
  have long :=
    (reads_runSequence_assemble order policy (spellOut policy program) (by omega)).atStart fits
  rw [Registers.rows_spellOut] at long
  exact ⟨fun written member => isAbbreviation_of_mem_spellOut policy member, _, short, long⟩

/-- A header whose special opcodes start at four, though those below ten keep their names. -/
def narrowHeader : Header where
  unitLength := 0
  version := 3
  prologueLength := 0
  minimumInstructionLength := 2
  maximumOperations := 1
  defaultIsStatement := false
  lineBase := -3
  lineRange := 12
  opcodeBase := 4
  operandCounts := [0, 1, 1]

/-- A program whose address passes the 64-bit limit, and whose line goes back below one. -/
def abbreviatedProgram : List (AssemblyInstruction narrowHeader) := [
  .setAddress [0xF0, 0xFF, 0xFF, 0xFF, 0xFF, 0xFF, 0xFF, 0xFF],
  .special 100 (by decide) (by decide),
  .constAddPc,
  .special 16 (by decide) (by decide),
  .copy
]

theorem runSequence_spellOut_abbreviatedProgram :
    (assemble .little (spellOut .standard abbreviatedProgram) ++ [0xAA]).length < addressLimit ∧
      (assemble .little abbreviatedProgram).length = 18 ∧
      (assemble .little (spellOut .standard abbreviatedProgram)).length = 27 ∧
      ∃ rows,
        rows.map (fun row => (row.address, row.line)) =
          [(0, -2), (42, -5), (42, -5)] ∧
        runSequence narrowHeader .standard
            (.ofBytes .little (assemble .little abbreviatedProgram ++ [0xAA])) =
          .ok rows
            ((Cursor.ofBytes .little (assemble .little abbreviatedProgram ++ [0xAA])).advance 18) ∧
        runSequence narrowHeader .standard
            (.ofBytes .little
              (assemble .little (spellOut .standard abbreviatedProgram) ++ [0xAA])) =
          .ok rows
            ((Cursor.ofBytes .little
              (assemble .little (spellOut .standard abbreviatedProgram) ++ [0xAA])).advance 27) := by
  have fits :
      (assemble .little (spellOut .standard abbreviatedProgram) ++ [0xAA]).length <
        addressLimit := by
    decide +kernel
  have shortSize : (assemble .little abbreviatedProgram).length = 18 := by
    decide +kernel
  have longSize : (assemble .little (spellOut .standard abbreviatedProgram)).length = 27 := by
    decide +kernel
  obtain ⟨-, rows, short, long⟩ :=
    runSequence_spellOut .little .standard abbreviatedProgram [0xAA] fits
  rw [shortSize] at short
  rw [longSize] at long
  -- Which rows these are is told by the instructions that are written.
  have shortFits : (assemble .little abbreviatedProgram).length < addressLimit := by
    decide +kernel
  have wholeFits : (assemble .little abbreviatedProgram ++ [0xAA]).length < addressLimit := by
    decide +kernel
  have told :=
    (reads_runSequence_assemble .little .standard abbreviatedProgram shortFits).atStart wholeFits
  rw [shortSize, short] at told
  cases told
  exact ⟨fits, shortSize, longSize, _, by decide +kernel, short, long⟩

end LineAtlas.LineProgram
