import LineAtlas.Proofs.LineProgram.InstructionLocality
import Mathlib.Data.List.Forall2

namespace LineAtlas.LineProgram

/-!
# Assembling line-number programs

An `AssemblyInstruction` is an instruction as one writes it down: a name and
operands, or, for what has no meaning, an opcode and its payload. `assemble`
gives the bytes of a program, with every base-128 operand spelled as short as it
can be. An assembled program is read back as the instructions that were written,
whatever bytes come after it.
-/

namespace Header

/-- How far a special opcode moves the address on. -/
def specialAddressAdvance
    (header : Header)
    (opcode : UInt8) :
    Nat :=
  (opcode.toNat - header.opcodeBase.toNat) / header.lineRange.toNat
    * header.minimumInstructionLength.toNat

/-- How far a special opcode moves the line. -/
def specialLineAdvance
    (header : Header)
    (opcode : UInt8) :
    Int :=
  header.lineBase.toInt
    + ((opcode.toNat - header.opcodeBase.toNat) % header.lineRange.toNat : Nat)

/-- The byte arithmetic of special opcodes never leaves the range of its results. -/
theorem specialAdvance?_of_le
    {header : Header}
    {opcode : UInt8}
    (isSpecial : header.opcodeBase ≤ opcode) :
    header.specialAdvance? opcode =
      some {
        address := UInt64.ofNat (header.specialAddressAdvance opcode)
        line := Int64.ofInt (header.specialLineAdvance opcode)
      } := by
  have notBelow : ¬ opcode < header.opcodeBase := by
    rw [UInt8.lt_iff_toNat_lt]
    rw [UInt8.le_iff_toNat_le] at isSpecial
    omega
  have adjusted := UInt8.toNat_sub_of_le _ _ isSpecial
  have sameBase : header.lineBase.toInt64 = Int64.ofInt header.lineBase.toInt := by
    rw [← Int8.toInt_toInt64, Int64.ofInt_toInt]
  simp only [specialAdvance?, if_neg notBelow, Option.some.injEq, Advance.mk.injEq]
  constructor
  · apply UInt64.toNat_inj.mp
    rw [UInt64.toNat_mul, UInt8.toNat_toUInt64, UInt8.toNat_div, adjusted,
      UInt8.toNat_toUInt64, UInt64.toNat_ofNat', specialAddressAdvance]
  · rw [specialLineAdvance, Int64.ofInt_add, Int64.ofInt_eq_ofNat, UInt8.toNat_mod, adjusted,
      sameBase]

/-- The constant advance is that of special opcode 255. -/
theorem constantAdvance_eq (header : Header) :
    header.constantAdvance = UInt64.ofNat (header.specialAddressAdvance 255) := by
  have isSpecial : header.opcodeBase ≤ 255 := by
    have := header.opcodeBase.toNat_lt
    rw [UInt8.le_iff_toNat_le]
    simp
    omega
  rw [constantAdvance, specialAdvance?_of_le isSpecial]

end Header

/-- An instruction as it is written down for programs with the given header. -/
inductive AssemblyInstruction (header : Header) where
  | copy
  | advancePc (count : UInt64)
  | advanceLine (delta : Int64)
  | setFile (file : UInt64)
  | setColumn (column : UInt64)
  | negateStatement
  | setBasicBlock
  | constAddPc
  | fixedAdvancePc (count : UInt16)
  | special
      (opcode : UInt8)
      (notNamed : 10 ≤ opcode)
      (isSpecial : header.opcodeBase ≤ opcode)
  /-- An opcode without a meaning, and as many operands as the header declares. -/
  | unknownStandard
      (opcode : UInt8)
      (notNamed : 10 ≤ opcode)
      (belowBase : opcode < header.opcodeBase)
      (operands : List UInt64)
      (declared : operands.length = header.operandCount opcode)
  /-- Sets the address if the operand has one of the address sizes. -/
  | setAddress (operand : Bytes)
  | defineFile (payload : Bytes)
  | unknownExtended
      (opcode : UInt8)
      (notNamed : opcode ≠ 1 ∧ opcode ≠ 2 ∧ opcode ≠ 3)
      (payload : Bytes)
  /-- An extended instruction of length zero, which has no opcode. -/
  | emptyExtended

/-- The bytes of an extended instruction: its length, its opcode and its operand. -/
def extendedBytes
    (opcode : UInt8)
    (operand : Bytes) :
    Bytes :=
  [0] ++ (Base128.unsignedBytes (operand.length + 1) ++ ([opcode] ++ operand))

namespace AssemblyInstruction

variable {header : Header}

/-- The bytes that an instruction is written in. -/
def bytes
    (order : ByteOrder) :
    AssemblyInstruction header → Bytes
  | copy => [1]
  | advancePc count => [2] ++ Base128.unsignedBytes count.toNat
  | advanceLine delta => [3] ++ Base128.signedBytes delta.toInt
  | setFile file => [4] ++ Base128.unsignedBytes file.toNat
  | setColumn column => [5] ++ Base128.unsignedBytes column.toNat
  | negateStatement => [6]
  | setBasicBlock => [7]
  | constAddPc => [8]
  | fixedAdvancePc count => [9] ++ order.field 2 count.toNat
  | special opcode _ _ => [opcode]
  | unknownStandard opcode _ _ operands _ =>
      [opcode] ++ operands.flatMap fun operand => Base128.unsignedBytes operand.toNat
  | setAddress operand => extendedBytes 2 operand
  | defineFile payload => extendedBytes 3 payload
  | unknownExtended opcode _ payload => extendedBytes opcode payload
  | emptyExtended => [0] ++ Base128.unsignedBytes 0

/-- The instruction that is read from these bytes. -/
def instruction
    (order : ByteOrder) :
    AssemblyInstruction header → Instruction
  | copy => .copy
  | advancePc count => .advancePc count
  | advanceLine delta => .advanceLine delta
  | setFile file => .setFile file
  | setColumn column => .setColumn column
  | negateStatement => .negateStatement
  | setBasicBlock => .setBasicBlock
  | constAddPc => .constAddPc
  | fixedAdvancePc count => .fixedAdvancePc count
  | special opcode _ _ =>
      .special {
        address := UInt64.ofNat (header.specialAddressAdvance opcode)
        line := Int64.ofInt (header.specialLineAdvance opcode)
      }
  | unknownStandard _ _ _ _ _ => .ignored
  | setAddress operand => ExtendedOpcode.setAddress.instruction order operand
  | defineFile _ => .ignored
  | unknownExtended _ _ _ => .ignored
  | emptyExtended => .ignored

end AssemblyInstruction

/-- The bytes of a program and of the instruction that ends its sequence. -/
def assemble
    {header : Header}
    (order : ByteOrder)
    (program : List (AssemblyInstruction header)) :
    Bytes :=
  program.flatMap (·.bytes order) ++ extendedBytes 1 []

/-! ## Assembled instructions are read back -/

namespace Instruction

variable
  (header : Header)
  (order : ByteOrder)

/-- Opcodes from ten on name no standard instruction. -/
theorem ofByte?_eq_none
    {opcode : UInt8}
    (notNamed : 10 ≤ opcode) :
    StandardOpcode.ofByte? opcode = none := by
  unfold StandardOpcode.ofByte?
  split <;> first | rfl | simp at notNamed

/-- Extended opcodes other than 1, 2 and 3 have no meaning. -/
theorem ofByte_eq_unknown
    {opcode : UInt8}
    (notNamed : opcode ≠ 1 ∧ opcode ≠ 2 ∧ opcode ≠ 3) :
    ExtendedOpcode.ofByte opcode = .unknown opcode := by
  unfold ExtendedOpcode.ofByte
  split
  · exact (notNamed.1 rfl).elim
  · exact (notNamed.2.1 rfl).elim
  · exact (notNamed.2.2 rfl).elim
  · rfl

theorem reads_unsignedBytes (value : UInt64) :
    Reader.unsigned.Reads order (Base128.unsignedBytes value.toNat) value :=
  Reader.reads_unsigned order
    (Base128.spelling_unsignedBytes value.toNat)
    (Base128.length_unsignedBytes_toNat value)

theorem reads_signedBytes (value : Int64) :
    Reader.signed.Reads order (Base128.signedBytes value.toInt) value := by
  have read :=
    Reader.reads_signed order
      (Base128.spelling_signedBytes value.toInt)
      (Base128.length_signedBytes_toInt value)
  rwa [Int64.ofInt_toInt] at read

/-- A standard instruction is read if its operand is. -/
theorem reads_next_standard
    {opcode : UInt8}
    {standard : StandardOpcode}
    {operand : Bytes}
    {instruction : Instruction}
    (named : StandardOpcode.ofByte? opcode = some standard)
    (reads : (readStandard standard).Reads order operand instruction) :
    (next header).Reads order ([opcode] ++ operand) instruction := by
  have notExtended : opcode ≠ 0 := by
    rintro rfl
    simp [StandardOpcode.ofByte?] at named
  refine (Reader.reads_uint8 order opcode).bind ?_
  show (read header opcode >>= finish).Reads order operand instruction
  simp only [read, notExtended, if_false, named, bind_assoc]
  refine reads.bind_nil ?_
  simpa using reads_finish order instruction []

/-- A special opcode is read without an operand. -/
theorem reads_next_special
    {opcode : UInt8}
    {advance : Advance}
    (notNamed : 10 ≤ opcode)
    (advances : header.specialAdvance? opcode = some advance) :
    (next header).Reads order [opcode] (special advance) := by
  have notExtended : opcode ≠ 0 := by
    rintro rfl
    simp at notNamed
  refine (Reader.reads_uint8 order opcode).bind_nil ?_
  show (read header opcode >>= finish).Reads order [] _
  simp only [read, notExtended, if_false, ofByte?_eq_none notNamed, advances, pure_bind]
  exact reads_finish order _ []

/-- An opcode without a meaning is read with its declared operands. -/
theorem reads_next_unknownStandard
    {opcode : UInt8}
    {operands : List UInt64}
    (notNamed : 10 ≤ opcode)
    (belowBase : opcode < header.opcodeBase)
    (declared : operands.length = header.operandCount opcode) :
    (next header).Reads order
      ([opcode] ++ operands.flatMap fun operand => Base128.unsignedBytes operand.toNat)
      ignored := by
  have notExtended : opcode ≠ 0 := by
    rintro rfl
    simp at notNamed
  have notSpecial : header.specialAdvance? opcode = none := by
    rw [Header.specialAdvance?, if_pos belowBase]
  have each :
      List.Forall₂ (Reader.unsigned.Reads order)
        (operands.map fun operand => Base128.unsignedBytes operand.toNat) operands := by
    rw [List.forall₂_map_left_iff]
    exact List.forall₂_same.mpr fun operand _ => reads_unsignedBytes order operand
  refine (Reader.reads_uint8 order opcode).bind ?_
  show (read header opcode >>= finish).Reads order _ _
  simp only [read, notExtended, if_false, ofByte?_eq_none notNamed, notSpecial, bind_assoc,
    pure_bind]
  rw [← declared, List.flatMap_def]
  exact (Reader.reads_times each).bind_nil (reads_finish order _ [])

/-- An extended instruction is read if its length fits into 64 bits. -/
theorem reads_next_extended
    (opcode : UInt8)
    {operand : Bytes}
    (short : operand.length + 1 < 2 ^ 64) :
    (next header).Reads order
      (extendedBytes opcode operand)
      ((ExtendedOpcode.ofByte opcode).instruction order operand) := by
  have sameLength : (UInt64.ofNat (operand.length + 1)).toNat = operand.length + 1 := by
    simpa using Nat.mod_eq_of_lt short
  have notEmpty : UInt64.ofNat (operand.length + 1) ≠ 0 := by
    intro zero
    have := congrArg UInt64.toNat zero
    rw [sameLength] at this
    simp at this
  have length := reads_unsignedBytes order (UInt64.ofNat (operand.length + 1))
  rw [sameLength] at length
  refine (Reader.reads_uint8 order 0).bind ?_
  show (readExtended >>= finish).Reads order _ _
  rw [readExtended_finish]
  refine length.bind ?_
  rw [if_neg notEmpty, sameLength, Nat.add_sub_cancel]
  exact (Reader.reads_uint8 order opcode).bind (reads_readOperand order _ operand)

/-- The empty extended instruction is read. -/
theorem reads_next_emptyExtended :
    (next header).Reads order ([0] ++ Base128.unsignedBytes 0) ignored := by
  refine (Reader.reads_uint8 order 0).bind ?_
  show (readExtended >>= finish).Reads order _ _
  rw [readExtended_finish]
  refine (reads_unsignedBytes order 0).bind_nil ?_
  rw [if_pos rfl]
  exact reads_finish order _ []

end Instruction

/-- An operand that is written stands in as many bytes as the instruction has, or fewer. -/
theorem length_le_extendedBytes
    (opcode : UInt8)
    (operand : Bytes) :
    operand.length + 2 ≤ (extendedBytes opcode operand).length := by
  simp only [extendedBytes, List.length_append, List.length_singleton]
  omega

/-- The bytes of an assembly instruction are read as the instruction that they are written for. -/
theorem AssemblyInstruction.reads_next
    {header : Header}
    (order : ByteOrder)
    (written : AssemblyInstruction header)
    (fits : (written.bytes order).length < addressLimit) :
    (Instruction.next header).Reads order (written.bytes order) (written.instruction order) := by
  have extended (opcode : UInt8) (operand : Bytes)
      (short : (extendedBytes opcode operand).length < addressLimit) :
      (Instruction.next header).Reads order
        (extendedBytes opcode operand)
        ((ExtendedOpcode.ofByte opcode).instruction order operand) := by
    have := length_le_extendedBytes opcode operand
    exact Instruction.reads_next_extended header order opcode (by
      rw [addressLimit, UInt64.size] at short
      omega)
  cases written with
  | copy =>
      exact Instruction.reads_next_standard header order rfl (Reader.reads_pure order _)
  | advancePc count =>
      exact Instruction.reads_next_standard header order rfl
        ((Instruction.reads_unsignedBytes order count).bind_nil (Reader.reads_pure order _))
  | advanceLine delta =>
      exact Instruction.reads_next_standard header order rfl
        ((Instruction.reads_signedBytes order delta).bind_nil (Reader.reads_pure order _))
  | setFile file =>
      exact Instruction.reads_next_standard header order rfl
        ((Instruction.reads_unsignedBytes order file).bind_nil (Reader.reads_pure order _))
  | setColumn column =>
      exact Instruction.reads_next_standard header order rfl
        ((Instruction.reads_unsignedBytes order column).bind_nil (Reader.reads_pure order _))
  | negateStatement =>
      exact Instruction.reads_next_standard header order rfl (Reader.reads_pure order _)
  | setBasicBlock =>
      exact Instruction.reads_next_standard header order rfl (Reader.reads_pure order _)
  | constAddPc =>
      exact Instruction.reads_next_standard header order rfl (Reader.reads_pure order _)
  | fixedAdvancePc count =>
      exact Instruction.reads_next_standard header order rfl
        ((Reader.reads_uint16 order count).bind_nil (Reader.reads_pure order _))
  | special opcode notNamed isSpecial =>
      exact Instruction.reads_next_special header order notNamed
        (Header.specialAdvance?_of_le isSpecial)
  | unknownStandard opcode notNamed belowBase operands declared =>
      exact Instruction.reads_next_unknownStandard header order notNamed belowBase declared
  | setAddress operand =>
      exact extended 2 operand fits
  | defineFile payload =>
      exact extended 3 payload fits
  | unknownExtended opcode notNamed payload =>
      have read := extended opcode payload fits
      rwa [Instruction.ofByte_eq_unknown notNamed] at read
  | emptyExtended =>
      exact Instruction.reads_next_emptyExtended header order

/-- No assembly instruction ends a sequence. -/
theorem AssemblyInstruction.inside?_instruction
    {header : Header}
    (order : ByteOrder)
    (written : AssemblyInstruction header) :
    (written.instruction order).inside? = some (written.instruction order) := by
  refine Instruction.inside?_eq_some_iff.mpr ⟨?_, rfl⟩
  cases written with
  | setAddress operand =>
      simp only [instruction, ExtendedOpcode.instruction]
      split <;> simp
  | _ =>
      simp [instruction]

/-- The bytes of an assembled program are read as the instructions of one sequence. -/
theorem reads_assemble
    {header : Header}
    (order : ByteOrder)
    (program : List (AssemblyInstruction header))
    (fits : (assemble order program).length < addressLimit) :
    (Instruction.sequence header).Reads order
      (assemble order program)
      (program.map (·.instruction order)) := by
  refine Reader.reads_collect ?_ ?_
  · intro written member
    have short : (written.bytes order).length ≤ (assemble order program).length := by
      obtain ⟨before, after, rfl⟩ := List.mem_iff_append.mp member
      simp only [assemble, List.flatMap_append, List.flatMap_cons, List.length_append]
      omega
    have read := (written.reads_next order (by omega)).map Instruction.inside?
    rwa [written.inside?_instruction] at read
  · have short : ([] : Bytes).length + 1 < 2 ^ 64 := by simp
    exact (Instruction.reads_next_extended header order 1 short).map Instruction.inside?

/-- An assembled program is run to its end, and appends the rows of what was written. -/
theorem reads_runSequence_assemble
    {header : Header}
    (order : ByteOrder)
    (policy : ConstAddPc)
    (program : List (AssemblyInstruction header))
    (fits : (assemble order program).length < addressLimit) :
    (runSequence header policy).Reads order
      (assemble order program)
      ((Registers.initial header.defaultIsStatement).rows header policy
        (program.map (·.instruction order))) := by
  rw [runSequence_eq]
  exact (reads_assemble order program fits).map _

end LineAtlas.LineProgram
