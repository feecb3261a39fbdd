import LineAtlas.Proofs.LineProgram.Assembly
import Mathlib.Data.List.DropRight
import Mathlib.Data.List.Infix

namespace LineAtlas.LineProgram

/-!
# What constant advances do

A program can be run with its constant advances or without them. Both runs append
rows after the same instructions, and these rows differ in their addresses only. The
difference is one constant advance for each such instruction that was executed since
the address was set last. Which instructions these are stands in the bytes of the
program, whatever its header says: `Instruction.Stand` lists the instructions of a
sequence from opcode to opcode, each with what its bytes make of it.
-/

namespace Instruction

/-- Whether an instruction sets the address. -/
def setsAddress : Instruction → Bool
  | setAddress _ => true
  | _ => false

/-- Whether an instruction appends a row. -/
def appendsRow : Instruction → Bool
  | copy => true
  | special _ => true
  | _ => false

/-- The difference that constant advances make to the address, after one more instruction. -/
def shift
    (header : Header)
    (before : UInt64)
    (instruction : Instruction) :
    UInt64 :=
  if instruction.setsAddress then
    0
  else if instruction = constAddPc then
    before + header.constantAdvance
  else
    before

end Instruction

/-! ## Which bytes these instructions are -/

theorem StandardOpcode.ofByte?_eq_constAddPc_iff
    {byte : UInt8} :
    StandardOpcode.ofByte? byte = some .constAddPc ↔ byte = 8 := by
  unfold StandardOpcode.ofByte?
  split <;> simp_all

theorem ExtendedOpcode.ofByte_eq_setAddress_iff
    {byte : UInt8} :
    ExtendedOpcode.ofByte byte = .setAddress ↔ byte = 2 := by
  unfold ExtendedOpcode.ofByte
  split <;> simp_all

namespace Instruction

variable
  {before after : Cursor}
  {fetched : Fetched}
  {instruction : Instruction}

theorem kinds_of_readStandard
    {opcode : StandardOpcode}
    (success : readStandard opcode before = .ok instruction after) :
    (instruction = .constAddPc ↔ opcode = .constAddPc) ∧ instruction.setsAddress = false := by
  cases opcode <;> first
    | cases success
      simp [setsAddress]
    | obtain ⟨operand, between, -, returned⟩ := bind_eq_ok_iff.mp success
      cases returned
      simp [setsAddress]

theorem kinds_of_readExtendedOperand
    {opcode : ExtendedOpcode}
    {size : Nat}
    (success : readExtendedOperand opcode size before = .ok fetched after) :
    fetched.instruction ≠ .constAddPc ∧
      (fetched.instruction.setsAddress = true ↔
        opcode = .setAddress ∧ isAddressSize size = true) := by
  cases opcode with
  | setAddress =>
      simp only [readExtendedOperand] at success
      split at success
      · next usual =>
          obtain ⟨address, between, -, returned⟩ := bind_eq_ok_iff.mp success
          cases returned
          simp [setsAddress, usual]
      · next unusual =>
          cases success
          simp [setsAddress, unusual]
  | _ =>
      cases success
      simp [setsAddress]

/-- What follows is a length, the byte 2 and an operand of a usual size. -/
def OpensSetAddress (before : Cursor) : Prop :=
  ∃ length opened named,
    Reader.unsigned before = .ok length opened ∧
      Reader.uint8 opened = .ok 2 named ∧
      isAddressSize (length.toNat - 1) = true

theorem kinds_of_readExtended
    (success : readExtended before = .ok fetched after) :
    fetched.instruction ≠ .constAddPc ∧
      (fetched.instruction.setsAddress = true ↔ OpensSetAddress before) := by
  obtain ⟨length, opened, lengthRead, rest⟩ := bind_eq_ok_iff.mp success
  split at rest
  · next empty =>
      cases rest
      simp [setsAddress, OpensSetAddress, lengthRead, empty, isAddressSize]
  · obtain ⟨opcode, named, opcodeRead, operand⟩ := bind_eq_ok_iff.mp rest
    obtain ⟨_, checked, -, operandRead⟩ := bind_eq_ok_iff.mp operand
    obtain ⟨other, sets⟩ := kinds_of_readExtendedOperand operandRead
    refine ⟨other, ?_⟩
    rw [sets, ExtendedOpcode.ofByte_eq_setAddress_iff]
    simp [OpensSetAddress, lengthRead, opcodeRead]

/-- The three ways in which what follows an opcode is read. -/
theorem cases_of_read
    {header : Header}
    {opcode : UInt8}
    (success : read header opcode before = .ok fetched after) :
    (opcode = 0 ∧ readExtended before = .ok fetched after) ∨
      (∃ standard,
        opcode ≠ 0 ∧
          StandardOpcode.ofByte? opcode = some standard ∧
          readStandard standard before = .ok fetched.instruction after) ∨
      (opcode ≠ 0 ∧
        StandardOpcode.ofByte? opcode = none ∧
        ((∃ advance, fetched.instruction = .special advance) ∨
          fetched.instruction = .ignored)) := by
  unfold read at success
  split at success
  · next extended =>
      exact .inl ⟨extended, success⟩
  · next notExtended =>
      cases named : StandardOpcode.ofByte? opcode with
      | some standard =>
          simp only [named] at success
          obtain ⟨instruction, read, standardRead, returned⟩ := bind_eq_ok_iff.mp success
          cases returned
          exact .inr (.inl ⟨standard, notExtended, rfl, standardRead⟩)
      | none =>
          refine .inr (.inr ⟨notExtended, rfl, ?_⟩)
          cases special : header.specialAdvance? opcode with
          | some advance =>
              simp only [named, special] at success
              cases success
              exact .inl ⟨advance, rfl⟩
          | none =>
              simp only [named, special] at success
              obtain ⟨operands, read, -, returned⟩ := bind_eq_ok_iff.mp success
              cases returned
              exact .inr rfl

/--
Whatever the header says, the constant advances are the instructions with opcode 8, and
the address is set by extended instructions with opcode 2 and a usual operand size.
-/
structure CountsAs
    (opcode : UInt8)
    (operands : Cursor)
    (instruction : Instruction) :
    Prop where
  constAddPc_iff : instruction = .constAddPc ↔ opcode = 8
  setsAddress_iff : instruction.setsAddress = true ↔ opcode = 0 ∧ OpensSetAddress operands

theorem countsAs_of_readWhole
    {header : Header}
    {opcode : UInt8}
    (success : readWhole header opcode before = .ok instruction after) :
    CountsAs opcode before instruction := by
  obtain ⟨fetched, between, fetchRead, skipAndReturn⟩ := bind_eq_ok_iff.mp success
  obtain ⟨_, skipped, -, returned⟩ := bind_eq_ok_iff.mp skipAndReturn
  cases returned
  suffices kinds :
      (fetched.instruction = .constAddPc ↔ opcode = 8) ∧
        (fetched.instruction.setsAddress = true ↔ opcode = 0 ∧ OpensSetAddress before) from
    ⟨kinds.1, kinds.2⟩
  rw [← StandardOpcode.ofByte?_eq_constAddPc_iff]
  rcases cases_of_read fetchRead with
    ⟨rfl, extendedRead⟩ | ⟨standard, notExtended, named, standardRead⟩ |
    ⟨notExtended, unnamed, ⟨advance, special⟩ | ignored⟩
  · obtain ⟨other, sets⟩ := kinds_of_readExtended extendedRead
    simp [other, sets, StandardOpcode.ofByte?]
  · obtain ⟨same, setsNone⟩ := kinds_of_readStandard standardRead
    simp [same, setsNone, notExtended, named]
  · simp [special, setsAddress, notExtended, unnamed]
  · simp [ignored, setsAddress, notExtended, unnamed]

/--
The instructions stand in a program from one place to another: each one starts with its
opcode where the one before it ends, and counts as what its bytes make of it.
-/
inductive Stand (header : Header) : Cursor → List Instruction → Cursor → Prop where
  | nil
      {program : Cursor} :
      Stand header program [] program
  | cons
      {before operands between after : Cursor}
      {opcode : UInt8}
      {instruction : Instruction}
      {later : List Instruction}
      (opcodeRead : Reader.uint8 before = .ok opcode operands)
      (wholeRead : readWhole header opcode operands = .ok instruction between)
      (counts : CountsAs opcode operands instruction)
      (laterStand : Stand header between later after) :
      Stand header before (instruction :: later) after

/-- The instructions of a sequence stand where it was read, up to the one that ends it. -/
theorem stand_of_sequence
    {header : Header}
    {program : Cursor}
    {instructions : List Instruction}
    (success : sequence header program = .ok instructions after) :
    ∃ last,
      Stand header program instructions last ∧ next header last = .ok .endSequence after := by
  unfold sequence at success
  fun_induction Reader.collect (inside? <$> next header) _ program
    generalizing instructions with
  | case1 program cause stopped outcome =>
      cases success
  | case2 program ended outcome =>
      cases success
      obtain ⟨instruction, nextRead, noneFound⟩ := Machine.next_of_inside outcome
      obtain rfl := inside?_eq_none_iff.mp noneFound
      exact ⟨program, .nil, nextRead⟩
  | case3 program first between outcome cause stopped laterFails inductionHypothesis =>
      cases success
  | case4 program first between outcome later last laterRead inductionHypothesis =>
      cases success
      obtain ⟨instruction, nextRead, someFound⟩ := Machine.next_of_inside outcome
      obtain ⟨-, rfl⟩ := inside?_eq_some_iff.mp someFound
      obtain ⟨opcode, operands, opcodeRead, wholeRead⟩ := bind_eq_ok_iff.mp nextRead
      obtain ⟨ending, laterStand, ended⟩ := inductionHypothesis laterRead
      exact ⟨ending, .cons opcodeRead wholeRead (countsAs_of_readWhole wholeRead) laterStand, ended⟩

end Instruction

/-! ## Counting constant advances -/

/-- How many constant advances have been executed since the address was set last. -/
def constAdvances (executed : List Instruction) : Nat :=
  (executed.rtakeWhile (!·.setsAddress)).count .constAddPc

/-- What these constant advances amount to, reduced to 64 bits. -/
def constShift
    (header : Header)
    (executed : List Instruction) :
    UInt64 :=
  UInt64.ofNat (constAdvances executed * header.specialAddressAdvance 255)

theorem constAdvances_concat
    (executed : List Instruction)
    (instruction : Instruction) :
    constAdvances (executed ++ [instruction]) =
      if instruction.setsAddress then
        0
      else
        constAdvances executed + if instruction = .constAddPc then 1 else 0 := by
  rw [constAdvances, List.rtakeWhile_concat]
  cases sets : instruction.setsAddress with
  | true =>
      rfl
  | false =>
      simp [constAdvances, List.count_singleton]

/-- An address that is set voids the advances before it, and an ignored instruction does not. -/
example :
    constAdvances
        [.constAddPc, .setAddress 4, .constAddPc, .ignored, .copy, .constAddPc] = 2 := by
  decide

theorem constShift_concat
    (header : Header)
    (executed : List Instruction)
    (instruction : Instruction) :
    constShift header (executed ++ [instruction]) =
      instruction.shift header (constShift header executed) := by
  rw [constShift, constAdvances_concat]
  cases instruction with
  | setAddress address =>
      show UInt64.ofNat (0 * header.specialAddressAdvance 255) = 0
      rw [Nat.zero_mul]
      rfl
  | constAddPc =>
      show UInt64.ofNat ((constAdvances executed + 1) * header.specialAddressAdvance 255) =
        constShift header executed + header.constantAdvance
      rw [Nat.add_mul, Nat.one_mul, UInt64.ofNat_add, header.constantAdvance_eq, constShift]
  | _ =>
      rfl

/-! ## Rows and the instructions before them -/

/-- The instructions of a sequence up to each one that appends a row. -/
def upToRows (instructions : List Instruction) : List (List Instruction) :=
  instructions.inits.filter fun executed => executed.getLast?.any (·.appendsRow)

theorem upToRows_concat
    (executed : List Instruction)
    (instruction : Instruction) :
    upToRows (executed ++ [instruction]) =
      upToRows executed ++ if instruction.appendsRow then [executed ++ [instruction]] else [] := by
  rw [upToRows, upToRows, List.inits_append]
  cases appends : instruction.appendsRow <;> simp [appends]

theorem upToRows_eq_nil_iff
    {instructions : List Instruction} :
    upToRows instructions = [] ↔ instructions.any (·.appendsRow) = false := by
  induction instructions using List.reverseRecOn with
  | nil =>
      simp [upToRows]
  | append_singleton executed instruction inductionHypothesis =>
      rw [upToRows_concat, List.append_eq_nil_iff, inductionHypothesis, List.any_append]
      cases appends : instruction.appendsRow <;> simp [appends]

namespace Registers

variable
  (header : Header)
  (registers : Registers)

/-- An instruction appends a row or none, and the row is the one that the registers describe. -/
theorem toList_apply
    (constAddPc : ConstAddPc)
    (instruction : Instruction) :
    (registers.apply header constAddPc instruction).2.toList =
      if instruction.appendsRow then
        [(registers.apply header constAddPc instruction).1.row]
      else
        [] := by
  cases instruction with
  | constAddPc =>
      cases constAddPc <;> rfl
  | _ =>
      rfl

/-- The rows of a sequence are those that the registers describe after its parts. -/
theorem rows_eq_map_upToRows
    (constAddPc : ConstAddPc)
    (instructions : List Instruction) :
    registers.rows header constAddPc instructions =
      (upToRows instructions).map fun executed =>
        (registers.after header constAddPc executed).row := by
  induction instructions using List.reverseRecOn with
  | nil =>
      rfl
  | append_singleton executed instruction inductionHypothesis =>
      rw [rows_concat, inductionHypothesis, upToRows_concat, List.map_append, toList_apply]
      cases appends : instruction.appendsRow <;> simp [after_concat]

/-! ## Both runs side by side -/

/-- Two moves of the address can be made in either order. -/
theorem advanceAddress_comm
    (near far : UInt64) :
    (registers.advanceAddress near).advanceAddress far =
      (registers.advanceAddress far).advanceAddress near := by
  simp only [advanceAddress, UInt64.add_assoc, UInt64.add_comm near]

/-- One instruction keeps or changes the difference between both runs, and nothing else differs. -/
theorem apply_advanceAddress
    (before : UInt64)
    (instruction : Instruction) :
    ((registers.advanceAddress before).apply header .standard instruction).1 =
      (registers.apply header .ignore instruction).1.advanceAddress
        (instruction.shift header before) := by
  cases instruction with
  | advancePc count =>
      exact registers.advanceAddress_comm before _
  | constAddPc =>
      show (registers.advanceAddress before).advanceAddress header.constantAdvance =
        registers.advanceAddress (before + header.constantAdvance)
      simp only [advanceAddress, UInt64.add_assoc]
  | fixedAdvancePc count =>
      exact registers.advanceAddress_comm before _
  | special advance =>
      simp only [apply, registers.advanceAddress_comm before advance.address]
      rfl
  | setAddress address =>
      show { registers with address := address } =
        advanceAddress { registers with address := address } 0
      simp only [advanceAddress, UInt64.add_zero]
  | _ =>
      rfl

/-- After any instructions, the registers of both runs differ by the shift of the address. -/
theorem after_standard
    (instructions : List Instruction) :
    registers.after header .standard instructions =
      (registers.after header .ignore instructions).advanceAddress
        (constShift header instructions) := by
  induction instructions using List.reverseRecOn with
  | nil =>
      have noShift : constShift header [] = 0 := by
        rw [constShift, constAdvances, List.rtakeWhile_nil, List.count_nil, Nat.zero_mul]
        rfl
      simp only [noShift, after, List.foldl_nil, advanceAddress, UInt64.add_zero]
  | append_singleton executed instruction inductionHypothesis =>
      rw [after_concat, after_concat, inductionHypothesis, apply_advanceAddress,
        constShift_concat]

end Registers

/-- Rows after the same instructions, without their constant advances and with them. -/
structure Row.Moved
    (header : Header)
    (executed : List Instruction)
    (ignored standard : Row) :
    Prop where
  line : standard.line = ignored.line
  file : standard.file = ignored.file
  column : standard.column = ignored.column
  address : standard.address - ignored.address = constShift header executed

/-- Both runs have as many rows, and those at the same place differ by the shift only. -/
theorem Registers.rows_moved
    (header : Header)
    (registers : Registers)
    (instructions : List Instruction) :
    List.Forall₂ (fun executed rows => Row.Moved header executed rows.1 rows.2)
      (upToRows instructions)
      ((registers.rows header .ignore instructions).zip
        (registers.rows header .standard instructions)) := by
  rw [rows_eq_map_upToRows, rows_eq_map_upToRows, List.zip_map', List.forall₂_map_right_iff,
    List.forall₂_same]
  intro executed member
  rw [after_standard]
  refine ⟨rfl, rfl, rfl, ?_⟩
  rw [row, row, advanceAddress, UInt64.add_comm, UInt64.add_sub_cancel]

end LineAtlas.LineProgram
