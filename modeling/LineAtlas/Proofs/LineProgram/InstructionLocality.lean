import LineAtlas.Proofs.LineProgram.InstructionList

namespace LineAtlas.LineProgram

/-!
# Instructions depend only on their bytes

An extended instruction is the only one that looks at its position: it fails
early if its end does not fit into 64 bits. Its end has to lie inside the data in
any case, so this check never decides between success and failure, and
`readOperand` finds what the operand bytes alone say.
-/

/-- The instruction that an extended opcode and its operand bytes stand for. -/
def ExtendedOpcode.instruction
    (order : ByteOrder)
    (opcode : ExtendedOpcode)
    (operand : Bytes) :
    Instruction :=
  match opcode with
  | .endSequence => .endSequence
  | .setAddress =>
      if Instruction.isAddressSize operand.length then
        .setAddress (UInt64.ofNat (order.number operand))
      else
        .ignored
  | .defineFile => .ignored
  | .unknown _ => .ignored

namespace Instruction

/-- Gives the instruction that was fetched, after its surplus bytes. -/
def finish (fetched : Fetched) : Reader Instruction := do
  Reader.skip fetched.surplus
  return fetched.instruction

/-- Reads the operand of an extended instruction, surplus bytes included. -/
def readOperand
    (opcode : ExtendedOpcode)
    (size : Nat) :
    Reader Instruction := do
  requireAhead size
  let fetched ← readExtendedOperand opcode size
  finish fetched

theorem reads_finish
    (order : ByteOrder)
    (instruction : Instruction)
    (surplus : Bytes) :
    (finish { instruction := instruction, surplus := surplus.length }).Reads
      order surplus instruction :=
  (Reader.reads_skip order surplus).bind_nil (Reader.reads_pure order instruction)

theorem isAddressSize_iff {size : Nat} :
    isAddressSize size = true ↔ size = 1 ∨ size = 2 ∨ size = 4 ∨ size = 8 := by
  simp [isAddressSize]

/-- Without the check of the room ahead, the operand bytes are all that is read. -/
theorem reads_readExtendedOperand
    (order : ByteOrder)
    (opcode : ExtendedOpcode)
    (operand : Bytes) :
    (readExtendedOperand opcode operand.length >>= finish).Reads
      order operand (opcode.instruction order operand) := by
  cases opcode with
  | setAddress =>
      by_cases usual : isAddressSize operand.length = true
      · have address := Reader.reads_address order rfl (isAddressSize_iff.mp usual)
        simp only [readExtendedOperand, ExtendedOpcode.instruction, usual, if_true, bind_assoc]
        refine address.bind_nil ?_
        simpa using reads_finish order _ []
      · simp only [readExtendedOperand, ExtendedOpcode.instruction, usual]
        simpa using reads_finish order .ignored operand
  | _ =>
      simpa [readExtendedOperand, ExtendedOpcode.instruction] using
        reads_finish order _ operand

/-- There is room ahead for bytes that are left. -/
theorem requireAhead_of_rest
    {cursor : Cursor}
    {operand tail : Bytes}
    (placed : cursor.Placed)
    (split : cursor.rest = operand ++ tail) :
    requireAhead operand.length cursor = .ok () cursor := by
  have inside := placed.end_le_size split
  have room := placed.size_lt
  have ahead : ¬ addressLimit ≤ cursor.position + operand.length := by omega
  show (if addressLimit ≤ cursor.position + operand.length then _ else _ : Reader Unit) cursor = _
  rw [if_neg ahead]
  rfl

/-- The operand bytes of an extended instruction say what it does, wherever they stand. -/
theorem reads_readOperand
    (order : ByteOrder)
    (opcode : ExtendedOpcode)
    (operand : Bytes) :
    (readOperand opcode operand.length).Reads
      order operand (opcode.instruction order operand) := by
  intro cursor tail placed sameOrder split
  rw [readOperand, Reader.bind_of_ok (requireAhead_of_rest placed split)]
  exact reads_readExtendedOperand order opcode operand cursor tail placed sameOrder split

theorem unmoved_of_requireAhead
    {count : Nat}
    {before after : Cursor}
    (success : requireAhead count before = .ok () after) :
    after = before := by
  obtain ⟨here, between, asked, checked⟩ := bind_eq_ok_iff.mp success
  cases asked
  split at checked
  · cases checked
  · cases checked
    rfl

/-- The operand bytes of an instruction that was read are all there. -/
theorem le_size_of_readOperand
    {opcode : ExtendedOpcode}
    {size : Nat}
    {before after : Cursor}
    {instruction : Instruction}
    (success : readOperand opcode size before = .ok instruction after) :
    before.position + size ≤ before.size := by
  obtain ⟨_, checked, aheadStep, rest⟩ := bind_eq_ok_iff.mp success
  obtain rfl := unmoved_of_requireAhead aheadStep
  obtain ⟨fetched, between, operandStep, finishStep⟩ := bind_eq_ok_iff.mp rest
  obtain ⟨_, skipped, skipStep, -⟩ := bind_eq_ok_iff.mp finishStep
  -- Either the whole operand is surplus and skipped, or it is an address and read.
  cases opcode with
  | setAddress =>
      by_cases usual : isAddressSize size = true
      · simp only [readExtendedOperand, usual, if_true] at operandStep
        obtain ⟨address, read, addressStep, -⟩ := bind_eq_ok_iff.mp operandStep
        exact Reader.le_size_of_address addressStep
      · simp only [readExtendedOperand, usual] at operandStep
        cases operandStep
        exact Reader.le_size_of_skip skipStep
  | _ =>
      cases operandStep
      exact Reader.le_size_of_skip skipStep

theorem local_readExtendedOperand
    (opcode : ExtendedOpcode)
    (size : Nat) :
    (readExtendedOperand opcode size).Local := by
  cases opcode with
  | setAddress =>
      simp only [readExtendedOperand]
      split
      · exact (Reader.local_address size).bind fun _ => Reader.local_pure _
      · exact Reader.local_pure _
  | _ =>
      exact Reader.local_pure _

theorem local_readOperand
    (opcode : ExtendedOpcode)
    (size : Nat) :
    (readOperand opcode size).Local := by
  apply Reader.local_of_reads
  intro cursor instruction after placed success
  obtain ⟨operand, tail, split, rfl⟩ :=
    Cursor.Placed.exists_split (le_size_of_readOperand success)
  exact ⟨operand, tail, _, split, reads_readOperand cursor.order opcode operand⟩

theorem local_finish (fetched : Fetched) : (finish fetched).Local :=
  (Reader.local_skip fetched.surplus).bind fun _ => Reader.local_pure fetched.instruction

theorem local_readStandard (opcode : StandardOpcode) : (readStandard opcode).Local := by
  cases opcode
  case advancePc =>
    exact Reader.local_unsigned.bind fun _ => Reader.local_pure _
  case advanceLine =>
    exact Reader.local_signed.bind fun _ => Reader.local_pure _
  case setFile =>
    exact Reader.local_unsigned.bind fun _ => Reader.local_pure _
  case setColumn =>
    exact Reader.local_unsigned.bind fun _ => Reader.local_pure _
  case fixedAdvancePc =>
    exact Reader.local_uint16.bind fun _ => Reader.local_pure _
  all_goals exact Reader.local_pure _

/-- The reader of an extended instruction, with the surplus bytes of each branch. -/
theorem readExtended_finish :
    readExtended >>= finish = (do
      let length ← Reader.unsigned
      if length = 0 then
        finish { instruction := ignored, surplus := 0 }
      else
        let opcode ← Reader.uint8
        readOperand (.ofByte opcode) (length.toNat - 1)) := by
  rw [readExtended, bind_assoc]
  congr 1
  funext length
  by_cases empty : length = 0
  · simp [empty]
  · simp [empty, readOperand]

theorem local_readExtended_finish : (readExtended >>= finish).Local := by
  rw [readExtended_finish]
  refine Reader.local_unsigned.bind fun length => ?_
  split
  · exact local_finish _
  · exact Reader.local_uint8.bind fun opcode => local_readOperand _ _

theorem local_readWhole
    (header : Header)
    (opcode : UInt8) :
    (readWhole header opcode).Local := by
  show (read header opcode >>= finish).Local
  unfold read
  split
  · exact local_readExtended_finish
  · split
    · exact ((local_readStandard _).bind fun _ => Reader.local_pure _).bind local_finish
    · exact (Reader.local_pure _).bind local_finish
    · exact ((Reader.local_unsigned.times _).bind fun _ => Reader.local_pure _).bind local_finish

/-- What an instruction is depends only on its own bytes. -/
theorem local_next (header : Header) : (next header).Local :=
  Reader.local_uint8.bind (local_readWhole header)

theorem local_sequence (header : Header) : (sequence header).Local :=
  ((local_next header).map inside?).collect

end Instruction

/-- The rows of a sequence depend only on its own bytes. -/
theorem local_runSequence
    (header : Header)
    (constAddPc : ConstAddPc) :
    (runSequence header constAddPc).Local := by
  rw [runSequence_eq]
  exact (Instruction.local_sequence header).map _

end LineAtlas.LineProgram
