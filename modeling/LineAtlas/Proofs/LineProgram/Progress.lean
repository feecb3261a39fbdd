import LineAtlas.Proofs.Consumption
import LineAtlas.Proofs.Findings
import LineAtlas.Proofs.LineProgram.InstructionLocality

namespace LineAtlas.LineProgram

/-!
# Programs move on

An instruction takes at least its opcode, and never reaches past the data. The length
of an extended instruction says exactly where it ends: no operand is longer, so that
skipping the surplus never has to go back. The end of a sequence takes three bytes at
least, and every other instruction appends at most one row; so a sequence takes at
least three bytes more than it has rows.
-/

namespace Instruction

theorem takes_readStandard (opcode : StandardOpcode) : (readStandard opcode).Takes 0 := by
  have operand {α : Type} {reader : Reader α} {least : Nat} (takes : reader.Takes least)
      (instruction : α → Instruction) :
      (reader >>= fun found => pure (instruction found)).Takes 0 :=
    (takes.bind fun found => Reader.takes_pure (instruction found)).mono (Nat.zero_le _)
  cases opcode
  case advancePc => exact operand Reader.takes_unsigned _
  case advanceLine => exact operand Reader.takes_signed _
  case setFile => exact operand Reader.takes_unsigned _
  case setColumn => exact operand Reader.takes_unsigned _
  case fixedAdvancePc => exact operand Reader.takes_uint16 _
  all_goals exact Reader.takes_pure _

/-- An operand and its surplus are as long as the instruction says. -/
theorem extent_of_readExtendedOperand
    {opcode : ExtendedOpcode}
    {size : Nat}
    {before after : Cursor}
    {fetched : Fetched}
    (success : readExtendedOperand opcode size before = .ok fetched after) :
    after.size = before.size ∧
      before.position ≤ after.position ∧
      after.position + fetched.surplus = before.position + size := by
  cases opcode with
  | setAddress =>
      rw [readExtendedOperand] at success
      split at success
      · obtain ⟨address, read, addressRead, returned⟩ := bind_eq_ok_iff.mp success
        obtain ⟨used, seen, rfl⟩ := Reader.advance_of_consuming addressRead
        obtain ⟨number, -, same⟩ := Reader.map_eq_ok_iff.mp seen
        cases same
        cases returned
        exact ⟨rfl, Nat.le_add_right _ _, rfl⟩
      · cases success
        exact ⟨rfl, Nat.le_refl _, rfl⟩
  | _ =>
      cases success
      exact ⟨rfl, Nat.le_refl _, rfl⟩

/-- An extended instruction and its surplus end as far after the length as that says. -/
theorem extent_of_readExtended
    {before after : Cursor}
    {fetched : Fetched}
    (success : readExtended before = .ok fetched after) :
    ∃ length used,
      Base128.unsigned before.rest = .ok (length, used) ∧
        after.size = before.size ∧
        before.position + used ≤ after.position ∧
        after.position + fetched.surplus = before.position + used + length.toNat ∧
        (fetched.instruction = .endSequence → 0 < length.toNat) := by
  obtain ⟨length, counted, lengthRead, rest⟩ := bind_eq_ok_iff.mp success
  obtain ⟨used, seen, rfl⟩ := Reader.advance_of_consuming lengthRead
  refine ⟨length, used, seen, ?_⟩
  split at rest
  · next empty =>
      cases rest
      subst empty
      exact ⟨rfl, Nat.le_refl _, rfl, by simp⟩
  · next nonempty =>
      have some : 0 < length.toNat := by
        rw [Nat.pos_iff_ne_zero, ne_eq, ← UInt64.toNat_zero, UInt64.toNat_inj]
        exact nonempty
      obtain ⟨opcode, opened, opcodeRead, checkAndRead⟩ := bind_eq_ok_iff.mp rest
      obtain ⟨_, checked, checkStep, operandRead⟩ := bind_eq_ok_iff.mp checkAndRead
      obtain rfl := unmoved_of_requireAhead checkStep
      obtain ⟨one, opcodeSeen, rfl⟩ := Reader.advance_of_consuming opcodeRead
      obtain ⟨byte, -, same⟩ := Reader.map_eq_ok_iff.mp opcodeSeen
      cases same
      obtain ⟨sameSize, forward, extent⟩ := extent_of_readExtendedOperand operandRead
      simp only [Cursor.advance] at forward extent
      exact ⟨sameSize, by omega, by omega, fun _ => some⟩

/-- An extended instruction ends as far after its length as that says, inside the data. -/
theorem extent_of_readWhole
    {header : Header}
    {before after : Cursor}
    {instruction : Instruction}
    (success : readWhole header 0 before = .ok instruction after) :
    ∃ length used fetched between,
      Base128.unsigned before.rest = .ok (length, used) ∧
        readExtended before = .ok fetched between ∧
        between.position ≤ after.position ∧
        after.position = before.position + used + length.toNat ∧
        after.size = before.size ∧
        after.position ≤ after.size ∧
        (instruction = .endSequence → 0 < length.toNat) := by
  obtain ⟨fetched, between, operandRead, skipAndReturn⟩ := bind_eq_ok_iff.mp success
  obtain ⟨_, skipped, skipRead, returned⟩ := bind_eq_ok_iff.mp skipAndReturn
  replace operandRead : readExtended before = .ok fetched between := operandRead
  obtain ⟨length, used, seen, sameSize, -, extent, some⟩ := extent_of_readExtended operandRead
  have there := Reader.le_size_of_skip skipRead
  cases Reader.advance_of_skip skipRead
  cases returned
  exact ⟨length, used, fetched, between, seen, operandRead, Nat.le_add_right _ _, extent,
    sameSize, there, some⟩

theorem takes_readWhole
    (header : Header)
    (opcode : UInt8) :
    (readWhole header opcode).Takes 0 := by
  by_cases extended : opcode = 0
  · subst extended
    intro before instruction after inside success
    obtain ⟨length, used, _, _, _, _, _, extent, sameSize, there, _⟩ :=
      extent_of_readWhole success
    exact ⟨sameSize, by omega, there⟩
  · have fetches : (read header opcode).Takes 0 := by
      rw [read, if_neg extended]
      split
      · exact (takes_readStandard _).bind fun _ => Reader.takes_pure _
      · exact Reader.takes_pure _
      · exact ((Reader.takes_unsigned.times _).bind fun _ => Reader.takes_pure _).mono
          (Nat.zero_le _)
    exact fetches.bind fun fetched =>
      ((Reader.takes_skip fetched.surplus).bind fun _ =>
        Reader.takes_pure fetched.instruction).mono (Nat.zero_le _)

theorem takes_next (header : Header) : (next header).Takes 1 :=
  Reader.takes_uint8.bind (takes_readWhole header)

theorem finds_readStandard (opcode : StandardOpcode) :
    (readStandard opcode).Finds (· ≠ .endSequence) := by
  have operand {α : Type} {reader : Reader α} {instruction : α → Instruction}
      (other : ∀ found, instruction found ≠ .endSequence) :
      (reader >>= fun found => pure (instruction found)).Finds (· ≠ .endSequence) :=
    Reader.finds_bind fun found => Reader.finds_pure (other found)
  cases opcode
  case advancePc => exact operand nofun
  case advanceLine => exact operand nofun
  case setFile => exact operand nofun
  case setColumn => exact operand nofun
  case fixedAdvancePc => exact operand nofun
  all_goals exact Reader.finds_pure nofun

/-- Only an extended instruction has a surplus or ends a sequence. -/
theorem finds_read
    (header : Header)
    {opcode : UInt8}
    (standard : opcode ≠ 0) :
    (read header opcode).Finds fun fetched =>
      fetched.surplus = 0 ∧ fetched.instruction ≠ .endSequence := by
  rw [read, if_neg standard]
  split
  · exact (finds_readStandard _).bind fun _ other => Reader.finds_pure ⟨rfl, other⟩
  · exact Reader.finds_pure ⟨rfl, nofun⟩
  · exact Reader.finds_bind fun _ => Reader.finds_pure ⟨rfl, nofun⟩

theorem finds_readWhole
    (header : Header)
    {opcode : UInt8}
    (standard : opcode ≠ 0) :
    (readWhole header opcode).Finds (· ≠ .endSequence) :=
  (finds_read header standard).bind fun _ found =>
    Reader.finds_bind fun _ => Reader.finds_pure found.2

/-- The end of a sequence takes its opcode, a length and another opcode. -/
theorem three_le_of_endSequence
    {header : Header}
    {before after : Cursor}
    (success : next header before = .ok .endSequence after) :
    before.position + 3 ≤ after.position := by
  obtain ⟨opcode, opened, opcodeRead, wholeRead⟩ := bind_eq_ok_iff.mp success
  have near := Reader.consuming_uint8 _ _ _ opcodeRead
  by_cases extended : opcode = 0
  · subst extended
    obtain ⟨length, used, _, _, seen, _, _, extent, _, _, counted⟩ :=
      extent_of_readWhole wholeRead
    have lengthTaken := (Reader.le_size_of_unsigned seen).1
    have opcodeTaken := counted rfl
    omega
  · exact absurd rfl (finds_readWhole header extended _ _ _ wholeRead)

/-- A sequence takes a byte for each instruction, and three for its end. -/
theorem takes_sequence
    {header : Header}
    {before after : Cursor}
    {instructions : List Instruction}
    (inside : before.position ≤ before.size)
    (success : sequence header before = .ok instructions after) :
    after.size = before.size ∧
      before.position + instructions.length + 3 ≤ after.position ∧
      after.position ≤ after.size := by
  unfold sequence at success
  fun_induction Reader.collect (inside? <$> next header) _ before
    generalizing instructions after with
  | case1 before cause stopped outcome =>
      cases success
  | case2 before last outcome =>
      cases success
      obtain ⟨instruction, nextRead, ends⟩ := Machine.next_of_inside outcome
      obtain rfl := inside?_eq_none_iff.mp ends
      obtain ⟨sameSize, -, there⟩ := takes_next header _ _ _ inside nextRead
      exact ⟨sameSize, three_le_of_endSequence nextRead, there⟩
  | case3 before first between outcome cause stopped failed inductionHypothesis =>
      cases success
  | case4 before first between outcome later last laterRead inductionHypothesis =>
      cases success
      obtain ⟨instruction, nextRead, -⟩ := Machine.next_of_inside outcome
      obtain ⟨nearSize, near, nearInside⟩ := takes_next header _ _ _ inside nextRead
      obtain ⟨farSize, far, there⟩ := inductionHypothesis nearInside laterRead
      rw [List.length_cons]
      exact ⟨farSize.trans nearSize, by omega, there⟩

end Instruction

/-- An instruction appends at most one row. -/
theorem Registers.length_rows_le
    (header : Header)
    (constAddPc : ConstAddPc)
    (registers : Registers)
    (instructions : List Instruction) :
    (registers.rows header constAddPc instructions).length ≤ instructions.length := by
  induction instructions generalizing registers with
  | nil =>
      exact Nat.le_refl 0
  | cons instruction later inductionHypothesis =>
      have rest := inductionHypothesis (registers.apply header constAddPc instruction).1
      have atMostOne :
          (registers.apply header constAddPc instruction).2.toList.length ≤ 1 :=
        Option.length_toList_le
      rw [rows, List.length_append, List.length_cons]
      omega

/-- A sequence takes at least three bytes more than it has rows. -/
theorem takes_runSequence
    {header : Header}
    {constAddPc : ConstAddPc}
    {before after : Cursor}
    {rows : List Row}
    (inside : before.position ≤ before.size)
    (success : runSequence header constAddPc before = .ok rows after) :
    after.size = before.size ∧
      before.position + rows.length + 3 ≤ after.position ∧
      after.position ≤ after.size := by
  rw [runSequence_eq, ← bind_pure_comp] at success
  obtain ⟨instructions, between, sequenceRead, returned⟩ := bind_eq_ok_iff.mp success
  cases returned
  obtain ⟨sameSize, taken, there⟩ := Instruction.takes_sequence inside sequenceRead
  have fewer :=
    Registers.length_rows_le header constAddPc (.initial header.defaultIsStatement) instructions
  exact ⟨sameSize, by omega, there⟩

namespace Machine

variable
  {header : Header}
  {constAddPc : ConstAddPc}
  {before after : Machine}
  {row : Option Row}

/-- A step that succeeds has read an instruction. -/
theorem next_of_step
    (success : step header constAddPc before = .ok row after) :
    ∃ instruction, Instruction.next header before.program = .ok instruction after.program := by
  cases outcome : Instruction.next header before.program with
  | ok instruction last =>
      rw [step_of_next constAddPc outcome] at success
      cases success
      exact ⟨instruction, rfl⟩
  | error cause stopped =>
      obtain ⟨registers, failed⟩ :
          ∃ registers,
            step header constAddPc before =
              .error cause { program := stopped, registers := registers } :=
        step_of_next_error outcome
      rw [failed] at success
      cases success

/-- A step moves on, and not past the end. -/
theorem onward_of_step
    (success : step header constAddPc before = .ok row after) :
    before.program.position < after.program.position ∧
      after.program.position ≤ after.program.size := by
  obtain ⟨instruction, nextRead⟩ := next_of_step success
  have inside : before.program.position ≤ before.program.size :=
    Nat.le_of_lt (Instruction.consuming_next header _ _ _ nextRead).2.2.2
  obtain ⟨-, forward, there⟩ := Instruction.takes_next header _ _ _ inside nextRead
  exact ⟨forward, there⟩

/-- An extended instruction is executed to exactly where its length says. -/
theorem extent_of_execute
    (success : execute header constAddPc 0 before = .ok row after) :
    ∃ length used fetched between,
      Base128.unsigned before.program.rest = .ok (length, used) ∧
        Instruction.readExtended before.program = .ok fetched between ∧
        between.position ≤ after.program.position ∧
        after.program.position = before.program.position + used + length.toNat := by
  obtain ⟨fetched, read, readStep, applyAndSkip⟩ := bind_eq_ok_iff.mp success
  obtain ⟨_, applied, applyStep, skipAndReturn⟩ := bind_eq_ok_iff.mp applyAndSkip
  obtain ⟨_, skipped, skipStep, returned⟩ := bind_eq_ok_iff.mp skipAndReturn
  cases applyStep
  cases returned
  have operandRead := program_of_fetch readStep
  have skipRead := program_of_fetch skipStep
  have whole :
      Instruction.readWhole header 0 before.program = .ok fetched.instruction after.program :=
    bind_eq_ok_iff.mpr ⟨fetched, _, operandRead, bind_eq_ok_iff.mpr ⟨(), _, skipRead, rfl⟩⟩
  obtain ⟨length, used, fetched, between, seen, operandRead, near, extent, -⟩ :=
    Instruction.extent_of_readWhole whole
  exact ⟨length, used, fetched, between, seen, operandRead, near, extent⟩

end Machine

end LineAtlas.LineProgram
