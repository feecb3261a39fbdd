import LineAtlas.Proofs.LineProgram.History
import LineAtlas.Proofs.LineProgram.InstructionFailures
import LineAtlas.Proofs.LineProgram.Progress
import LineAtlas.Proofs.StoppingPlaces

namespace LineAtlas.LineProgram

/-!
# What a failed instruction leaves behind

An instruction changes the registers after its operands have been read, and after that only
its surplus is skipped. So the registers are those from before it, unless the surplus cannot
be skipped. An extended instruction has a surplus, but nearly all that have one change no
register; the end of a sequence sets its flag first. The room ahead is checked before this,
so the flag stays as it was if the length does not even fit into 64-bit positions.
-/

open Base128 (UnsignedSpelling)

/--
The instruction ends the sequence, with its second opcode there to be read, and its length
makes it end at `stop`.
-/
structure EndsSequenceAt
    (opcode : UInt8)
    (program : Cursor)
    (stop : Nat) :
    Prop where
  extended : opcode = 0
  counted :
    ∃ (length : UInt64) (number tail : Bytes),
      program.rest = number ++ 1 :: tail ∧
        UnsignedSpelling number length.toNat ∧
        number.length ≤ 10 ∧
        stop = program.position + number.length + length.toNat

/-- The instruction ends the sequence, but its length runs past the end of the data to `stop`. -/
structure EndRunsPast
    (opcode : UInt8)
    (program : Cursor)
    (stop : Nat) :
    Prop extends EndsSequenceAt opcode program stop where
  past : program.size < stop

namespace Instruction

/-! ## Where instructions stop -/

theorem lt_addressLimit_of_requireAhead
    {count : Nat}
    {before after : Cursor}
    (success : requireAhead count before = .ok () after) :
    before.position + count < addressLimit := by
  rw [requireAhead_apply] at success
  split at success
  · cases success
  · next room =>
      exact Nat.lt_of_not_le room

theorem stopsAhead_requireAhead (count : Nat) : (requireAhead count).StopsAhead where
  found before value after placed success := by
    rw [unmoved_of_requireAhead success]
    exact .refl placed
  failed before cause stopped placed failure := by
    rw [requireAhead_apply] at failure
    split at failure
    · cases failure
      exact .refl placed
    · cases failure

theorem stopsAhead_readExtendedOperand
    (opcode : ExtendedOpcode)
    (size : Nat) :
    (readExtendedOperand opcode size).StopsAhead := by
  cases opcode with
  | setAddress =>
      simp only [readExtendedOperand]
      split
      · exact (Reader.stopsAhead_address size).bind fun _ => Reader.stopsAhead_pure _
      · exact Reader.stopsAhead_pure _
  | _ =>
      exact Reader.stopsAhead_pure _

theorem stopsAhead_readExtended : readExtended.StopsAhead := by
  refine Reader.stopsAhead_unsigned.bind fun length => ?_
  split
  · exact Reader.stopsAhead_pure _
  · exact Reader.stopsAhead_uint8.bind fun opcode =>
      (stopsAhead_requireAhead _).bind fun _ => stopsAhead_readExtendedOperand _ _

theorem stopsAhead_readStandard (opcode : StandardOpcode) :
    (readStandard opcode).StopsAhead := by
  cases opcode
  case advancePc =>
    exact Reader.stopsAhead_unsigned.bind fun _ => Reader.stopsAhead_pure _
  case advanceLine =>
    exact Reader.stopsAhead_signed.bind fun _ => Reader.stopsAhead_pure _
  case setFile =>
    exact Reader.stopsAhead_unsigned.bind fun _ => Reader.stopsAhead_pure _
  case setColumn =>
    exact Reader.stopsAhead_unsigned.bind fun _ => Reader.stopsAhead_pure _
  case fixedAdvancePc =>
    exact Reader.stopsAhead_uint16.bind fun _ => Reader.stopsAhead_pure _
  all_goals exact Reader.stopsAhead_pure _

theorem stopsAhead_read
    (header : Header)
    (opcode : UInt8) :
    (read header opcode).StopsAhead := by
  unfold read
  split
  · exact stopsAhead_readExtended
  · split
    · exact (stopsAhead_readStandard _).bind fun _ => Reader.stopsAhead_pure _
    · exact Reader.stopsAhead_pure _
    · exact (Reader.stopsAhead_unsigned.times _).bind fun _ => Reader.stopsAhead_pure _

/-! ## What has a surplus -/

/-- The byte of the second opcode that ends a sequence. -/
theorem ofByte_eq_endSequence_iff
    {byte : UInt8} :
    ExtendedOpcode.ofByte byte = .endSequence ↔ byte = 1 := by
  unfold ExtendedOpcode.ofByte
  split <;> simp_all

/-- An operand with a surplus belongs to no effect, or to the end of a sequence. -/
theorem surplus_of_readExtendedOperand
    {opcode : ExtendedOpcode}
    {size : Nat}
    {before after : Cursor}
    {fetched : Fetched}
    (success : readExtendedOperand opcode size before = .ok fetched after) :
    fetched.surplus = 0 ∨
      fetched.instruction = .ignored ∨
      fetched.instruction = .endSequence ∧ opcode = .endSequence := by
  cases opcode with
  | endSequence =>
      cases success
      exact .inr (.inr ⟨rfl, rfl⟩)
  | setAddress =>
      rw [readExtendedOperand] at success
      split at success
      · obtain ⟨address, read, addressRead, returned⟩ := bind_eq_ok_iff.mp success
        cases returned
        exact .inl rfl
      · cases success
        exact .inr (.inl rfl)
  | _ =>
      cases success
      exact .inr (.inl rfl)

/-- What has a surplus, and an effect, ends the sequence at a 64-bit position. -/
theorem surplus_of_readExtended
    {before after : Cursor}
    {fetched : Fetched}
    (success : readExtended before = .ok fetched after) :
    fetched.surplus = 0 ∨
      fetched.instruction = .ignored ∨
      fetched.instruction = .endSequence ∧
        EndsSequenceAt 0 before (after.position + fetched.surplus) ∧
        after.position + fetched.surplus < addressLimit := by
  obtain ⟨length, counted, lengthRead, rest⟩ := bind_eq_ok_iff.mp success
  split at rest
  · cases rest
    exact .inl rfl
  · next nonempty =>
      obtain ⟨byte, opened, byteRead, checkAndRead⟩ := bind_eq_ok_iff.mp rest
      obtain ⟨_, checked, checkStep, operandRead⟩ := bind_eq_ok_iff.mp checkAndRead
      obtain rfl := unmoved_of_requireAhead checkStep
      rcases surplus_of_readExtendedOperand operandRead with none | ignored | ⟨ends, named⟩
      · exact .inl none
      · exact .inr (.inl ignored)
      · obtain ⟨used, seen, rfl⟩ := Reader.advance_of_consuming lengthRead
        obtain ⟨number, tail, split, spelling, short, rfl⟩ := Base128.unsigned_sound seen
        obtain ⟨opens, -⟩ := Reader.split_of_uint8 byteRead
        obtain rfl := ofByte_eq_endSequence_iff.mp named
        rw [Cursor.rest_advance split] at opens
        rw [opens] at split
        -- The room that was checked ahead of the operand goes to the end of its surplus.
        have room := lt_addressLimit_of_requireAhead checkStep
        obtain ⟨-, -, operandExtent⟩ := extent_of_readExtendedOperand operandRead
        rw [← operandExtent] at room
        obtain ⟨_, _, again, -, -, extent, -⟩ := extent_of_readExtended success
        rw [seen] at again
        cases again
        exact .inr (.inr ⟨ends, ⟨rfl, length, number, _, split, spelling, short, extent⟩, room⟩)

end Instruction

namespace Machine

variable
  {header : Header}
  {constAddPc : ConstAddPc}
  {opcode : UInt8}
  {before stopped : Machine}
  {cause : ReadError}

section

variable
  {α : Type}
  {reader : Reader α}

/-- Reading from the program succeeds where the reader does, with the registers as they are. -/
theorem fetch_eq_ok_iff
    {value : α}
    {after : Machine} :
    fetch reader before = .ok value after ↔
      reader before.program = .ok value after.program ∧ after.registers = before.registers := by
  cases after
  cases outcome : reader before.program <;> simp [fetch, outcome, and_assoc, and_comm, eq_comm]

/-- Reading from the program fails where the reader does, with the registers as they are. -/
theorem fetch_eq_error_iff :
    fetch reader before = .error cause stopped ↔
      reader before.program = .error cause stopped.program ∧
        stopped.registers = before.registers := by
  cases stopped
  cases outcome : reader before.program with
  | ok value after =>
      simp [fetch, outcome]
  | error other last =>
      simp only [fetch, outcome, EStateM.Result.error.injEq, mk.injEq, @eq_comm _ last]
      constructor
      · rintro ⟨rfl, rfl, rfl⟩
        exact ⟨⟨rfl, rfl⟩, rfl⟩
      · rintro ⟨⟨rfl, rfl⟩, rfl⟩
        exact ⟨rfl, rfl, rfl⟩

end

/-- An instruction fails before it has changed a register, or where its surplus is skipped. -/
theorem cases_of_execute_error
    (failure : execute header constAddPc opcode before = .error cause stopped) :
    Instruction.read header opcode before.program = .error cause stopped.program ∧
        stopped.registers = before.registers ∨
      ∃ fetched reached,
        Instruction.read header opcode before.program = .ok fetched reached ∧
          Reader.skip fetched.surplus reached = .error cause stopped.program ∧
          stopped.registers =
            (before.registers.apply header constAddPc fetched.instruction).1 := by
  rcases bind_eq_error_iff.mp failure with readFails | ⟨fetched, read, readStep, applyAndSkip⟩
  · exact .inl (fetch_eq_error_iff.mp readFails)
  · rcases bind_eq_error_iff.mp applyAndSkip with
      applyFails | ⟨_, applied, applyStep, skipAndReturn⟩
    · cases applyFails
    · cases applyStep
      rcases bind_eq_error_iff.mp skipAndReturn with skipFails | ⟨_, _, _, returnFails⟩
      · obtain ⟨fetchedRead, unchanged⟩ := fetch_eq_ok_iff.mp readStep
        obtain ⟨skipFailed, applied⟩ := fetch_eq_error_iff.mp skipFails
        rw [← unchanged]
        exact .inr ⟨fetched, read.program, fetchedRead, skipFailed, applied⟩
      · cases returnFails

/-- What leaves a surplus that cannot be skipped has no effect, or ends the sequence too late. -/
theorem endRunsPast_of_skip_error
    {fetched : Fetched}
    {program reached last : Cursor}
    (placed : program.Placed)
    (read : Instruction.read header opcode program = .ok fetched reached)
    (skipFails : Reader.skip fetched.surplus reached = .error cause last) :
    fetched.instruction = .ignored ∨
      fetched.instruction = .endSequence ∧
        ∃ stop < addressLimit, EndRunsPast opcode program stop := by
  have reaches := (Instruction.stopsAhead_read header opcode).found _ _ _ placed read
  have inside := reaches.placed placed
  have past := Reader.past_of_skip_error skipFails
  have surplus : fetched.surplus ≠ 0 := by
    intro none
    have := inside.position_le
    have := inside.size_lt
    omega
  have extended : opcode = 0 := by
    by_contra standard
    exact surplus (Instruction.finds_read header standard _ _ _ read).1
  subst extended
  rcases Instruction.surplus_of_readExtended read with none | ignored | ⟨ends, ending, room⟩
  · exact absurd none surplus
  · exact .inl ignored
  · have sameSize : reached.size = program.size := by
      obtain ⟨count, rfl, -⟩ := reaches
      rfl
    refine .inr ⟨ends, _, room, ending, ?_⟩
    rw [← sameSize]
    exact past.resolve_left (Nat.not_le_of_lt room)

/-- The end of a sequence is read, however far past the data its length runs. -/
theorem read_of_endRunsPast
    {program : Cursor}
    {stop : Nat}
    (header : Header)
    (placed : program.Placed)
    (late : EndRunsPast opcode program stop)
    (room : stop < addressLimit) :
    ∃ surplus reached,
      Instruction.read header opcode program =
        .ok { instruction := .endSequence, surplus := surplus } reached := by
  obtain ⟨⟨rfl, length, number, tail, split, spelling, short, rfl⟩, past⟩ := late
  have counted := Reader.reads_unsigned program.order spelling short program _ placed rfl split
  have afterNumber : (program.advance number.length).rest = [1] ++ tail :=
    Cursor.rest_advance split
  have opened :=
    Reader.reads_uint8 program.order 1 (program.advance number.length) tail
      (placed.advance split) rfl afterNumber
  have inside := (placed.advance split).end_le_size afterNumber
  simp only [Cursor.advance, Cursor.size, List.length_singleton] at inside past
  have nonempty : length ≠ 0 := by
    rintro rfl
    simp at past
    omega
  have checked :
      Instruction.requireAhead (length.toNat - 1) ((program.advance number.length).advance 1) =
        .ok () ((program.advance number.length).advance 1) := by
    rw [Instruction.requireAhead_apply, if_neg]
    simp only [Cursor.advance]
    omega
  refine ⟨length.toNat - 1, (program.advance number.length).advance 1, ?_⟩
  rw [Instruction.read, if_pos rfl, Instruction.readExtended, Reader.bind_of_ok counted,
    if_neg nonempty, Reader.bind_of_ok opened]
  exact Reader.bind_of_ok checked

/--
What an instruction that fails has done to a machine: to its registers nothing, but that the
end of a sequence whose length runs past the data sets its flag, and to its place in the
program no more than to move on inside the data.
-/
structure Spares
    (opcode : UInt8)
    (before stopped : Machine) :
    Prop where
  kept :
    (¬ ∃ stop < addressLimit, EndRunsPast opcode before.program stop) →
      stopped.registers = before.registers
  flagged :
    (∃ stop < addressLimit, EndRunsPast opcode before.program stop) →
      stopped.registers = { before.registers with endSequence := true }
  reaches : before.program.Reaches stopped.program

/-- An instruction that fails spares the registers. -/
theorem spares_of_execute_error
    (placed : before.program.Placed)
    (failure : execute header constAddPc opcode before = .error cause stopped) :
    Spares opcode before stopped := by
  have stops := Instruction.stopsAhead_read header opcode
  rcases cases_of_execute_error failure with
    ⟨readFails, unchanged⟩ | ⟨fetched, reached, read, skipFails, applied⟩
  · refine ⟨fun _ => unchanged, ?_, stops.failed _ _ _ placed readFails⟩
    rintro ⟨stop, room, late⟩
    obtain ⟨surplus, reached, read⟩ := read_of_endRunsPast header placed late room
    rw [readFails] at read
    cases read
  · have near := stops.found _ _ _ placed read
    have far := (Reader.stopsAhead_skip _).failed _ _ _ (near.placed placed) skipFails
    refine ⟨fun inTime => ?_, ?_, near.trans far⟩
    · rcases endRunsPast_of_skip_error placed read skipFails with ignored | ⟨-, late⟩
      · rw [applied, ignored, Registers.apply]
      · exact absurd late inTime
    · rintro ⟨stop, room, late⟩
      obtain ⟨surplus, _, again⟩ := read_of_endRunsPast header placed late room
      rw [read] at again
      cases again
      rw [applied, Registers.apply]

/-- The end of a sequence that should have four more bytes than are there, after its opcode. -/
def cutEnd : Machine where
  registers := { Registers.initial true with address := 0x4400, line := 7, basicBlock := true }
  program := (Cursor.ofBytes .little [0, 7, 1, 0xAA, 0xBB]).advance 1

theorem spares_of_execute_error_cutEnd :
    cutEnd.program.Placed ∧
      ∃ stopped,
        execute wideHeader .standard 0 cutEnd =
            .error (.truncated 9 5 "seek target") stopped ∧
          Spares 0 cutEnd stopped ∧
          stopped.registers = { cutEnd.registers with endSequence := true } := by
  have placed : cutEnd.program.Placed := ⟨by decide, by decide⟩
  have failure :
      execute wideHeader .standard 0 cutEnd =
        .error (.truncated 9 5 "seek target")
          { registers := { cutEnd.registers with endSequence := true }
            program := cutEnd.program.advance 2 } := by
    rfl
  exact ⟨placed, _, failure, spares_of_execute_error placed failure, rfl⟩

/-- The end of a sequence with the greatest length that there is. -/
def overlongEnd : Machine where
  registers := .initial true
  program :=
    (Cursor.ofBytes .little
      [0, 0xFF, 0xFF, 0xFF, 0xFF, 0xFF, 0xFF, 0xFF, 0xFF, 0xFF, 0x01, 0x01]).advance 1

/--
The length runs past the end of the data, and the instruction fails, but the flag is not set:
there is no 64-bit position that far on.
-/
theorem not_endSequence_overlongEnd :
    (∃ stop, EndRunsPast 0 overlongEnd.program stop) ∧
      ∃ stopped,
        execute wideHeader .ignore 0 overlongEnd = .error (.overflow "extended opcode") stopped ∧
          stopped.registers.endSequence = false := by
  have number :
      Base128.unsignedBytes 18446744073709551615 =
        [0xFF, 0xFF, 0xFF, 0xFF, 0xFF, 0xFF, 0xFF, 0xFF, 0xFF, 0x01] := by
    simp [Base128.unsignedBytes]
  have spelling := Base128.spelling_unsignedBytes 18446744073709551615
  rw [number] at spelling
  have ending : EndsSequenceAt 0 overlongEnd.program (1 + 10 + 18446744073709551615) :=
    ⟨rfl, 18446744073709551615, _, [], rfl, spelling, by decide, rfl⟩
  exact ⟨⟨_, ending, by decide⟩, _, rfl, rfl⟩

end Machine

end LineAtlas.LineProgram
