import LineAtlas.LineProgram.Machine
import LineAtlas.Proofs.Locality

namespace LineAtlas.LineProgram

/-!
# Sequences as lists of instructions

What a machine reads does not depend on its registers. So a sequence can be read
first, as the list of its instructions, and run afterwards: `runSequence_eq` says
that the rows of a sequence are those that its instructions append, and that a
sequence fails where its instructions cannot be read.
-/

namespace Instruction

/-- Reads what follows an opcode, up to the last byte of the instruction. -/
def readWhole
    (header : Header)
    (opcode : UInt8) :
    Reader Instruction := do
  let fetched ← read header opcode
  Reader.skip fetched.surplus
  return fetched.instruction

/-- Reads an instruction, from its opcode to its last byte. -/
def next (header : Header) : Reader Instruction := do
  let opcode ← Reader.uint8
  readWhole header opcode

/-- The instruction, unless it ends the sequence. -/
def inside? (instruction : Instruction) : Option Instruction :=
  if instruction = .endSequence then none else some instruction

theorem inside?_eq_none_iff
    {instruction : Instruction} :
    instruction.inside? = none ↔ instruction = .endSequence := by
  simp [inside?]

theorem inside?_eq_some_iff
    {instruction other : Instruction} :
    instruction.inside? = some other ↔
      instruction ≠ .endSequence ∧ instruction = other := by
  simp [inside?]

theorem consuming_next (header : Header) : (next header).Consuming :=
  Reader.consuming_uint8.bind fun opcode =>
    (forward_read header opcode).bind fun fetched =>
      (Reader.forward_skip fetched.surplus).bind fun _ =>
        Reader.forward_pure fetched.instruction

/-- Reads the instructions of a sequence, up to the one that ends it. -/
def sequence (header : Header) : Reader (List Instruction) :=
  Reader.collect (inside? <$> next header) ((consuming_next header).map inside?)

end Instruction

/-- The rows that instructions append, one instruction after the other. -/
def Registers.rows
    (header : Header)
    (constAddPc : ConstAddPc) :
    Registers → List Instruction → List Row
  | _, [] => []
  | registers, instruction :: later =>
      let effect := registers.apply header constAddPc instruction
      effect.2.toList ++ rows header constAddPc effect.1 later

/-- The registers after some instructions. -/
def Registers.after
    (header : Header)
    (constAddPc : ConstAddPc)
    (registers : Registers)
    (instructions : List Instruction) :
    Registers :=
  instructions.foldl
    (fun before instruction => (before.apply header constAddPc instruction).1)
    registers

theorem Registers.after_concat
    (header : Header)
    (constAddPc : ConstAddPc)
    (registers : Registers)
    (instructions : List Instruction)
    (instruction : Instruction) :
    registers.after header constAddPc (instructions ++ [instruction]) =
      ((registers.after header constAddPc instructions).apply
        header constAddPc instruction).1 := by
  simp [after]

/-- The instructions before some others leave the registers that these start from. -/
theorem Registers.rows_append
    (header : Header)
    (constAddPc : ConstAddPc)
    (registers : Registers)
    (near far : List Instruction) :
    registers.rows header constAddPc (near ++ far) =
      registers.rows header constAddPc near ++
        (registers.after header constAddPc near).rows header constAddPc far := by
  induction near generalizing registers with
  | nil =>
      rfl
  | cons first later inductionHypothesis =>
      simp [rows, after, inductionHypothesis]

/-- The last instruction appends what it does after the ones before it. -/
theorem Registers.rows_concat
    (header : Header)
    (constAddPc : ConstAddPc)
    (registers : Registers)
    (instructions : List Instruction)
    (instruction : Instruction) :
    registers.rows header constAddPc (instructions ++ [instruction]) =
      registers.rows header constAddPc instructions ++
        ((registers.after header constAddPc instructions).apply
          header constAddPc instruction).2.toList := by
  simp [rows_append, rows]

/-- Only the end of a sequence sets the flag for it. -/
theorem Registers.endSequence_apply
    {header : Header}
    {constAddPc : ConstAddPc}
    {registers : Registers}
    {instruction : Instruction}
    (inside : registers.endSequence = false) :
    (registers.apply header constAddPc instruction).1.endSequence =
      decide (instruction = .endSequence) := by
  cases instruction with
  | endSequence =>
      rfl
  | constAddPc =>
      cases constAddPc <;> simpa [Registers.apply, advanceAddress] using inside
  | _ =>
      simpa [Registers.apply, emit, advanceAddress, advanceLine] using inside

namespace Machine

variable
  {header : Header}
  {constAddPc : ConstAddPc}
  {machine : Machine}

/-- Reading from the program is reading at its place. -/
theorem fetch_of_ok
    {α : Type}
    {reader : Reader α}
    {value : α}
    {after : Cursor}
    (read : reader machine.program = .ok value after) :
    fetch reader machine = .ok value { machine with program := after } := by
  rw [fetch, read]

theorem fetch_of_error
    {α : Type}
    {reader : Reader α}
    {cause : ReadError}
    {stopped : Cursor}
    (failed : reader machine.program = .error cause stopped) :
    fetch reader machine = .error cause { machine with program := stopped } := by
  rw [fetch, failed]

variable (constAddPc) in
/-- A step reads an instruction and applies it. -/
theorem step_of_next
    {instruction : Instruction}
    {after : Cursor}
    (read : Instruction.next header machine.program = .ok instruction after) :
    step header constAddPc machine =
      .ok (machine.registers.apply header constAddPc instruction).2
        { registers := (machine.registers.apply header constAddPc instruction).1
          program := after } := by
  obtain ⟨opcode, opened, opcodeRead, wholeRead⟩ := bind_eq_ok_iff.mp read
  obtain ⟨fetched, operands, operandsRead, skipAndReturn⟩ := bind_eq_ok_iff.mp wholeRead
  obtain ⟨_, skipped, skipRead, returned⟩ := bind_eq_ok_iff.mp skipAndReturn
  cases returned
  refine bind_eq_ok_iff.mpr ⟨opcode, _, fetch_of_ok opcodeRead, ?_⟩
  refine bind_eq_ok_iff.mpr ⟨fetched, _, fetch_of_ok operandsRead, ?_⟩
  refine bind_eq_ok_iff.mpr ⟨_, _, rfl, ?_⟩
  exact bind_eq_ok_iff.mpr ⟨(), _, fetch_of_ok skipRead, rfl⟩

/-- A step fails where no instruction can be read, whatever it has done to the registers. -/
theorem step_of_next_error
    {cause : ReadError}
    {stopped : Cursor}
    (failed : Instruction.next header machine.program = .error cause stopped) :
    ∃ registers,
      step header constAddPc machine =
        .error cause { registers := registers, program := stopped } := by
  rcases bind_eq_error_iff.mp failed with opcodeFails | ⟨opcode, opened, opcodeRead, wholeFails⟩
  · refine ⟨machine.registers, ?_⟩
    exact bind_eq_error_iff.mpr (.inl (fetch_of_error opcodeFails))
  · rcases bind_eq_error_iff.mp wholeFails with
      operandsFail | ⟨fetched, operands, operandsRead, restFails⟩
    · refine ⟨machine.registers, ?_⟩
      refine bind_eq_error_iff.mpr (.inr ⟨opcode, _, fetch_of_ok opcodeRead, ?_⟩)
      exact bind_eq_error_iff.mpr (.inl (fetch_of_error operandsFail))
    · rcases bind_eq_error_iff.mp restFails with skipFails | ⟨_, _, _, returnFails⟩
      · refine ⟨(machine.registers.apply header constAddPc fetched.instruction).1, ?_⟩
        refine bind_eq_error_iff.mpr (.inr ⟨opcode, _, fetch_of_ok opcodeRead, ?_⟩)
        refine bind_eq_error_iff.mpr (.inr ⟨fetched, _, fetch_of_ok operandsRead, ?_⟩)
        refine bind_eq_error_iff.mpr (.inr ⟨_, _, rfl, ?_⟩)
        exact bind_eq_error_iff.mpr (.inl (fetch_of_error skipFails))
      · cases returnFails

/-- Outside of sequences a run is over. -/
theorem run_of_ended
    (ended : machine.registers.endSequence = true) :
    run header constAddPc machine = .ok [] machine := by
  rw [run, if_pos ended]

/-- Inside a sequence a run goes on after each step. -/
theorem run_of_step
    {row : Option Row}
    {after : Machine}
    (inside : machine.registers.endSequence = false)
    (stepped : step header constAddPc machine = .ok row after) :
    run header constAddPc machine =
      match run header constAddPc after with
      | .error cause stopped => .error cause stopped
      | .ok later last => .ok (row.toList ++ later) last := by
  rw [run, if_neg (by simp [inside])]
  split
  · next failed =>
      rw [stepped] at failed
      cases failed
  · next outcome =>
      rw [stepped] at outcome
      cases outcome
      rfl

/-- Inside a sequence a run fails with its step. -/
theorem run_of_step_error
    {cause : ReadError}
    {stopped : Machine}
    (inside : machine.registers.endSequence = false)
    (failed : step header constAddPc machine = .error cause stopped) :
    run header constAddPc machine = .error cause stopped := by
  rw [run, if_neg (by simp [inside])]
  split
  · next outcome =>
      rw [failed] at outcome
      cases outcome
      rfl
  · next outcome =>
      rw [failed] at outcome
      cases outcome

/-- What the reader of a sequence finds next is an instruction, or the end. -/
theorem next_of_inside
    {program after : Cursor}
    {found : Option Instruction}
    (read : (Instruction.inside? <$> Instruction.next header) program = .ok found after) :
    ∃ instruction,
      Instruction.next header program = .ok instruction after ∧
        instruction.inside? = found := by
  rw [← bind_pure_comp] at read
  obtain ⟨instruction, between, nextRead, returned⟩ := bind_eq_ok_iff.mp read
  cases returned
  exact ⟨instruction, nextRead, rfl⟩

theorem next_of_inside_error
    {program stopped : Cursor}
    {cause : ReadError}
    (failed :
      (Instruction.inside? <$> Instruction.next header) program = .error cause stopped) :
    Instruction.next header program = .error cause stopped := by
  rw [← bind_pure_comp] at failed
  rcases bind_eq_error_iff.mp failed with nextFails | ⟨_, _, _, returnFails⟩
  · exact nextFails
  · cases returnFails

variable (header constAddPc machine)

/--
A run reads the instructions of its sequence and appends their rows; where they
cannot be read, it stops.
-/
theorem run_sequence
    (inside : machine.registers.endSequence = false) :
    (∀ instructions after,
      Instruction.sequence header machine.program = .ok instructions after →
      ∃ registers,
        run header constAddPc machine =
          .ok (machine.registers.rows header constAddPc instructions)
            { registers := registers, program := after }) ∧
    (∀ cause stopped,
      Instruction.sequence header machine.program = .error cause stopped →
      ∃ registers,
        run header constAddPc machine =
          .error cause { registers := registers, program := stopped }) := by
  unfold Instruction.sequence
  generalize sameProgram : machine.program = program
  fun_induction Reader.collect (Instruction.inside? <$> Instruction.next header) _ program
    generalizing machine with
  | case1 program cause stopped outcome =>
      subst sameProgram
      refine ⟨by simp, ?_⟩
      rintro _ _ ⟨⟩
      obtain ⟨registers, stepFails⟩ := step_of_next_error (next_of_inside_error outcome)
      exact ⟨registers, run_of_step_error inside stepFails⟩
  | case2 program after outcome =>
      subst sameProgram
      obtain ⟨instruction, nextRead, noneFound⟩ := next_of_inside outcome
      obtain rfl := Instruction.inside?_eq_none_iff.mp noneFound
      have stepped := step_of_next constAddPc nextRead
      refine ⟨?_, by simp⟩
      rintro _ _ ⟨⟩
      rw [run_of_step inside stepped, run_of_ended rfl]
      exact ⟨_, rfl⟩
  | case3 program first between outcome cause stopped laterFails inductionHypothesis =>
      subst sameProgram
      obtain ⟨instruction, nextRead, someFound⟩ := next_of_inside outcome
      obtain ⟨notEnd, rfl⟩ := Instruction.inside?_eq_some_iff.mp someFound
      have stepped := step_of_next constAddPc nextRead
      have stillInside :
          (machine.registers.apply header constAddPc instruction).1.endSequence = false := by
        simp [Registers.endSequence_apply inside, notEnd]
      refine ⟨by simp, ?_⟩
      rintro _ _ ⟨⟩
      obtain ⟨registers, later⟩ :=
        (inductionHypothesis { registers := _, program := between } stillInside rfl).2
          cause stopped laterFails
      rw [run_of_step inside stepped, later]
      exact ⟨registers, rfl⟩
  | case4 program first between outcome instructions last laterRead inductionHypothesis =>
      subst sameProgram
      obtain ⟨instruction, nextRead, someFound⟩ := next_of_inside outcome
      obtain ⟨notEnd, rfl⟩ := Instruction.inside?_eq_some_iff.mp someFound
      have stepped := step_of_next constAddPc nextRead
      have stillInside :
          (machine.registers.apply header constAddPc instruction).1.endSequence = false := by
        simp [Registers.endSequence_apply inside, notEnd]
      refine ⟨?_, by simp⟩
      rintro _ _ ⟨⟩
      obtain ⟨registers, later⟩ :=
        (inductionHypothesis { registers := _, program := between } stillInside rfl).1
          instructions last laterRead
      rw [run_of_step inside stepped, later]
      exact ⟨registers, rfl⟩

end Machine

/-- Running a sequence is reading its instructions and appending their rows. -/
theorem runSequence_eq
    (header : Header)
    (constAddPc : ConstAddPc) :
    runSequence header constAddPc =
      (Registers.initial header.defaultIsStatement).rows header constAddPc <$>
        Instruction.sequence header := by
  funext program
  have ran := Machine.run_sequence header constAddPc (.start header program) rfl
  show _ = EStateM.map _ _ program
  cases outcome : Instruction.sequence header program with
  | ok instructions after =>
      obtain ⟨registers, finished⟩ := ran.1 instructions after outcome
      simp only [runSequence, finished, EStateM.map, outcome]
      rfl
  | error cause stopped =>
      obtain ⟨registers, failed⟩ := ran.2 cause stopped outcome
      simp only [runSequence, failed, EStateM.map, outcome]

variable
  {header : Header}
  {program : Cursor}
  (constAddPc : ConstAddPc)

/-- A sequence whose instructions can be read has the rows that they append. -/
theorem runSequence_of_sequence
    {instructions : List Instruction}
    {after : Cursor}
    (read : Instruction.sequence header program = .ok instructions after) :
    runSequence header constAddPc program =
      .ok ((Registers.initial header.defaultIsStatement).rows header constAddPc instructions)
        after := by
  rw [runSequence_eq]
  show EStateM.map _ _ program = _
  rw [EStateM.map, read]

/-- A sequence whose instructions cannot be read fails for that, at the same place. -/
theorem runSequence_of_sequence_error
    {cause : ReadError}
    {stopped : Cursor}
    (failed : Instruction.sequence header program = .error cause stopped) :
    runSequence header constAddPc program = .error cause stopped := by
  rw [runSequence_eq]
  show EStateM.map _ _ program = _
  rw [EStateM.map, failed]

end LineAtlas.LineProgram
