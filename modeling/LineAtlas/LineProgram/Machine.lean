import LineAtlas.LineProgram.Registers

namespace LineAtlas.LineProgram

/-!
# The line machine

A machine is a set of registers and a cursor into the program. Executing an
instruction has three phases: its operands are read, its effect is applied, and
its surplus bytes are skipped. A failure leaves the machine as the last
finished phase left it.

`runSequence` collects the rows up to the end of a sequence, and `trace` lists
what every single instruction did. Both end because every instruction takes at
least its opcode.
-/

/-- Registers and a place in the program. -/
structure Machine where
  registers : Registers
  program : Cursor
  deriving Repr, DecidableEq

/-- A step of the machine: it may fail, and it changes the machine. -/
abbrev Execution :=
  EStateM ReadError Machine

namespace Machine

/-- The machine at the start of a sequence. -/
def start
    (header : Header)
    (program : Cursor) :
    Machine where
  registers := .initial header.defaultIsStatement
  program := program

/-- Reads from the program and leaves the registers alone. -/
def fetch
    {α : Type}
    (reader : Reader α) :
    Execution α := fun machine =>
  match reader machine.program with
  | .ok value after => .ok value { machine with program := after }
  | .error cause stopped => .error cause { machine with program := stopped }

/-- Applies the effect of an instruction and gives the row it appends. -/
def apply
    (header : Header)
    (constAddPc : ConstAddPc)
    (instruction : Instruction) :
    Execution (Option Row) := fun machine =>
  let effect := machine.registers.apply header constAddPc instruction
  .ok effect.2 { machine with registers := effect.1 }

/-- Executes the instruction whose opcode has been read. -/
def execute
    (header : Header)
    (constAddPc : ConstAddPc)
    (opcode : UInt8) :
    Execution (Option Row) := do
  let fetched ← fetch (Instruction.read header opcode)
  let row ← apply header constAddPc fetched.instruction
  fetch (Reader.skip fetched.surplus)
  return row

/-- Reads an opcode and executes its instruction. -/
def step
    (header : Header)
    (constAddPc : ConstAddPc) :
    Execution (Option Row) := do
  let opcode ← fetch Reader.uint8
  execute header constAddPc opcode

/-! ## Steps move the program forward -/

/-- Reading from the program succeeds when the reader does, with its cursor. -/
theorem program_of_fetch
    {α : Type}
    {reader : Reader α}
    {before after : Machine}
    {value : α}
    (success : fetch reader before = .ok value after) :
    reader before.program = .ok value after.program := by
  unfold fetch at success
  cases outcome : reader before.program with
  | ok found between =>
      rw [outcome] at success
      cases success
      rfl
  | error cause stopped =>
      rw [outcome] at success
      cases success

/-- Executing an instruction keeps the program's bytes and does not move back. -/
theorem program_of_execute
    {header : Header}
    {constAddPc : ConstAddPc}
    {opcode : UInt8}
    {before after : Machine}
    {row : Option Row}
    (success : execute header constAddPc opcode before = .ok row after) :
    after.program.data = before.program.data ∧
      after.program.order = before.program.order ∧
      before.program.position ≤ after.program.position := by
  obtain ⟨fetched, read, readStep, applyAndSkip⟩ := bind_eq_ok_iff.mp success
  obtain ⟨appended, applied, applyStep, skipAndReturn⟩ := bind_eq_ok_iff.mp applyAndSkip
  obtain ⟨_, skipped, skipStep, returned⟩ := bind_eq_ok_iff.mp skipAndReturn
  have near :=
    Instruction.forward_read header opcode _ _ _ (program_of_fetch readStep)
  have unmoved : applied.program = read.program := by
    cases applyStep
    rfl
  have far := Reader.forward_skip fetched.surplus _ _ _ (program_of_fetch skipStep)
  cases returned
  rw [unmoved] at far
  exact ⟨far.1.trans near.1, far.2.1.trans near.2.1, Nat.le_trans near.2.2 far.2.2⟩

theorem remaining_lt_of_fetch_uint8
    {before after : Machine}
    {opcode : UInt8}
    (success : fetch Reader.uint8 before = .ok opcode after) :
    after.program.remaining < before.program.remaining :=
  Reader.consuming_uint8.remaining_lt (program_of_fetch success)

theorem remaining_le_of_execute
    {header : Header}
    {constAddPc : ConstAddPc}
    {opcode : UInt8}
    {before after : Machine}
    {row : Option Row}
    (success : execute header constAddPc opcode before = .ok row after) :
    after.program.remaining ≤ before.program.remaining := by
  have moved := program_of_execute success
  simp only [Cursor.remaining, Cursor.size, moved.1]
  omega

theorem remaining_lt_of_step
    {header : Header}
    {constAddPc : ConstAddPc}
    {before after : Machine}
    {row : Option Row}
    (success : step header constAddPc before = .ok row after) :
    after.program.remaining < before.program.remaining := by
  obtain ⟨opcode, fetched, opcodeRead, executed⟩ := bind_eq_ok_iff.mp success
  exact Nat.lt_of_le_of_lt
    (remaining_le_of_execute executed)
    (remaining_lt_of_fetch_uint8 opcodeRead)

/-! ## Whole sequences -/

/-- Runs to the end of the sequence and gives its rows in order. -/
def run
    (header : Header)
    (constAddPc : ConstAddPc) :
    Execution (List Row) := fun machine =>
  if machine.registers.endSequence then
    .ok [] machine
  else
    match _outcome : step header constAddPc machine with
    | .error cause stopped => .error cause stopped
    | .ok row after =>
        match run header constAddPc after with
        | .error cause stopped => .error cause stopped
        | .ok later last => .ok (row.toList ++ later) last
termination_by machine => machine.program.remaining
decreasing_by exact remaining_lt_of_step _outcome

/-- One executed instruction: its opcode, the machine after it, and what it gave. -/
structure Executed where
  opcode : UInt8
  machine : Machine
  outcome : Except ReadError (Option Row)

/-- The instructions of a run, and why the last opcode could not be read, if it could not. -/
structure Trace where
  executed : List Executed
  missingOpcode : Option ReadError

/--
Lists every instruction up to the end of the sequence or the first failure.

An instruction that fails is the last one listed.
-/
def trace
    (header : Header)
    (constAddPc : ConstAddPc)
    (machine : Machine) :
    Trace :=
  if machine.registers.endSequence then
    { executed := [], missingOpcode := none }
  else
    match _opcodeRead : fetch Reader.uint8 machine with
    | .error cause _ => { executed := [], missingOpcode := some cause }
    | .ok opcode fetched =>
        match _outcome : execute header constAddPc opcode fetched with
        | .error cause stopped =>
            { executed := [{ opcode := opcode, machine := stopped, outcome := .error cause }]
              missingOpcode := none }
        | .ok row after =>
            let later := trace header constAddPc after
            { later with
              executed :=
                { opcode := opcode, machine := after, outcome := .ok row } :: later.executed }
termination_by machine.program.remaining
decreasing_by
  exact Nat.lt_of_le_of_lt
    (remaining_le_of_execute _outcome)
    (remaining_lt_of_fetch_uint8 _opcodeRead)

/-- A run that succeeds from a machine inside a sequence takes a byte of the program. -/
theorem remaining_lt_of_run
    {header : Header}
    {constAddPc : ConstAddPc}
    {before after : Machine}
    {rows : List Row}
    (inside : before.registers.endSequence = false)
    (success : run header constAddPc before = .ok rows after) :
    after.program.remaining < before.program.remaining := by
  fun_induction run header constAddPc before generalizing rows after with
  | case1 machine ended =>
      simp [inside] at ended
  | case2 machine _ cause stopped stepped =>
      cases success
  | case3 machine _ row next stepped cause stopped later =>
      cases success
  | case4 machine _ row next stepped later last ran inductionHypothesis =>
      have near := remaining_lt_of_step stepped
      cases success
      cases finished : next.registers.endSequence with
      | true =>
          unfold run at ran
          simp only [finished, if_true] at ran
          cases ran
          exact near
      | false =>
          exact Nat.lt_trans (inductionHypothesis finished ran) near

end Machine

/--
The rows of the sequence that starts at the cursor, and the cursor after it.
-/
def runSequence
    (header : Header)
    (constAddPc : ConstAddPc) :
    Reader (List Row) := fun program =>
  match Machine.run header constAddPc (.start header program) with
  | .ok rows machine => .ok rows machine.program
  | .error cause machine => .error cause machine.program

/-- A sequence that can be run takes at least one byte. -/
theorem remaining_lt_of_runSequence
    {header : Header}
    {constAddPc : ConstAddPc}
    {before after : Cursor}
    {rows : List Row}
    (success : runSequence header constAddPc before = .ok rows after) :
    after.remaining < before.remaining := by
  unfold runSequence at success
  cases outcome : Machine.run header constAddPc (.start header before) with
  | ok found machine =>
      rw [outcome] at success
      cases success
      exact Machine.remaining_lt_of_run rfl outcome
  | error cause machine =>
      rw [outcome] at success
      cases success

end LineAtlas.LineProgram
