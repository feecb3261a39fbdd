import LineAtlas.LineProgram.Machine
import LineAtlas.Proofs.Checked.Reading
import LineAtlas.Proofs.Consumption
import LineAtlas.Proofs.LineProgram.InstructionFailures

namespace LineAtlas.Checked

/-!
# The line machine on a processor

Registers wrap, so changing them never traps. What could trap are the quotient and the
remainder by the line range, the opcode and the length of an extended instruction that
one is taken away from, and the position after an extended instruction. A line range
other than zero is all that has to be known of the header.

The end of an extended instruction is computed before its effect, and the program moves
there by offset; the machine without traps skips the surplus instead. Both end at the
same place.
-/

open LineProgram
  (Advance ExtendedOpcode Header Instruction Machine Registers Row StandardOpcode)

/-- A step of the line machine that can trap. -/
abbrev Execution :=
  EStateM Stop Machine

/-- The program of the machine fits. -/
def InProgram (machine : Machine) : Prop :=
  Fits machine.program

section

variable {α : Type}

/-- Reads from the program and leaves the registers alone. -/
def fetch (reading : Reading α) : Execution α := fun machine =>
  match reading machine.program with
  | .ok value after => .ok value { machine with program := after }
  | .error stop stopped => .error stop { machine with program := stopped }

end

/-- Changes the registers, and gives the row that the change appends. -/
def change (effect : Registers → Registers × Option Row) : Execution (Option Row) :=
  fun machine =>
    let changed := effect machine.registers
    .ok changed.2 { machine with registers := changed.1 }

/-- Changes the registers and appends no row. -/
def adjust (effect : Registers → Registers) : Execution (Option Row) :=
  change fun registers => (effect registers, none)

/-! ## Instructions -/

section

variable (header : Header)

/-- What a special opcode advances by; opcodes below the opcode base are not special. -/
def specialAdvance? (opcode : UInt8) : Except Stop (Option Advance) := do
  if opcode < header.opcodeBase then
    return none
  let adjusted := opcode - header.opcodeBase
  let count ← quotient adjusted header.lineRange
  let address ← product count.toUInt64 header.minimumInstructionLength.toUInt64
  let lines ← remainder adjusted header.lineRange
  let line ← signedSum header.lineBase.toInt64 (Int64.ofNat lines.toNat)
  return some { address := address, line := line }

/-- The address advance of the last special opcode, 255. -/
def constantAdvance : Except Stop UInt64 := do
  match ← specialAdvance? header 255 with
  | some advance => return advance.address
  | none => return 0

/-- How many operands an opcode other than 0 is declared to have. -/
def operandCount (opcode : UInt8) : Except Stop Nat := do
  let index ← difference opcode.toNat 1
  match header.operandCounts[index]? with
  | some count => return count.toNat
  | none => return 0

variable (constAddPc : ConstAddPc)

/-- Executes a standard instruction. -/
def executeStandard (opcode : StandardOpcode) : Execution (Option Row) :=
  match opcode with
  | .copy => change Registers.emit
  | .advancePc => do
      let count ← fetch Reading.unsigned
      adjust (·.advanceAddress (count * header.minimumInstructionLength.toUInt64))
  | .advanceLine => do
      let delta ← fetch Reading.signed
      adjust (·.advanceLine delta)
  | .setFile => do
      let file ← fetch Reading.unsigned
      adjust ({ · with file := file })
  | .setColumn => do
      let column ← fetch Reading.unsigned
      adjust ({ · with column := column })
  | .negateStatement =>
      adjust fun registers => { registers with isStatement := !registers.isStatement }
  | .setBasicBlock => adjust ({ · with basicBlock := true })
  | .constAddPc =>
      match constAddPc with
      | .ignore => return none
      | .standard => do
          let advance ← constantAdvance header
          adjust (·.advanceAddress advance)
  | .fixedAdvancePc => do
      let count ← fetch Reading.uint16
      adjust (·.advanceAddress count.toUInt64)

/-- The effect of an extended instruction with `size` operand bytes. -/
def executeOperand
    (opcode : ExtendedOpcode)
    (size : Nat) :
    Execution (Option Row) :=
  match opcode with
  | .endSequence => adjust ({ · with endSequence := true })
  | .setAddress =>
      if Instruction.isAddressSize size then do
        let address ← fetch (Reading.address size)
        adjust ({ · with address := address })
      else
        return none
  | .defineFile => return none
  | .unknown _ => return none

/-- The position after an extended instruction, which need not be one. -/
def stopOfExtended (here size : Nat) : Except Stop Nat :=
  if addressLimit ≤ here + size then
    throw (.failure (.overflow "extended opcode"))
  else
    return here + size

/-- Executes the extended instruction of the given opcode and size. -/
def executeCounted
    (opcode : ExtendedOpcode)
    (size : Nat) :
    Execution (Option Row) := do
  let here ← fetch Reading.position
  let stop ← stopOfExtended here size
  let row ← executeOperand opcode size
  fetch (Reading.seek stop)
  return row

/-- Executes an extended instruction. -/
def executeExtended : Execution (Option Row) := do
  let length ← fetch Reading.unsigned
  if length = 0 then
    return none
  let opcode ← fetch Reading.uint8
  let size ← difference length.toNat 1
  executeCounted (.ofByte opcode) size

/-- Executes an instruction that is neither extended nor standard. -/
def executeOther (opcode : UInt8) : Execution (Option Row) := do
  match ← specialAdvance? header opcode with
  | some advance =>
      change fun registers =>
        ((registers.advanceAddress advance.address).advanceLine advance.line).emit
  | none => do
      let count ← operandCount header opcode
      let _ ← fetch (Reading.times Reading.unsigned count)
      return none

/-- Executes the instruction whose opcode has been read. -/
def execute (opcode : UInt8) : Execution (Option Row) :=
  if opcode = 0 then
    executeExtended
  else
    match StandardOpcode.ofByte? opcode with
    | some standard => executeStandard header constAddPc standard
    | none => executeOther header opcode

/-- Reads an opcode and executes its instruction. -/
def step : Execution (Option Row) := do
  let opcode ← fetch Reading.uint8
  execute header constAddPc opcode

/-- Runs to the end of the sequence and gives its rows in order. -/
def run : Execution (List Row) := fun machine =>
  if machine.registers.endSequence then
    .ok [] machine
  else
    match step header constAddPc machine with
    | .error stop stopped => .error stop stopped
    | .ok row after =>
        if after.program.remaining < machine.program.remaining then
          match run after with
          | .error stop stopped => .error stop stopped
          | .ok later last => .ok (row.toList ++ later) last
        else
          .error (.trap .endless) after
termination_by machine => machine.program.remaining

/-- The rows of the sequence that starts at the cursor, and the cursor after it. -/
def runSequence : Reading (List Row) := fun program =>
  match run header constAddPc (.start header program) with
  | .ok rows machine => .ok rows machine.program
  | .error stop machine => .error stop machine.program

end

/-! ## Special opcodes -/

/-- The product of two bytes fits into 64 bits. -/
theorem product_toUInt64 (left right : UInt8) :
    product left.toUInt64 right.toUInt64 = .ok (left.toUInt64 * right.toUInt64) := by
  apply product_of_lt
  simp only [UInt8.toNat_toUInt64]
  calc
    left.toNat * right.toNat
    _ ≤ 2 ^ 8 * 2 ^ 8 :=
      Nat.mul_le_mul (Nat.le_of_lt left.toNat_lt) (Nat.le_of_lt right.toNat_lt)
    _ < UInt64.size := by decide

/-- The sum of a byte with a sign and one without fits into 64 bits. -/
theorem signedSum_toInt64
    (left : Int8)
    (right : UInt8) :
    signedSum left.toInt64 (Int64.ofNat right.toNat) =
      .ok (left.toInt64 + Int64.ofNat right.toNat) := by
  have least := left.le_toInt
  have greatest := left.toInt_lt
  have small := right.toNat_lt
  have sameNumber : (Int64.ofNat right.toNat).toInt = right.toNat :=
    Int64.toInt_ofNat_of_lt (Nat.lt_trans small (by decide))
  apply signedSum_of_le
  · rw [Int8.toInt_toInt64, sameNumber, Int64.toInt_minValue]
    omega
  · rw [Int8.toInt_toInt64, sameNumber, Int64.toInt_maxValue]
    omega

section

variable {header : Header}

/-- With a line range to divide by, all advances can be computed. -/
theorem specialAdvance?_eq
    (divides : header.lineRange ≠ 0)
    (opcode : UInt8) :
    specialAdvance? header opcode = .ok (header.specialAdvance? opcode) := by
  rw [specialAdvance?, Header.specialAdvance?]
  split
  · rfl
  · dsimp only
    rw [quotient_of_ne_zero divides, ok_bind, product_toUInt64, ok_bind,
      remainder_of_ne_zero divides, ok_bind, signedSum_toInt64]
    rfl

theorem constantAdvance_eq (divides : header.lineRange ≠ 0) :
    constantAdvance header = .ok header.constantAdvance := by
  rw [constantAdvance, specialAdvance?_eq divides, ok_bind, Header.constantAdvance]
  cases header.specialAdvance? 255 with
  | none =>
      rfl
  | some advance =>
      rfl

theorem operandCount_eq
    {opcode : UInt8}
    (named : opcode ≠ 0) :
    operandCount header opcode = .ok (header.operandCount opcode) := by
  have positive : 1 ≤ opcode.toNat := by
    rw [Nat.one_le_iff_ne_zero]
    simpa [← UInt8.toNat_inj] using named
  rw [operandCount, difference_of_le positive, ok_bind, Header.operandCount]
  cases header.operandCounts[opcode.toNat - 1]? with
  | none =>
      rfl
  | some count =>
      rfl

end

/-! ## Agreement -/

section

variable {α β : Type}

theorem agrees_fetch
    {reading : Reading α}
    {reader : Reader α}
    (agrees : Agrees Fits reading reader) :
    Agrees InProgram (fetch reading) (Machine.fetch reader) where
  same before inside := by
    rw [fetch, agrees.same before.program inside, Machine.fetch]
    cases reader before.program <;> rfl
  keeps before value after inside success :=
    agrees.keeps _ _ _ inside (Machine.program_of_fetch success)

theorem fetch_bind
    (first : Reader α)
    (next : α → Reader β) :
    Machine.fetch (first >>= next) =
      Machine.fetch first >>= fun found => Machine.fetch (next found) := by
  funext machine
  cases outcome : first machine.program with
  | ok found between =>
      have fetched : Machine.fetch first machine = .ok found { machine with program := between } := by
        rw [Machine.fetch, outcome]
      rw [step_of_ok fetched, Machine.fetch, step_of_ok outcome]
      rfl
  | error cause stopped =>
      have fetched :
          Machine.fetch first machine = .error cause { machine with program := stopped } := by
        rw [Machine.fetch, outcome]
      rw [step_of_error fetched, Machine.fetch, step_of_error outcome]

end

/-- What follows once an instruction has been fetched. -/
def settle
    (header : Header)
    (constAddPc : ConstAddPc)
    (fetched : LineProgram.Fetched) :
    LineProgram.Execution (Option Row) := do
  let row ← Machine.apply header constAddPc fetched.instruction
  Machine.fetch (Reader.skip fetched.surplus)
  return row

section

variable
  {header : Header}
  {constAddPc : ConstAddPc}

theorem execute_eq_settle (opcode : UInt8) :
    Machine.execute header constAddPc opcode =
      Machine.fetch (Instruction.read header opcode) >>= settle header constAddPc :=
  rfl

theorem keeps_fetch
    {α : Type}
    {reader : Reader α}
    (isLocal : reader.Local)
    {before after : Machine}
    {value : α}
    (inside : InProgram before)
    (success : Machine.fetch reader before = .ok value after) :
    InProgram after :=
  Reading.fits_of_local isLocal inside (Machine.program_of_fetch success)

theorem keeps_settle
    {fetched : LineProgram.Fetched}
    {before after : Machine}
    {row : Option Row}
    (inside : InProgram before)
    (success : settle header constAddPc fetched before = .ok row after) :
    InProgram after := by
  obtain ⟨appended, applied, applyStep, skipAndReturn⟩ := bind_eq_ok_iff.mp success
  obtain ⟨_, skipped, skipStep, returned⟩ := bind_eq_ok_iff.mp skipAndReturn
  have stillInside : InProgram applied := by
    cases applyStep
    exact inside
  cases returned
  exact keeps_fetch (Reader.local_skip fetched.surplus) stillInside skipStep

/-- A move to the place where the cursor is changes nothing. -/
theorem seek_here
    {cursor : Cursor}
    (fits : Fits cursor) :
    Reader.seek cursor.position cursor = .ok () cursor :=
  if_neg (Nat.not_lt.mpr fits.position_le)

section

variable
  (header : Header)
  (constAddPc : ConstAddPc)
  (instruction : Instruction)
  {before : Machine}

/-- Where the end of an instruction is a position, the program moves there by offset. -/
theorem settle_of_room
    {surplus : Nat}
    (room : before.program.position + surplus < addressLimit) :
    settle header constAddPc { instruction := instruction, surplus := surplus } before =
      (Machine.fetch (Reader.seek (before.program.position + surplus)) >>= fun _ =>
          pure (before.registers.apply header constAddPc instruction).2)
        { before with
          registers := (before.registers.apply header constAddPc instruction).1 } := by
  have applied :
      Machine.apply header constAddPc instruction before =
        .ok (before.registers.apply header constAddPc instruction).2
          { before with
            registers := (before.registers.apply header constAddPc instruction).1 } :=
    rfl
  rw [settle, step_of_ok applied]
  apply step_congr
  rw [Machine.fetch, Machine.fetch, Reader.skip, if_neg (Nat.not_le.mpr room)]

/-- An instruction is applied, and no bytes are skipped after it. -/
theorem agrees_settle :
    Agrees InProgram (change (·.apply header constAddPc instruction))
      (settle header constAddPc { instruction := instruction, surplus := 0 }) where
  same before inside := by
    have room : before.program.position + 0 < addressLimit :=
      Nat.lt_of_le_of_lt inside.position_le inside.placed.size_lt
    have stays :
        Machine.fetch (Reader.seek before.program.position)
            { before with
              registers := (before.registers.apply header constAddPc instruction).1 } =
          .ok ()
            { before with
              registers := (before.registers.apply header constAddPc instruction).1 } :=
      Machine.fetch_of_ok (seek_here inside)
    rw [settle_of_room header constAddPc instruction room, Nat.add_zero, step_of_ok stays]
    rfl
  keeps _ _ _ := keeps_settle

/-- An instruction is applied, and the program moves past its operand. -/
theorem same_settle
    {size : Nat}
    (inside : InProgram before)
    (room : before.program.position + size < addressLimit) :
    (change (·.apply header constAddPc instruction) >>= fun row =>
          fetch (Reading.seek (before.program.position + size)) >>= fun _ => pure row) before =
      outcome
        (settle header constAddPc { instruction := instruction, surplus := size } before) := by
  have seeks :=
    (agrees_fetch (Reading.agrees_seek (before.program.position + size))).bind fun _ =>
      agrees_pure (before.registers.apply header constAddPc instruction).2
  rw [settle_of_room header constAddPc instruction room]
  exact seeks.same _ inside

end

/-! ## Extended instructions -/

/-- An address is read, and the program is right after it then. -/
theorem same_setAddress
    {size : Nat}
    {before : Machine}
    (inside : InProgram before) :
    (fetch (Reading.address size) >>= fun address =>
          adjust ({ · with address := address }) >>= fun row =>
            fetch (Reading.seek (before.program.position + size)) >>= fun _ => pure row) before =
      outcome
        ((Machine.fetch (Reader.address size) >>= fun address =>
            settle header constAddPc { instruction := .setAddress address, surplus := 0 })
          before) := by
  have reads := agrees_fetch (Reading.agrees_address size)
  have sameRead := reads.same before inside
  cases read : Machine.fetch (Reader.address size) before with
  | error cause stopped =>
      rw [read] at sameRead
      rw [step_of_error sameRead, step_of_error read]
      rfl
  | ok address after =>
      rw [read] at sameRead
      have stillInside := reads.keeps _ _ _ inside read
      obtain ⟨used, seen, moved⟩ := Reader.advance_of_consuming (Machine.program_of_fetch read)
      obtain ⟨number, -, sameNumber⟩ := Reader.map_eq_ok_iff.mp seen
      cases sameNumber
      have there : before.program.position + size = after.program.position + 0 := by
        rw [moved]
        rfl
      have room : after.program.position + 0 < addressLimit :=
        Nat.lt_of_le_of_lt stillInside.position_le stillInside.placed.size_lt
      rw [step_of_ok sameRead, step_of_ok read, there]
      exact same_settle header constAddPc (.setAddress address) stillInside room

/-- Whatever the operand is, both machines end right after it. -/
theorem same_executeOperand
    (opcode : ExtendedOpcode)
    {size : Nat}
    {before : Machine}
    (inside : InProgram before)
    (room : before.program.position + size < addressLimit) :
    (executeOperand opcode size >>= fun row =>
          fetch (Reading.seek (before.program.position + size)) >>= fun _ => pure row) before =
      outcome
        ((Machine.fetch (Instruction.readExtendedOperand opcode size) >>=
            settle header constAddPc) before) := by
  cases opcode with
  | endSequence =>
      exact same_settle header constAddPc .endSequence inside room
  | setAddress =>
      rw [executeOperand, Instruction.readExtendedOperand]
      by_cases usual : Instruction.isAddressSize size = true
      · rw [if_pos usual, if_pos usual, fetch_bind, bind_assoc, bind_assoc]
        exact same_setAddress inside
      · rw [if_neg usual, if_neg usual]
        exact same_settle header constAddPc .ignored inside room
  | defineFile =>
      exact same_settle header constAddPc .ignored inside room
  | unknown byte =>
      exact same_settle header constAddPc .ignored inside room

theorem agrees_executeCounted
    (opcode : ExtendedOpcode)
    (size : Nat) :
    Agrees InProgram (executeCounted opcode size)
      (Machine.fetch
          (Instruction.requireAhead size >>= fun _ =>
            Instruction.readExtendedOperand opcode size) >>=
        settle header constAddPc) where
  same before inside := by
    have asked : fetch Reading.position before = .ok before.program.position before := rfl
    rw [executeCounted, step_of_ok asked, fetch_bind, bind_assoc, stopOfExtended]
    by_cases noRoom : addressLimit ≤ before.program.position + size
    · have fails :
          Machine.fetch (Instruction.requireAhead size) before =
            .error (.overflow "extended opcode") before := by
        rw [Machine.fetch, Instruction.requireAhead_apply, if_pos noRoom]
      rw [if_pos noRoom, step_of_error fails]
      rfl
    · have passes : Machine.fetch (Instruction.requireAhead size) before = .ok () before := by
        rw [Machine.fetch, Instruction.requireAhead_apply, if_neg noRoom]
      rw [if_neg noRoom, step_of_ok passes]
      exact same_executeOperand opcode inside (Nat.not_le.mp noRoom)
  keeps before row after inside success := by
    rw [fetch_bind, bind_assoc] at success
    obtain ⟨_, ahead, aheadStep, rest⟩ := bind_eq_ok_iff.mp success
    obtain ⟨fetched, read, readStep, settled⟩ := bind_eq_ok_iff.mp rest
    have sameProgram := Instruction.unmoved_of_requireAhead (Machine.program_of_fetch aheadStep)
    have aheadInside : InProgram ahead := by
      rwa [InProgram, sameProgram]
    exact keeps_settle
      (keeps_fetch (Instruction.local_readExtendedOperand opcode size) aheadInside readStep) settled

theorem agrees_executeExtended :
    Agrees InProgram executeExtended
      (Machine.fetch Instruction.readExtended >>= settle header constAddPc) := by
  rw [executeExtended, Instruction.readExtended, fetch_bind, bind_assoc]
  refine (agrees_fetch Reading.agrees_unsigned).bind fun length => ?_
  by_cases empty : length = 0
  · rw [if_pos empty, if_pos empty]
    exact agrees_settle header constAddPc .ignored
  · have positive : 1 ≤ length.toNat := by
      rw [Nat.one_le_iff_ne_zero]
      simpa [← UInt64.toNat_inj] using empty
    rw [if_neg empty, if_neg empty, fetch_bind, bind_assoc]
    refine (agrees_fetch Reading.agrees_uint8).bind fun opcode => ?_
    rw [difference_of_le positive, lift_ok_bind]
    exact agrees_executeCounted _ _

/-! ## Standard instructions -/

theorem agrees_executeStandard
    (divides : header.lineRange ≠ 0)
    (opcode : StandardOpcode) :
    Agrees InProgram (executeStandard header constAddPc opcode)
      (Machine.fetch (Instruction.readStandard opcode) >>= fun instruction =>
        settle header constAddPc { instruction := instruction, surplus := 0 }) := by
  cases opcode with
  | copy =>
      exact agrees_settle header constAddPc .copy
  | advancePc =>
      rw [executeStandard, Instruction.readStandard, fetch_bind, bind_assoc]
      exact (agrees_fetch Reading.agrees_unsigned).bind fun count =>
        agrees_settle header constAddPc (.advancePc count)
  | advanceLine =>
      rw [executeStandard, Instruction.readStandard, fetch_bind, bind_assoc]
      exact (agrees_fetch Reading.agrees_signed).bind fun delta =>
        agrees_settle header constAddPc (.advanceLine delta)
  | setFile =>
      rw [executeStandard, Instruction.readStandard, fetch_bind, bind_assoc]
      exact (agrees_fetch Reading.agrees_unsigned).bind fun file =>
        agrees_settle header constAddPc (.setFile file)
  | setColumn =>
      rw [executeStandard, Instruction.readStandard, fetch_bind, bind_assoc]
      exact (agrees_fetch Reading.agrees_unsigned).bind fun column =>
        agrees_settle header constAddPc (.setColumn column)
  | negateStatement =>
      exact agrees_settle header constAddPc .negateStatement
  | setBasicBlock =>
      exact agrees_settle header constAddPc .setBasicBlock
  | constAddPc =>
      cases constAddPc with
      | ignore =>
          exact agrees_settle header .ignore .constAddPc
      | standard =>
          rw [executeStandard, constantAdvance_eq divides, lift_ok_bind]
          exact agrees_settle header .standard .constAddPc
  | fixedAdvancePc =>
      rw [executeStandard, Instruction.readStandard, fetch_bind, bind_assoc]
      exact (agrees_fetch Reading.agrees_uint16).bind fun count =>
        agrees_settle header constAddPc (.fixedAdvancePc count)

/-! ## Runs -/

theorem agrees_execute
    (divides : header.lineRange ≠ 0)
    (opcode : UInt8) :
    Agrees InProgram (execute header constAddPc opcode)
      (Machine.execute header constAddPc opcode) := by
  rw [execute_eq_settle, execute, Instruction.read]
  by_cases extended : opcode = 0
  · rw [if_pos extended, if_pos extended]
    exact agrees_executeExtended
  · rw [if_neg extended, if_neg extended]
    cases named : StandardOpcode.ofByte? opcode with
    | some standard =>
        dsimp only
        rw [fetch_bind, bind_assoc]
        exact agrees_executeStandard divides standard
    | none =>
        dsimp only
        rw [executeOther, specialAdvance?_eq divides, lift_ok_bind]
        cases header.specialAdvance? opcode with
        | some advance =>
            exact agrees_settle header constAddPc (.special advance)
        | none =>
            dsimp only
            rw [operandCount_eq extended, lift_ok_bind, fetch_bind, bind_assoc]
            refine (agrees_fetch (Reading.agrees_times Reading.agrees_unsigned _)).bind fun _ => ?_
            exact agrees_settle header constAddPc .ignored

theorem agrees_step (divides : header.lineRange ≠ 0) :
    Agrees InProgram (step header constAddPc) (Machine.step header constAddPc) :=
  (agrees_fetch Reading.agrees_uint8).bind fun opcode => agrees_execute divides opcode

theorem agrees_run (divides : header.lineRange ≠ 0) :
    Agrees InProgram (run header constAddPc) (Machine.run header constAddPc) where
  same before inside := by
    fun_induction Machine.run header constAddPc before with
    | case1 machine ended =>
        rw [run, if_pos ended]
        rfl
    | case2 machine goesOn cause stopped failed =>
        rw [run, if_neg goesOn, (agrees_step divides).same machine inside, failed]
        rfl
    | case3 machine goesOn row after stepped cause stopped laterFails inductionHypothesis =>
        have laterInside := (agrees_step divides).keeps _ _ _ inside stepped
        have shorter := Machine.remaining_lt_of_step stepped
        rw [run, if_neg goesOn, (agrees_step divides).same machine inside, stepped]
        simp only [outcome, if_pos shorter, inductionHypothesis laterInside, laterFails]
    | case4 machine goesOn row after stepped later last laterRan inductionHypothesis =>
        have laterInside := (agrees_step divides).keeps _ _ _ inside stepped
        have shorter := Machine.remaining_lt_of_step stepped
        rw [run, if_neg goesOn, (agrees_step divides).same machine inside, stepped]
        simp only [outcome, if_pos shorter, inductionHypothesis laterInside, laterRan]
  keeps before value after inside success := by
    fun_induction Machine.run header constAddPc before generalizing value after with
    | case1 machine ended =>
        cases success
        exact inside
    | case2 machine goesOn cause stopped failed =>
        cases success
    | case3 machine goesOn row last stepped cause stopped laterFails inductionHypothesis =>
        cases success
    | case4 machine goesOn row between stepped later last laterRan inductionHypothesis =>
        cases success
        exact inductionHypothesis _ _ ((agrees_step divides).keeps _ _ _ inside stepped) laterRan

theorem agrees_runSequence (divides : header.lineRange ≠ 0) :
    Agrees Fits (runSequence header constAddPc)
      (LineProgram.runSequence header constAddPc) where
  same before fits := by
    rw [runSequence, (agrees_run divides).same (.start header before) fits,
      LineProgram.runSequence]
    cases Machine.run header constAddPc (.start header before) <;> rfl
  keeps before value after fits success := by
    unfold LineProgram.runSequence at success
    cases ran : Machine.run header constAddPc (.start header before) with
    | error cause stopped =>
        rw [ran] at success
        cases success
    | ok rows last =>
        rw [ran] at success
        cases success
        exact (agrees_run divides).keeps (.start header before) _ _ fits ran

end

end LineAtlas.Checked
