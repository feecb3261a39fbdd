import LineAtlas.Proofs.Cursors.Requests
import LineAtlas.Proofs.LineProgram.InstructionList

namespace LineAtlas.LineProgram

/-!
# Traces and the runs that they list

A trace lists what every single instruction did, while a run gives the rows alone. Both
are the same execution: the listed instructions follow each other, their rows are those of
the run, and the run ends or fails where the list does. So `runSequence` can be read off
the trace from the start of its sequence.
-/

namespace Machine

/-- The row that the instruction appended, if it did. -/
def Executed.row? (executed : Executed) : Option Row :=
  match executed.outcome with
  | .ok row => row
  | .error _ => none

/-- Why the instruction failed, if it did. -/
def Executed.failure? (executed : Executed) : Option ReadError :=
  match executed.outcome with
  | .ok _ => none
  | .error cause => some cause

namespace Trace

/-- The rows that the listed instructions appended. -/
def rows (trace : Trace) : List Row :=
  trace.executed.flatMap (·.row?.toList)

/-- Why an instruction failed, or why its opcode could not be read. -/
def failure? (trace : Trace) : Option ReadError :=
  (trace.executed.findSome? (·.failure?)).or trace.missingOpcode

/-- The machine that the last listed instruction left. -/
def final
    (trace : Trace)
    (start : Machine) :
    Machine :=
  (trace.executed.getLast?.map (·.machine)).getD start

/-- What a run from the start gives according to the trace. -/
def outcome
    (trace : Trace)
    (start : Machine) :
    EStateM.Result ReadError Machine (List Row) :=
  match trace.failure? with
  | none => .ok trace.rows (trace.final start)
  | some cause => .error cause (trace.final start)

/-- What reading the sequence of the start gives according to the trace. -/
def reading
    (trace : Trace)
    (start : Machine) :
    EStateM.Result ReadError Cursor (List Row) :=
  match trace.failure? with
  | none => .ok trace.rows (trace.final start).program
  | some cause => .error cause (trace.final start).program

end Trace

/--
The instructions are executed one after the other, each from where the one before it left
the machine, and only the last one may fail.
-/
inductive Executes
    (header : Header)
    (constAddPc : ConstAddPc) :
    Machine → List Executed → Prop where
  | nil
      {machine : Machine} :
      Executes header constAddPc machine []
  | fails
      {machine fetched stopped : Machine}
      {opcode : UInt8}
      {cause : ReadError}
      (opcodeRead : fetch Reader.uint8 machine = .ok opcode fetched)
      (failed : execute header constAddPc opcode fetched = .error cause stopped) :
      Executes header constAddPc machine
        [{ opcode := opcode, machine := stopped, outcome := .error cause }]
  | cons
      {machine fetched after : Machine}
      {opcode : UInt8}
      {row : Option Row}
      {later : List Executed}
      (opcodeRead : fetch Reader.uint8 machine = .ok opcode fetched)
      (executed : execute header constAddPc opcode fetched = .ok row after)
      (laterExecutes : Executes header constAddPc after later) :
      Executes header constAddPc machine
        ({ opcode := opcode, machine := after, outcome := .ok row } :: later)

/-- The trace lists the instructions of the run from the machine, and has its outcome. -/
structure Trace.IsOfRun
    (header : Header)
    (constAddPc : ConstAddPc)
    (machine : Machine)
    (trace : Trace) :
    Prop where
  executes : Executes header constAddPc machine trace.executed
  sameOutcome : run header constAddPc machine = trace.outcome machine

variable
  {header : Header}
  {constAddPc : ConstAddPc}
  {machine : Machine}

/-- An opcode that cannot be read leaves the machine as it was. -/
theorem eq_of_fetch_uint8_error
    {cause : ReadError}
    {stopped : Machine}
    (failed : fetch Reader.uint8 machine = .error cause stopped) :
    stopped = machine := by
  cases outcome : Reader.uint8 machine.program with
  | ok opcode after =>
      rw [fetch_of_ok outcome] at failed
      cases failed
  | error other left =>
      rw [fetch_of_error outcome, Reader.stays_consuming _ _ _ _ outcome] at failed
      cases failed
      rfl

/-- One more instruction at the front of a trace adds its row. -/
theorem Trace.outcome_cons
    (later : Trace)
    (opcode : UInt8)
    (row : Option Row)
    (after start : Machine) :
    Trace.outcome
        { later with
          executed := { opcode := opcode, machine := after, outcome := .ok row } :: later.executed }
        start =
      match later.outcome after with
      | .error cause stopped => .error cause stopped
      | .ok rows last => .ok (row.toList ++ rows) last := by
  have sameFinal :
      Trace.final
          { later with
            executed :=
              { opcode := opcode, machine := after, outcome := .ok row } :: later.executed }
          start =
        later.final after := by
    rw [final, final, List.getLast?_cons]
    cases later.executed.getLast? <;> rfl
  have sameFailure :
      Trace.failure?
          { later with
            executed :=
              { opcode := opcode, machine := after, outcome := .ok row } :: later.executed } =
        later.failure? := rfl
  rw [outcome, sameFinal, sameFailure, outcome]
  cases later.failure? <;> rfl

variable (header constAddPc machine)

/-- A trace is one of the run from the same machine. -/
theorem isOfRun_trace :
    (trace header constAddPc machine).IsOfRun header constAddPc machine := by
  fun_induction trace header constAddPc machine with
  | case1 machine ended =>
      exact ⟨.nil, run_of_ended ended⟩
  | case2 machine inside cause stopped missing =>
      obtain rfl := eq_of_fetch_uint8_error missing
      have stepFails : step header constAddPc stopped = .error cause stopped :=
        bind_eq_error_iff.mpr (.inl missing)
      exact ⟨.nil, run_of_step_error (eq_false_of_ne_true inside) stepFails⟩
  | case3 machine inside opcode fetched opcodeRead cause stopped failed =>
      have stepFails : step header constAddPc machine = .error cause stopped :=
        bind_eq_error_iff.mpr (.inr ⟨opcode, fetched, opcodeRead, failed⟩)
      exact ⟨.fails opcodeRead failed, run_of_step_error (eq_false_of_ne_true inside) stepFails⟩
  | case4 machine inside opcode fetched opcodeRead row after executed later inductionHypothesis =>
      have stepped : step header constAddPc machine = .ok row after :=
        bind_eq_ok_iff.mpr ⟨opcode, fetched, opcodeRead, executed⟩
      refine ⟨.cons opcodeRead executed inductionHypothesis.executes, ?_⟩
      rw [run_of_step (eq_false_of_ne_true inside) stepped, inductionHypothesis.sameOutcome]
      exact (Trace.outcome_cons later opcode row after machine).symm

end Machine

/-- A sequence has the rows of its trace, or fails for the same cause, and stops where it does. -/
theorem runSequence_eq_trace
    (header : Header)
    (constAddPc : ConstAddPc)
    (program : Cursor) :
    runSequence header constAddPc program =
      (Machine.trace header constAddPc (.start header program)).reading
        (.start header program) := by
  have sameOutcome :=
    (Machine.isOfRun_trace header constAddPc (.start header program)).sameOutcome
  rw [runSequence, sameOutcome, Machine.Trace.outcome, Machine.Trace.reading]
  cases (Machine.trace header constAddPc (.start header program)).failure? <;> rfl

end LineAtlas.LineProgram
