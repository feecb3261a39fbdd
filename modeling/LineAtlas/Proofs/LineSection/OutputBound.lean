import LineAtlas.Proofs.LineProgram.Progress
import LineAtlas.Proofs.LineSection.Tiling

namespace LineAtlas

/-!
# What a section costs and what it gives

All loops of the decoder run over bytes that they take: instructions, sequences and
units move on with every turn, so none of the loops can go on for ever. And every
output is paid for with bytes. A unit takes four bytes for its length field, which pay
for its only warning; a sequence takes three bytes more than it has rows, which pay
for its table. So rows and three times the tables fit into the section, and so do,
but for a cut length field, four times the warnings.
-/

/-- A program cursor after the sequence at another one. -/
def Sequences.Follows
    (header : LineProgram.Header)
    (constAddPc : ConstAddPc)
    (after before : Cursor) :
    Prop :=
  ∃ rows, LineProgram.runSequence header constAddPc before = .ok rows after

/-- A section cursor after the unit at another one. -/
def Framing.Follows (after before : Cursor) : Prop :=
  ∃ claimed body,
    Reader.uint32 before = .ok claimed body ∧
      claimed ≠ wideMark ∧
      after = body.advance (frameAt before.position claimed body).body.length

/-- A machine after the step of another one. -/
def LineProgram.Machine.Follows
    (header : LineProgram.Header)
    (constAddPc : ConstAddPc)
    (after before : LineProgram.Machine) :
    Prop :=
  ∃ row, step header constAddPc before = .ok row after

/-! ## Loops end -/

theorem LineProgram.Machine.wellFounded_follows
    (header : LineProgram.Header)
    (constAddPc : ConstAddPc) :
    WellFounded (Follows header constAddPc) := by
  refine Subrelation.wf ?_ (measure fun machine => machine.program.remaining).wf
  rintro after before ⟨row, success⟩
  exact remaining_lt_of_step success

theorem Sequences.wellFounded_follows
    (header : LineProgram.Header)
    (constAddPc : ConstAddPc) :
    WellFounded (Follows header constAddPc) := by
  refine Subrelation.wf ?_ (measure Cursor.remaining).wf
  rintro after before ⟨rows, success⟩
  exact LineProgram.remaining_lt_of_runSequence success

theorem Framing.wellFounded_follows : WellFounded Follows := by
  refine Subrelation.wf ?_ (measure Cursor.remaining).wf
  rintro after before ⟨claimed, body, success, -, rfl⟩
  exact Nat.lt_of_le_of_lt
    (remaining_advance_le _ _)
    (Reader.consuming_uint32.remaining_lt success)

/-! ## Sequences pay for tables -/

/-- Finished sequences take a byte for each row, and three more. -/
theorem Sequences.cost_run
    (header : LineProgram.Header)
    (constAddPc : ConstAddPc)
    (program : Cursor) :
    (run header constAddPc program).finished.flatten.length +
        3 * (run header constAddPc program).finished.length ≤
      program.remaining := by
  fun_induction run header constAddPc program with
  | case1 program ended =>
      exact Nat.zero_le _
  | case2 program goesOn cause stopped failed =>
      exact Nat.zero_le _
  | case3 program goesOn rows after ran later inductionHypothesis =>
      have inside : program.position ≤ program.size := by
        simp only [Cursor.atEnd, decide_eq_true_eq] at goesOn
        omega
      obtain ⟨sameSize, taken, there⟩ := LineProgram.takes_runSequence inside ran
      simp only [Cursor.remaining] at inductionHypothesis ⊢
      simp only [List.flatten_cons, List.length_append, List.length_cons, later]
      omega

namespace LineSection

/-- The number of rows in all tables. -/
def rowCount (decoded : LineSection) : Nat :=
  (decoded.tables.flatMap (·.rows)).length

/-- A unit's sequences give no more than the bytes of the unit pay for. -/
theorem cost_ofFrame
    (order : ByteOrder)
    (constAddPc : ConstAddPc)
    {frame : Frame}
    (fits : frame.body.length < addressLimit) :
    (ofFrame order constAddPc frame).rowCount +
          3 * (ofFrame order constAddPc frame).tables.length ≤
        frame.body.length ∧
      (ofFrame order constAddPc frame).warnings.length ≤ 1 := by
  rw [ofFrame]
  split
  · exact ⟨Nat.zero_le _, Nat.le_refl _⟩
  · next prologue program read =>
      obtain ⟨-, rfl⟩ := (Prologue.read_eq_ok_iff fits).mp read
      generalize ran : Sequences.run prologue.header constAddPc
        (prologue.programCursor order frame.body) = sequences
      have paid := Sequences.cost_run prologue.header constAddPc
        (prologue.programCursor order frame.body)
      have inside :
          (prologue.programCursor order frame.body).remaining ≤ frame.body.length :=
        Nat.sub_le _ _
      have fewer : (tablesOf prologue sequences.finished).length ≤ sequences.finished.length :=
        List.length_filterMap_le _ _
      rw [ran] at paid
      constructor
      · rw [rowCount, rows_tablesOf]
        dsimp only
        omega
      · exact Option.length_toList_le

end LineSection

/-! ## Units pay for warnings -/

namespace Framing

/-- A unit that is cut out has a length that its field can hold. -/
theorem length_body_of_mem
    {cursor : Cursor}
    {frame : Frame}
    (member : frame ∈ (ofCursor cursor).frames) :
    frame.body.length < UInt32.size := by
  fun_induction ofCursor cursor with
  | case1 cursor ended =>
      cases member
  | case2 cursor goesOn cause stopped failed =>
      cases member
  | case3 cursor goesOn body marked =>
      cases member
  | case4 cursor goesOn claimed body outcome narrow cut later inductionHypothesis =>
      rcases List.mem_cons.mp member with rfl | laterMember
      · have counted : cut.body.length ≤ claimed.toNat :=
          List.length_take_le _ _
        exact Nat.lt_of_le_of_lt counted claimed.toNat_lt
      · exact inductionHypothesis laterMember

/--
The length field of each unit and its bytes are paid for, and so is what stops before
the last byte.
-/
theorem cost_ofCursor (cursor : Cursor) :
    ((ofCursor cursor).frames.map (4 + ·.body.length)).sum +
        (ofCursor cursor).stopped.toList.length ≤
      cursor.remaining := by
  fun_induction ofCursor cursor with
  | case1 cursor ended =>
      exact Nat.zero_le _
  | case2 cursor goesOn cause stopped failed =>
      simp only [Cursor.atEnd, decide_eq_true_eq] at goesOn
      simp only [List.map_nil, List.sum_nil, Option.toList_some, List.length_singleton,
        Cursor.remaining]
      omega
  | case3 cursor goesOn body outcome =>
      simp only [Cursor.atEnd, decide_eq_true_eq] at goesOn
      simp only [List.map_nil, List.sum_nil, Option.toList_some, List.length_singleton,
        Cursor.remaining]
      omega
  | case4 cursor goesOn claimed body outcome narrow cut later inductionHypothesis =>
      have inside : cursor.position ≤ cursor.size := by
        simp only [Cursor.atEnd, decide_eq_true_eq] at goesOn
        omega
      obtain ⟨sameSize, fieldTaken, fieldInside⟩ := Reader.takes_uint32 _ _ _ inside outcome
      have bodyInside : cut.body.length ≤ body.remaining := by
        rw [← Cursor.length_rest]
        exact List.length_take_le' _ _
      have laterPaid :
          (later.frames.map (4 + ·.body.length)).sum + later.stopped.toList.length ≤
            body.size - (body.position + cut.body.length) :=
        inductionHypothesis
      simp only [Cursor.remaining] at bodyInside ⊢
      simp only [List.map_cons, List.sum_cons]
      omega

end Framing

namespace LineSection

/-- What several units give together. -/
def ofFrames
    (order : ByteOrder)
    (constAddPc : ConstAddPc)
    (frames : List Frame) :
    LineSection where
  tables := (frames.map (ofFrame order constAddPc)).flatMap (·.tables)
  warnings := (frames.map (ofFrame order constAddPc)).flatMap (·.warnings)

/-- Several units give no more than their bytes pay for. -/
theorem cost_ofFrames
    (order : ByteOrder)
    (constAddPc : ConstAddPc)
    (frames : List Frame)
    (fits : ∀ frame ∈ frames, frame.body.length < addressLimit) :
    (ofFrames order constAddPc frames).rowCount +
          3 * (ofFrames order constAddPc frames).tables.length +
          4 * frames.length ≤
        (frames.map (4 + ·.body.length)).sum ∧
      (ofFrames order constAddPc frames).warnings.length ≤ frames.length := by
  induction frames with
  | nil =>
      exact ⟨Nat.le_refl 0, Nat.le_refl 0⟩
  | cons frame later inductionHypothesis =>
      obtain ⟨here, atMostOne⟩ :=
        cost_ofFrame order constAddPc (fits frame List.mem_cons_self)
      obtain ⟨rest, restWarnings⟩ :=
        inductionHypothesis fun other member => fits other (List.mem_cons_of_mem frame member)
      simp only [ofFrames, rowCount, List.map_cons, List.flatMap_cons, List.flatMap_append,
        List.length_append, List.length_cons, List.sum_cons] at *
      omega

/-- The bytes of a section pay for all that it gives. -/
theorem cost_decode
    (order : ByteOrder)
    (constAddPc : ConstAddPc)
    (data : Bytes) :
    (decode order constAddPc data).rowCount +
          3 * (decode order constAddPc data).tables.length ≤
        data.length ∧
      4 * (decode order constAddPc data).warnings.length ≤ data.length + 3 := by
  let framing := Framing.ofBytes order data
  obtain ⟨rowsPaid, warned⟩ :=
    cost_ofFrames order constAddPc framing.frames
      fun _ member => Nat.lt_trans (Framing.length_body_of_mem member) (by decide)
  have cut : (framing.frames.map (4 + ·.body.length)).sum + framing.stopped.toList.length ≤
      data.length :=
    Framing.cost_ofCursor (.ofBytes order data)
  have atMostOne : framing.stopped.toList.length ≤ 1 := Option.length_toList_le
  have warnings :
      (decode order constAddPc data).warnings =
        (ofFrames order constAddPc framing.frames).warnings ++ framing.stopped.toList :=
    rfl
  constructor
  · show (ofFrames order constAddPc framing.frames).rowCount +
      3 * (ofFrames order constAddPc framing.frames).tables.length ≤ data.length
    omega
  · rw [warnings, List.length_append]
    omega

/-- Moving on, for the loops of the decoder, and what a whole section gives. -/
structure MovesOn (constAddPc : ConstAddPc) : Prop where
  /-- A step takes at least a byte and does not leave the program. -/
  step :
    ∀ header before row after,
      LineProgram.Machine.step header constAddPc before = .ok row after →
        before.program.position < after.program.position ∧
          after.program.position ≤ after.program.size
  /-- After the opcode 0, an instruction ends as far after its length as that says. -/
  extended :
    ∀ header before row after,
      LineProgram.Machine.execute header constAddPc 0 before = .ok row after →
        ∃ length used fetched between,
          Base128.unsigned before.program.rest = .ok (length, used) ∧
            LineProgram.Instruction.readExtended before.program = .ok fetched between ∧
            between.position ≤ after.program.position ∧
            after.program.position = before.program.position + used + length.toNat
  /-- A sequence ends, -/
  steps_end : ∀ header, WellFounded (LineProgram.Machine.Follows header constAddPc)
  /-- a unit has finitely many of them, -/
  sequences_end : ∀ header, WellFounded (Sequences.Follows header constAddPc)
  /-- and a section has finitely many units. -/
  units_end : WellFounded Framing.Follows
  /-- Rows, tables and warnings are paid for with the bytes of the section. -/
  output :
    ∀ order data,
      (decode order constAddPc data).rowCount +
            3 * (decode order constAddPc data).tables.length ≤
          data.length ∧
        4 * (decode order constAddPc data).warnings.length ≤ data.length + 3

/-- Every loop of the decoder moves on, and the bytes of a section pay for what it gives. -/
theorem movesOn_decode (constAddPc : ConstAddPc) : MovesOn constAddPc where
  step _ _ _ _ := LineProgram.Machine.onward_of_step
  extended _ _ _ _ := LineProgram.Machine.extent_of_execute
  steps_end header := LineProgram.Machine.wellFounded_follows header constAddPc
  sequences_end header := Sequences.wellFounded_follows header constAddPc
  units_end := Framing.wellFounded_follows
  output order data := cost_decode order constAddPc data

end LineSection

end LineAtlas
