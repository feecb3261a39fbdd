import LineAtlas.LineSection.Decode
import LineAtlas.Proofs.LineProgram.InstructionLocality
import LineAtlas.Proofs.LineSection.PrologueLocality

namespace LineAtlas

/-!
# Programs as rows of sequences

`Sequences.Tiles` cuts a program into byte strings, each of which is a whole
sequence when it stands alone. Running a program finds such a cut: the finished
sequences tile its front, and what is left is empty or starts with a sequence
that fails. Since a sequence sees only its own bytes, nothing about the place of
the program or of its sequences matters.
-/

namespace Sequences

open LineProgram

variable
  {header : Header}
  {constAddPc : ConstAddPc}
  {order : ByteOrder}

/--
The bytes are sequences, one after the other, and `rows` lists their rows.

Every sequence runs from the initial registers and takes exactly its own bytes.
-/
inductive Tiles
    (header : Header)
    (constAddPc : ConstAddPc)
    (order : ByteOrder) :
    Bytes → List (List Row) → Prop where
  | nil : Tiles header constAddPc order [] []
  | cons
      {bytes rest : Bytes}
      {rows : List Row}
      {later : List (List Row)}
      (runs : (runSequence header constAddPc).TakesAll order bytes rows)
      (laterTiles : Tiles header constAddPc order rest later) :
      Tiles header constAddPc order (bytes ++ rest) (rows :: later)

/-- The sequences that a program completes before its first failure, and what is left. -/
structure Completes
    (header : Header)
    (constAddPc : ConstAddPc)
    (order : ByteOrder)
    (program : Bytes)
    (finished : List (List Row))
    (left : Bytes) :
    Prop where
  front_tiles :
    ∃ front, program = front ++ left ∧ Tiles header constAddPc order front finished
  left_fails :
    left ≠ [] →
      ∃ cause stopped,
        runSequence header constAddPc (.ofBytes order left) = .error cause stopped

/-- A sequence has at least one byte. -/
theorem ne_nil_of_takesAll
    {bytes : Bytes}
    {rows : List Row}
    (runs : (runSequence header constAddPc).TakesAll order bytes rows) :
    bytes ≠ [] := by
  rintro rfl
  have fewer := remaining_lt_of_runSequence runs
  simp [Cursor.remaining, Cursor.size, Cursor.ofBytes, Cursor.advance] at fewer

theorem run_of_rest_nil
    {program : Cursor}
    (finished : program.rest = []) :
    run header constAddPc program = { finished := [], failure := none } := by
  rw [run, if_pos (Cursor.atEnd_iff.mpr finished)]

theorem run_of_ok
    {program after : Cursor}
    {rows : List Row}
    (started : program.rest ≠ [])
    (ran : runSequence header constAddPc program = .ok rows after) :
    run header constAddPc program =
      { finished := rows :: (run header constAddPc after).finished
        failure := (run header constAddPc after).failure } := by
  rw [run, if_neg (mt Cursor.atEnd_iff.mp started)]
  split <;> simp_all

/-- A program that is tiled by sequences runs to its end. -/
theorem run_of_tiles
    {bytes : Bytes}
    {rows : List (List Row)}
    (tiles : Tiles header constAddPc order bytes rows)
    {program : Cursor}
    (placed : program.Placed)
    (sameOrder : program.order = order)
    (split : program.rest = bytes) :
    run header constAddPc program = { finished := rows, failure := none } := by
  induction tiles generalizing program with
  | nil =>
      exact run_of_rest_nil split
  | @cons bytes rest rows later runs laterTiles inductionHypothesis =>
      have short : bytes.length < addressLimit := by
        have inside := placed.end_le_size split
        have bound := placed.size_lt
        omega
      have started : program.rest ≠ [] := by
        simp [split, ne_nil_of_takesAll runs]
      have ran :=
        (local_runSequence header constAddPc).reads runs short
          program rest placed sameOrder split
      rw [run_of_ok started ran,
        inductionHypothesis (placed.advance split) sameOrder (Cursor.rest_advance split)]

/-- A sequence that fails somewhere fails when its bytes and those after it stand alone. -/
theorem fails_alone
    {program stopped : Cursor}
    {cause : ReadError}
    (placed : program.Placed)
    (failed : runSequence header constAddPc program = .error cause stopped) :
    ∃ other last,
      runSequence header constAddPc (.ofBytes program.order program.rest) =
        .error other last := by
  have alonePlaced : (Cursor.ofBytes program.order program.rest).Placed := by
    apply Cursor.placed_ofBytes
    have bound := placed.size_lt
    rw [Cursor.length_rest, Cursor.remaining]
    omega
  cases outcome : runSequence header constAddPc (.ofBytes program.order program.rest) with
  | error other last =>
      exact ⟨other, last, rfl⟩
  | ok rows after =>
      obtain ⟨used, tail, split, -, reads⟩ :=
        local_runSequence header constAddPc _ _ _ alonePlaced outcome
      have ran := reads program tail placed rfl split
      rw [failed] at ran
      cases ran

/-- A program runs through the sequences that it completes, and fails if anything is left. -/
theorem exists_completes
    {program : Cursor}
    (placed : program.Placed) :
    ∃ left,
      Completes header constAddPc program.order program.rest
          (run header constAddPc program).finished left ∧
        ((run header constAddPc program).failure = none ↔ left = []) := by
  fun_induction run header constAddPc program with
  | case1 program ended =>
      rw [Cursor.atEnd_iff.mp ended]
      exact ⟨[], ⟨⟨[], rfl, .nil⟩, by simp⟩, by simp⟩
  | case2 program notEnded cause stopped failed =>
      have started : program.rest ≠ [] :=
        mt Cursor.atEnd_iff.mpr notEnded
      refine ⟨program.rest, ⟨⟨[], rfl, .nil⟩, fun _ => fails_alone placed failed⟩, ?_⟩
      simp [started]
  | case3 program notEnded rows after ran later inductionHypothesis =>
      obtain ⟨used, tail, split, rfl, reads⟩ :=
        local_runSequence header constAddPc _ _ _ placed ran
      have short : used.length < addressLimit := by
        have inside := placed.end_le_size split
        have bound := placed.size_lt
        omega
      obtain ⟨left, ⟨⟨front, laterSplit, tiles⟩, leftFails⟩, sameEnd⟩ :=
        inductionHypothesis (placed.advance split)
      rw [Cursor.rest_advance split] at laterSplit
      refine ⟨left, ⟨⟨used ++ front, ?_, .cons (reads.takesAll short) tiles⟩, leftFails⟩, sameEnd⟩
      rw [split, laterSplit, List.append_assoc]

end Sequences

/-! ## Tables -/

/-- The directories, the files and the rows of a table, which are all of it. -/
def LineTable.parts (table : LineTable) :
    List String × List SourceFile × List LineProgram.Row :=
  (table.directories, table.files, table.rows)

/-- There is one table for each sequence that has rows. -/
theorem LineSection.parts_tablesOf
    (prologue : Prologue)
    (finished : List (List LineProgram.Row)) :
    (tablesOf prologue finished).map LineTable.parts =
      (finished.filter (· ≠ [])).map fun rows =>
        (prologue.directories, prologue.files, rows) := by
  induction finished with
  | nil =>
      rfl
  | cons rows later inductionHypothesis =>
      by_cases empty : rows = []
      · simpa [tablesOf, LineTable.ofRows?, empty] using inductionHypothesis
      · simpa [tablesOf, LineTable.ofRows?, LineTable.parts, empty] using inductionHypothesis

/-- Sequences without rows give no tables, so no row is lost. -/
theorem LineSection.rows_tablesOf
    (prologue : Prologue)
    (finished : List (List LineProgram.Row)) :
    (tablesOf prologue finished).flatMap (·.rows) = finished.flatten := by
  induction finished with
  | nil =>
      rfl
  | cons rows later inductionHypothesis =>
      by_cases empty : rows = []
      · simpa [tablesOf, LineTable.ofRows?, empty] using inductionHypothesis
      · simpa [tablesOf, LineTable.ofRows?, empty] using inductionHypothesis

/-! ## Frames -/

namespace LineSection

variable
  {order : ByteOrder}
  (constAddPc : ConstAddPc)
  (offset : Nat)
  {claimed : UInt32}
  {body : Bytes}

/-- Without a prologue there is nothing but a warning. -/
theorem ofFrame_closed
    (fits : body.length < addressLimit)
    (closed : ∀ prologue : Prologue, ¬ prologue.Opens order claimed body) :
    ∃ cause,
      ofFrame order constAddPc { offset := offset, claimed := claimed, body := body } =
        { tables := [], warnings := [unitWarning offset cause] } := by
  cases outcome : Prologue.read claimed (.ofBytes order body) with
  | error cause stopped =>
      exact ⟨cause, by simp [ofFrame, outcome]⟩
  | ok prologue program =>
      exact (closed prologue ((Prologue.read_eq_ok_iff fits).mp outcome).1).elim

variable {constAddPc} in
/-- With a prologue, the sequences of the program decide. -/
theorem ofFrame_opens
    {prologue : Prologue}
    (fits : body.length < addressLimit)
    (opens : prologue.Opens order claimed body)
    {ran : Sequences}
    (sameRun :
      Sequences.run prologue.header constAddPc (prologue.programCursor order body) = ran) :
    ofFrame order constAddPc { offset := offset, claimed := claimed, body := body } =
      { tables := tablesOf prologue ran.finished
        warnings :=
          ((ran.failure.or (cutFailure? { offset := offset, claimed := claimed, body := body })).map
            (unitWarning offset)).toList } := by
  have read := (Prologue.read_eq_ok_iff fits).mpr ⟨opens, rfl⟩
  simp only [ofFrame, read, sameRun]

end LineSection

end LineAtlas
