import LineAtlas.Proofs.Extension
import LineAtlas.Proofs.LineSection.Shape
import LineAtlas.Proofs.LineSection.Tiling

namespace LineAtlas

open Framing

/-!
# Sections that end too early

What is decoded of the front of a section is what the whole section starts with:
cutting the end off can lose tables, but it neither changes one nor makes one up.
The units before the cut are the same, and in the unit that is cut every sequence
that is still complete was the same sequence before.
-/

/-- A prologue that is read is read in the same way when the unit goes on. -/
theorem Prologue.Opens.extend
    {order : ByteOrder}
    {unitLength : UInt32}
    {body more : Bytes}
    {prologue : Prologue}
    (opens : prologue.Opens order unitLength body)
    (fits : body.length + more.length < addressLimit) :
    prologue.Opens order unitLength (body ++ more) := by
  have placed : (Cursor.ofBytes order body).Placed :=
    Cursor.placed_ofBytes (by omega)
  obtain ⟨⟨stopped, read⟩, inside⟩ := opens_iff_readParts.mp opens
  obtain ⟨-, -, again⟩ := (local_readParts unitLength).extends _ more _ _ placed fits read
  refine opens_iff_readParts.mpr ⟨⟨_, again⟩, ?_⟩
  rw [List.length_append]
  omega

namespace Sequences

variable
  {header : LineProgram.Header}
  {constAddPc : ConstAddPc}
  {program : Cursor}
  {more : Bytes}

/-- A program that has begun has begun when it goes on. -/
theorem started_extend
    (placed : program.Placed)
    (notEnded : ¬ program.atEnd = true) :
    (program.extend more).rest ≠ [] := by
  rw [placed.rest_extend]
  intro nothingLeft
  exact notEnded (Cursor.atEnd_iff.mpr (List.append_eq_nil_iff.mp nothingLeft).1)

/-- A sequence that a program completes is its next one when the program goes on. -/
theorem run_extend_of_ok
    (placed : program.Placed)
    (fits : program.size + more.length < addressLimit)
    (notEnded : ¬ program.atEnd = true)
    {rows : List LineProgram.Row}
    {after : Cursor}
    (ran : LineProgram.runSequence header constAddPc program = .ok rows after) :
    after.Placed ∧
      after.size = program.size ∧
      run header constAddPc (program.extend more) =
        { finished := rows :: (run header constAddPc (after.extend more)).finished
          failure := (run header constAddPc (after.extend more)).failure } := by
  obtain ⟨afterPlaced, sameSize, sameRun⟩ :=
    (LineProgram.local_runSequence header constAddPc).extends program more rows after
      placed fits ran
  exact ⟨afterPlaced, sameSize, run_of_ok (started_extend placed notEnded) sameRun⟩

/-- The sequences that a program completes are its first ones when the program goes on. -/
theorem finished_prefix_extend
    (placed : program.Placed)
    (fits : program.size + more.length < addressLimit) :
    (run header constAddPc program).finished <+:
      (run header constAddPc (program.extend more)).finished := by
  fun_induction run header constAddPc program with
  | case1 program ended =>
      exact List.nil_prefix
  | case2 program notEnded cause stopped failed =>
      exact List.nil_prefix
  | case3 program notEnded rows after ran later inductionHypothesis =>
      obtain ⟨afterPlaced, sameSize, sameRun⟩ := run_extend_of_ok placed fits notEnded ran
      rw [← sameSize] at fits
      rw [sameRun]
      exact List.cons_prefix_cons.mpr ⟨rfl, inductionHypothesis afterPlaced fits⟩

end Sequences

namespace LineSection

variable
  {order : ByteOrder}
  {constAddPc : ConstAddPc}

/-- A frame that holds less has fewer tables, and the ones it has are the same. -/
theorem tables_ofFrame_prefix_append
    {offset : Nat}
    {claimed : UInt32}
    {body more : Bytes}
    (fits : body.length + more.length < addressLimit) :
    (ofFrame order constAddPc
        { offset := offset, claimed := claimed, body := body }).tables <+:
      (ofFrame order constAddPc
        { offset := offset, claimed := claimed, body := body ++ more }).tables := by
  have bodyFits : body.length < addressLimit := by
    omega
  have bothFit : (body ++ more).length < addressLimit := by
    rwa [List.length_append]
  by_cases opened : ∃ prologue : Prologue, prologue.Opens order claimed body
  · obtain ⟨prologue, opens⟩ := opened
    have longer := opens.extend fits
    rw [ofFrame_opens offset bodyFits opens rfl, ofFrame_opens offset bothFit longer rfl]
    exact (Sequences.finished_prefix_extend (opens.placed bodyFits) fits).filterMap _
  · obtain ⟨cause, decoded⟩ :=
      ofFrame_closed constAddPc offset bodyFits fun prologue opens => opened ⟨prologue, opens⟩
    rw [decoded]
    exact List.nil_prefix

/-- After a length field that is read comes the frame that it cuts out. -/
theorem ofCursor_of_read
    {cursor body : Cursor}
    {claimed : UInt32}
    (read : Reader.uint32 cursor = .ok claimed body)
    (narrow : claimed ≠ wideMark) :
    ofCursor cursor =
      { frames :=
          frameAt cursor.position claimed body ::
            (ofCursor (body.advance (frameAt cursor.position claimed body).body.length)).frames
        stopped :=
          (ofCursor (body.advance (frameAt cursor.position claimed body).body.length)).stopped } := by
  have started : ¬ cursor.atEnd = true := by
    have inside := (Reader.consuming_uint32 cursor claimed body read).2.2.2
    rw [Cursor.atEnd, decide_eq_true_iff]
    exact Nat.not_le_of_lt inside
  rw [ofCursor, if_neg started]
  split
  · simp_all
  · next found rest outcome =>
      rw [read] at outcome
      cases outcome
      rw [if_neg narrow]

section Frame

variable
  {body : Cursor}
  {claimed : UInt32}
  {offset : Nat}
  {more : Bytes}

/-- A frame that is whole is the same when the section goes on. -/
theorem frameAt_extend_of_le
    (inside : body.position ≤ body.size)
    (whole : claimed.toNat ≤ body.rest.length) :
    frameAt offset claimed (body.extend more) = frameAt offset claimed body := by
  rw [frameAt, frameAt, Cursor.rest_extend inside, List.take_append_of_le_length whole]

/-- A frame that is cut is the last one. -/
theorem frames_after_cut
    (short : body.rest.length ≤ claimed.toNat) :
    (ofCursor (body.advance (frameAt offset claimed body).body.length)).frames = [] := by
  have nothingLeft : (body.advance body.rest.length).rest = [] :=
    Cursor.rest_advance (List.append_nil _).symm
  rw [frameAt, List.take_of_length_le short, ofCursor_finished nothingLeft]

/-- A frame that is cut holds more when the section goes on. -/
theorem tables_frameAt_prefix_extend
    (inside : body.position ≤ body.size)
    (short : body.rest.length ≤ claimed.toNat) :
    (ofFrame order constAddPc (frameAt offset claimed body)).tables <+:
      (ofFrame order constAddPc (frameAt offset claimed (body.extend more))).tables := by
  have narrow : claimed.toNat < addressLimit :=
    Nat.lt_trans claimed.toNat_lt (by decide)
  have fits :
      body.rest.length + (more.take (claimed.toNat - body.rest.length)).length < addressLimit := by
    rw [List.length_take]
    omega
  rw [frameAt, frameAt, Cursor.rest_extend inside, List.take_append,
    List.take_of_length_le short]
  exact tables_ofFrame_prefix_append fits

end Frame

/-- The frames of the front of a section are those of the whole, up to the last one, which is cut. -/
theorem tables_frames_prefix_extend
    (cursor : Cursor)
    (more : Bytes) :
    ((ofCursor cursor).frames.flatMap fun frame => (ofFrame order constAddPc frame).tables) <+:
      ((ofCursor (cursor.extend more)).frames.flatMap
        fun frame => (ofFrame order constAddPc frame).tables) := by
  fun_induction ofCursor cursor with
  | case1 cursor ended =>
      exact List.nil_prefix
  | case2 cursor notEnded cause stopped failed =>
      exact List.nil_prefix
  | case3 cursor notEnded body read =>
      exact List.nil_prefix
  | case4 cursor notEnded claimed body read narrow frame later inductionHypothesis =>
      obtain ⟨rfl, inside, longerRead⟩ := Reader.field_extend more read
      rw [ofCursor_of_read longerRead narrow, List.flatMap_cons, List.flatMap_cons]
      by_cases whole : claimed.toNat ≤ (cursor.advance 4).rest.length
      · rw [frameAt_extend_of_le inside whole]
        exact (List.prefix_append_right_inj _).mpr inductionHypothesis
      · have short := Nat.le_of_not_le whole
        have last : later.frames = [] :=
          frames_after_cut short
        rw [last, List.flatMap_nil, List.append_nil]
        exact (tables_frameAt_prefix_extend inside short).trans (List.prefix_append _ _)

/--
Cutting off the end of a section leaves a front part of its tables: none of them is
changed, and none is added.
-/
theorem decode_tables_prefix
    (order : ByteOrder)
    (constAddPc : ConstAddPc)
    {front data : Bytes}
    (cut : front <+: data) :
    (decode order constAddPc front).tables <+: (decode order constAddPc data).tables := by
  obtain ⟨more, rfl⟩ := cut
  simp only [decode, Framing.ofBytes, List.flatMap_map]
  exact tables_frames_prefix_extend (.ofBytes order front) more

/-- A unit whose program starts inside its header, and holds two sequences. -/
def overlappingUnit : Bytes :=
  [20, 0, 0, 0, 2, 0, 0, 0, 0, 0, 1, 1, 1, 1, 1, 0, 0] ++ [0, 1, 1, 1, 0, 1, 1]

theorem decode_tables_prefix_overlappingUnit :
    overlappingUnit.take 23 <+: overlappingUnit ∧
      (decode .little .ignore (overlappingUnit.take 23)).tables <+:
        (decode .little .ignore overlappingUnit).tables ∧
      (decode .little .ignore (overlappingUnit.take 23)).tables.map (·.rows.length) = [5] ∧
      (decode .little .ignore overlappingUnit).tables.map (·.rows.length) = [5, 1] := by
  have cut : overlappingUnit.take 23 <+: overlappingUnit := List.take_prefix 23 overlappingUnit
  refine ⟨cut, decode_tables_prefix .little .ignore cut, ?_, ?_⟩
  · decide +kernel
  · decide +kernel

end LineSection

end LineAtlas
