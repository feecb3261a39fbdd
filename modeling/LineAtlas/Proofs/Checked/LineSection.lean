import LineAtlas.LineSection.Decode
import LineAtlas.Proofs.Checked.LineProgram
import LineAtlas.Proofs.Checked.Prologue

namespace LineAtlas.Checked

/-!
# Line sections on a processor

A section is decoded unit by unit, in one pass: a unit is split off, decoded, and its
tables and its warning go to the end of those that are there. What is split off is never
more than there is, so splitting it off does not fail. The frames of the decoder without
traps are cut first and decoded then, which gives the same tables and warnings.
-/

variable (constAddPc : ConstAddPc)

/-- The tables of the sequences from the cursor on, and what stopped them, if anything did. -/
def sequencesFrom
    (prologue : Prologue)
    (program : Cursor) :
    Except Stop (List LineTable × Option ReadError) := do
  if program.atEnd then
    return ([], none)
  match ← ending (runSequence prologue.header constAddPc program) with
  | .error cause _ => return ([], some cause)
  | .ok rows after =>
      if after.remaining < program.remaining then
        let (later, failure) ← sequencesFrom prologue after
        let table? := LineTable.ofRows? prologue.directories prologue.files rows
        return (table?.toList ++ later, failure)
      else
        throw (.trap .endless)
termination_by program.remaining

/-- The tables of a unit that claims a length, and what stopped it, if anything did. -/
def decodeUnit
    (claimed : UInt32)
    (unit : Cursor) :
    Except Stop (List LineTable × Option ReadError) := do
  match ← ending (readPrologue claimed unit) with
  | .error cause _ => return ([], some cause)
  | .ok prologue program => sequencesFrom constAddPc prologue program

/-- What a unit is warned of: its failure, or that it claims more bytes than there are. -/
def unitFailure?
    (claimed : UInt32)
    (unit : Cursor)
    (isCut : Bool)
    (failure : Option ReadError) :
    Option ReadError :=
  match failure with
  | some cause => some cause
  | none =>
      if isCut then
        some (.truncated claimed.toNat unit.size "line program unit")
      else
        none

/-- Decodes the units from the cursor on. -/
def unitsFrom (cursor : Cursor) : Except Stop LineSection := do
  if cursor.atEnd then
    return { tables := [], warnings := [] }
  match ← ending (Reading.uint32 cursor) with
  | .error cause _ =>
      return {
        tables := []
        warnings := [.ofError lineSectionName cursor.position .truncatedSection cause]
      }
  | .ok claimed body =>
      if claimed = Framing.wideMark then
        return {
          tables := []
          warnings := [{
            sectionName := lineSectionName
            offset := cursor.position
            kind := .malformedHeader
            cause := .wideUnit
          }]
        }
      let isCut := body.remaining < claimed.toNat
      let (unit, after) ← certainly (Reading.splitOff (min claimed.toNat body.remaining) body)
      let (tables, failure) ← decodeUnit constAddPc claimed unit
      let failure := unitFailure? claimed unit isCut failure
      let warning? := failure.map (LineSection.unitWarning cursor.position)
      if after.remaining < cursor.remaining then
        let later ← unitsFrom after
        return {
          tables := tables ++ later.tables
          warnings := warning?.toList ++ later.warnings
        }
      else
        throw (.trap .endless)
termination_by cursor.remaining

/-- Decodes a whole section. -/
def decodeLines
    (order : ByteOrder)
    (data : Bytes) :
    Except Stop LineSection :=
  unitsFrom constAddPc (.ofBytes order data)

/-! ## Agreement -/

section

variable {constAddPc}

theorem sequencesFrom_eq
    {prologue : Prologue}
    (divides : prologue.header.lineRange ≠ 0)
    {program : Cursor}
    (fits : Fits program) :
    sequencesFrom constAddPc prologue program =
      .ok
        (LineSection.tablesOf prologue
            (Sequences.run prologue.header constAddPc program).finished,
          (Sequences.run prologue.header constAddPc program).failure) := by
  have agrees :
      Agrees Fits (runSequence prologue.header constAddPc)
        (LineProgram.runSequence prologue.header constAddPc) :=
    agrees_runSequence divides
  fun_induction Sequences.run prologue.header constAddPc program with
  | case1 program ended =>
      rw [sequencesFrom, if_pos ended]
      rfl
  | case2 program goesOn cause stopped failed =>
      rw [sequencesFrom, if_neg goesOn, agrees.same program fits, ending_outcome, failed]
      rfl
  | case3 program goesOn rows after ran later inductionHypothesis =>
      have laterFits := agrees.keeps _ _ _ fits ran
      have shorter := LineProgram.remaining_lt_of_runSequence ran
      rw [sequencesFrom, if_neg goesOn, agrees.same program fits, ending_outcome, ran, ok_bind]
      dsimp only
      rw [if_pos shorter, inductionHypothesis laterFits, ok_bind]
      simp only [LineSection.tablesOf, List.filterMap_cons]
      cases LineTable.ofRows? prologue.directories prologue.files rows <;> rfl

/-- A unit on a processor gives the tables of its frame, and leaves its warning. -/
theorem exists_decodeUnit
    (constAddPc : ConstAddPc)
    (order : ByteOrder)
    {frame : Frame}
    (short : frame.body.length < sizeLimit) :
    ∃ failure,
      decodeUnit constAddPc frame.claimed (.ofBytes order frame.body) =
          .ok ((LineSection.ofFrame order constAddPc frame).tables, failure) ∧
        (LineSection.ofFrame order constAddPc frame).warnings =
          ((failure.or (LineSection.cutFailure? frame)).map
            (LineSection.unitWarning frame.offset)).toList := by
  have agrees := agrees_readPrologue frame.claimed
  have fits : Fits (.ofBytes order frame.body) := fits_ofBytes short
  rw [decodeUnit, agrees.same _ fits, ending_outcome, ok_bind, LineSection.ofFrame]
  cases read : Prologue.read frame.claimed (.ofBytes order frame.body) with
  | error cause stopped =>
      exact ⟨some cause, rfl, rfl⟩
  | ok prologue program =>
      have divides := finds_readPrologue frame.claimed _ _ _ read
      exact ⟨_, sequencesFrom_eq divides (agrees.keeps _ _ _ fits read), rfl⟩

/-- What the frames of a section give, and what stopped them. -/
def unitsOf
    (order : ByteOrder)
    (constAddPc : ConstAddPc)
    (framing : Framing) :
    LineSection where
  tables := (framing.frames.map (LineSection.ofFrame order constAddPc)).flatMap (·.tables)
  warnings :=
    (framing.frames.map (LineSection.ofFrame order constAddPc)).flatMap (·.warnings) ++
      framing.stopped.toList

/-- A frame holds as many bytes as it claims, or all that there are. -/
theorem length_frameAt
    (offset : Nat)
    (claimed : UInt32)
    (body : Cursor) :
    (Framing.frameAt offset claimed body).body.length = min claimed.toNat body.remaining := by
  rw [Framing.frameAt, List.length_take, Cursor.length_rest]

/-- The bytes of a frame can be split off, and are all there. -/
theorem splitOff_eq
    {body : Cursor}
    (fits : Fits body)
    (offset : Nat)
    (claimed : UInt32) :
    Reading.splitOff (min claimed.toNat body.remaining) body =
      .ok
        (.ofBytes body.order (Framing.frameAt offset claimed body).body)
        (body.advance (Framing.frameAt offset claimed body).body.length) := by
  have inside : body.position + min claimed.toNat body.remaining ≤ body.size := by
    have forward := fits.position_le
    rw [Cursor.remaining]
    omega
  have room := Nat.lt_of_le_of_lt inside fits.placed.size_lt
  have sameBytes :
      (body.data.drop body.position).take (min claimed.toNat body.remaining) =
        (Framing.frameAt offset claimed body).body := by
    show body.rest.take _ = body.rest.take _
    rw [List.take_eq_take_iff, Cursor.length_rest, Nat.min_assoc, Nat.min_self]
  rw [length_frameAt]
  refine Reading.advancing_of_ok ?_ room
  rw [bytesAt_eq, Cursor.bytesAt, if_neg (Nat.not_le.mpr room), if_neg (Nat.not_lt.mpr inside),
    sameBytes]
  rfl

theorem unitFailure?_eq
    (order : ByteOrder)
    (offset : Nat)
    (claimed : UInt32)
    (body : Cursor)
    (failure : Option ReadError) :
    unitFailure? claimed (.ofBytes order (Framing.frameAt offset claimed body).body)
        (body.remaining < claimed.toNat) failure =
      failure.or (LineSection.cutFailure? (Framing.frameAt offset claimed body)) := by
  cases failure with
  | some cause =>
      rfl
  | none =>
      have sameCut :
          (Framing.frameAt offset claimed body).isCut = true ↔ body.remaining < claimed.toNat := by
        rw [Frame.isCut, decide_eq_true_iff, length_frameAt]
        show min claimed.toNat body.remaining < claimed.toNat ↔ _
        omega
      simp only [unitFailure?, LineSection.cutFailure?, Option.none_or, sameCut, decide_eq_true_eq]
      rfl

theorem unitsFrom_eq
    {cursor : Cursor}
    (fits : Fits cursor) :
    unitsFrom constAddPc cursor =
      .ok (unitsOf cursor.order constAddPc (Framing.ofCursor cursor)) := by
  fun_induction Framing.ofCursor cursor with
  | case1 cursor ended =>
      rw [unitsFrom, if_pos ended]
      rfl
  | case2 cursor goesOn cause stopped failed =>
      rw [unitsFrom, if_neg goesOn, Reading.agrees_uint32.same cursor fits, ending_outcome, failed]
      rfl
  | case3 cursor goesOn body marked =>
      rw [unitsFrom, if_neg goesOn, Reading.agrees_uint32.same cursor fits, ending_outcome, marked]
      rfl
  | case4 cursor goesOn claimed body read narrow frame later inductionHypothesis =>
      have bodyFits := Reading.agrees_uint32.keeps _ _ _ fits read
      have sameOrder := (Reader.consuming_uint32.forward _ _ _ read).2.1
      have split := splitOff_eq bodyFits cursor.position claimed
      have bodyShort : frame.body.length < sizeLimit := by
        have small := claimed.toNat_lt
        have bounds := sizeLimit_bounds
        rw [length_frameAt]
        omega
      have afterFits : Fits (body.advance frame.body.length) := by
        refine ⟨?_, bodyFits.size_lt⟩
        have forward := bodyFits.position_le
        simp only [Cursor.advance, frame, length_frameAt, Cursor.remaining, Cursor.size] at forward ⊢
        omega
      have shorter : (body.advance frame.body.length).remaining < cursor.remaining :=
        Nat.lt_of_le_of_lt (Framing.remaining_advance_le _ _)
          (Reader.consuming_uint32.remaining_lt read)
      obtain ⟨failure, decoded, warned⟩ :=
        exists_decodeUnit constAddPc body.order bodyShort
      rw [unitsFrom, if_neg goesOn, Reading.agrees_uint32.same cursor fits, ending_outcome, read,
        ok_bind]
      dsimp only
      rw [if_neg narrow, split, certainly, ok_bind]
      dsimp only
      rw [show decodeUnit constAddPc claimed _ = _ from decoded, ok_bind]
      dsimp only
      rw [if_pos shorter, inductionHypothesis afterFits, ok_bind, unitFailure?_eq, ← sameOrder]
      have sameWarnings :
          ((failure.or (LineSection.cutFailure? frame)).map
              (LineSection.unitWarning cursor.position)).toList =
            (LineSection.ofFrame body.order constAddPc frame).warnings :=
        warned.symm
      simp only [unitsOf, List.map_cons, List.flatMap_cons, List.append_assoc]
      rw [sameWarnings]
      rfl

/-- A section on a processor gives what it gives without traps. -/
theorem decodeLines_eq
    {order : ByteOrder}
    {data : Bytes}
    (short : data.length < sizeLimit) :
    decodeLines constAddPc order data = .ok (LineSection.decode order constAddPc data) :=
  unitsFrom_eq (fits_ofBytes short)

end

end LineAtlas.Checked
