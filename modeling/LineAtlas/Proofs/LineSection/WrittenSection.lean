import LineAtlas.Proofs.LineSection.Shape
import LineAtlas.Proofs.LineSection.Tiling
import LineAtlas.Proofs.LineSection.WrittenUnit

namespace LineAtlas

/-!
# Written sections are read back

A section of written units whose sequences are whole is decoded without a warning.
Its tables are the sequences that have rows, with the directories and files that
were written for their units.
-/

/-- Whether a byte string is a whole sequence when it stands alone. -/
def Sequences.IsSequence
    (header : LineProgram.Header)
    (constAddPc : ConstAddPc)
    (order : ByteOrder)
    (bytes : Bytes) :
    Prop :=
  ∃ rows, (LineProgram.runSequence header constAddPc).TakesAll order bytes rows

/-- Whether running a byte string stops at its end. -/
def Sequences.stopsAtEnd
    (header : LineProgram.Header)
    (constAddPc : ConstAddPc)
    (order : ByteOrder)
    (bytes : Bytes) :
    Bool :=
  match LineProgram.runSequence header constAddPc (.ofBytes order bytes) with
  | .ok _ after => after = (Cursor.ofBytes order bytes).advance bytes.length
  | .error _ _ => false

theorem Sequences.stopsAtEnd_iff
    {header : LineProgram.Header}
    {constAddPc : ConstAddPc}
    {order : ByteOrder}
    {bytes : Bytes} :
    stopsAtEnd header constAddPc order bytes = true ↔
      IsSequence header constAddPc order bytes := by
  unfold stopsAtEnd IsSequence Reader.TakesAll
  cases LineProgram.runSequence header constAddPc (.ofBytes order bytes) <;> simp

instance
    (header : LineProgram.Header)
    (constAddPc : ConstAddPc)
    (order : ByteOrder)
    (bytes : Bytes) :
    Decidable (Sequences.IsSequence header constAddPc order bytes) :=
  decidable_of_iff _ Sequences.stopsAtEnd_iff

/-- The rows of a byte string that is a whole sequence. -/
def Sequences.rowsOf
    (header : LineProgram.Header)
    (constAddPc : ConstAddPc)
    (order : ByteOrder)
    (bytes : Bytes) :
    List LineProgram.Row :=
  match LineProgram.runSequence header constAddPc (.ofBytes order bytes) with
  | .ok rows _ => rows
  | .error _ _ => []

/-- Whole sequences that are written one after the other tile their program. -/
theorem Sequences.tiles_flatten
    {header : LineProgram.Header}
    {constAddPc : ConstAddPc}
    {order : ByteOrder}
    {sequences : List Bytes}
    (whole : ∀ bytes ∈ sequences, IsSequence header constAddPc order bytes) :
    Tiles header constAddPc order
      sequences.flatten (sequences.map (rowsOf header constAddPc order)) := by
  induction sequences with
  | nil =>
      exact .nil
  | cons bytes later inductionHypothesis =>
      obtain ⟨rows, runs⟩ := whole bytes (by simp)
      have sameRows : rowsOf header constAddPc order bytes = rows := by
        rw [rowsOf, runs]
      rw [List.flatten_cons, List.map_cons, sameRows]
      exact .cons runs (inductionHypothesis fun other member => whole other (by simp [member]))

namespace WrittenUnit

/-- What the tables of a unit hold: one for each sequence that has rows. -/
def tableParts
    (order : ByteOrder)
    (constAddPc : ConstAddPc)
    (unit : WrittenUnit) :
    List (List String × List SourceFile × List LineProgram.Row) :=
  ((unit.sequences.map (Sequences.rowsOf (unit.header order) constAddPc order)).filter
      (· ≠ [])).map fun rows =>
    (directoryNames unit.directories, unit.files.map (·.sourceFile), rows)

end WrittenUnit

namespace WrittenUnit

/-- The frame that a unit is cut out in. -/
def frame
    (order : ByteOrder)
    (unit : WrittenUnit)
    (offset : Nat) :
    Frame where
  offset := offset
  claimed := UInt32.ofNat (unit.body order).length
  body := unit.body order

variable
  {order : ByteOrder}
  {unit : WrittenUnit}

theorem announces_body
    (short : (unit.body order).length < 0xFFFFFFFF) :
    Framing.Announces order
      (order.field 4 (unit.body order).length) (unit.body order).length where
  size := order.length_field 4 _
  number := order.number_field (by omega)
  narrow := by
    rw [show Framing.wideMark.toNat = 0xFFFFFFFF from rfl]
    omega

end WrittenUnit

namespace LineSection

variable
  {order : ByteOrder}
  {constAddPc : ConstAddPc}

/-- The frame of a written unit is decoded to its tables, without a warning. -/
theorem ofFrame_written
    {unit : WrittenUnit}
    (whole :
      ∀ bytes ∈ unit.sequences,
        Sequences.IsSequence (unit.header order) constAddPc order bytes)
    (short : (unit.body order).length < 0xFFFFFFFF)
    (offset : Nat) :
    (ofFrame order constAddPc (unit.frame order offset)).warnings = [] ∧
      (ofFrame order constAddPc (unit.frame order offset)).tables.map LineTable.parts =
        unit.tableParts order constAddPc := by
  have fits : (unit.body order).length < addressLimit :=
    Nat.lt_trans short (by decide)
  have opens := unit.opens_body order (Nat.lt_trans short (by decide))
  have program := unit.programBytes_body order (Nat.lt_trans short (by decide))
  have ran : Sequences.run (unit.header order) constAddPc _ = _ :=
    Sequences.run_of_tiles (Sequences.tiles_flatten whole) (opens.placed fits) rfl program
  have notCut : cutFailure? (unit.frame order offset) = none := by
    simp [cutFailure?, Frame.isCut, WrittenUnit.frame,
      (WrittenUnit.announces_body short).toNat_ofNat]
  have decoded := ofFrame_opens offset fits opens ran
  rw [WrittenUnit.frame] at notCut ⊢
  rw [decoded, notCut]
  exact ⟨rfl, parts_tablesOf _ _⟩

theorem decode_units
    {units : List WrittenUnit}
    (whole :
      ∀ unit ∈ units, ∀ bytes ∈ unit.sequences,
        Sequences.IsSequence (unit.header order) constAddPc order bytes)
    (short : ∀ unit ∈ units, (unit.body order).length < 0xFFFFFFFF)
    {cursor : Cursor}
    (placed : cursor.Placed)
    (sameOrder : cursor.order = order)
    (split : cursor.rest = units.flatMap (·.bytes order)) :
    (Framing.ofCursor cursor).stopped = none ∧
      ((Framing.ofCursor cursor).frames.map (ofFrame order constAddPc)).flatMap (·.warnings) = [] ∧
      (((Framing.ofCursor cursor).frames.map (ofFrame order constAddPc)).flatMap (·.tables)).map
          LineTable.parts =
        units.flatMap (·.tableParts order constAddPc) := by
  induction units generalizing cursor with
  | nil =>
      rw [Framing.ofCursor_finished split]
      exact ⟨rfl, rfl, rfl⟩
  | cons unit later inductionHypothesis =>
      rw [List.flatMap_cons, WrittenUnit.bytes] at split
      have unitShort := short unit (by simp)
      have cut :=
        Framing.ofCursor_unit placed split
          (by rw [sameOrder]; exact WrittenUnit.announces_body unitShort)
      obtain ⟨noStop, noWarnings, tables⟩ :=
        inductionHypothesis
          (fun other member => whole other (by simp [member]))
          (fun other member => short other (by simp [member]))
          (placed.advance split)
          sameOrder
          (Cursor.rest_advance split)
      obtain ⟨noWarning, unitTables⟩ :=
        ofFrame_written (whole unit (by simp)) unitShort cursor.position
      have sameFrame :
          ({ offset := cursor.position
             claimed := UInt32.ofNat (unit.body order).length
             body := unit.body order } : Frame) =
            unit.frame order cursor.position :=
        rfl
      rw [cut, sameFrame]
      refine ⟨noStop, ?_, ?_⟩
      · rw [List.map_cons, List.flatMap_cons, noWarning, List.nil_append, noWarnings]
      · rw [List.map_cons, List.flatMap_cons, List.map_append, unitTables, tables,
          List.flatMap_cons]

/--
A section of written units that fits into memory is decoded without a warning, to
the sequences that have rows, in the order in which they were written.
-/
theorem decode_written
    (order : ByteOrder)
    (constAddPc : ConstAddPc)
    (units : List WrittenUnit)
    (whole :
      ∀ unit ∈ units, ∀ bytes ∈ unit.sequences,
        Sequences.IsSequence (unit.header order) constAddPc order bytes)
    (short : ∀ unit ∈ units, (unit.body order).length < 0xFFFFFFFF)
    (fits : (units.flatMap (·.bytes order)).length < addressLimit) :
    (decode order constAddPc (units.flatMap (·.bytes order))).warnings = [] ∧
      (decode order constAddPc (units.flatMap (·.bytes order))).tables.map LineTable.parts =
        units.flatMap (·.tableParts order constAddPc) := by
  obtain ⟨noStop, noWarnings, tables⟩ :=
    decode_units whole short (Cursor.placed_ofBytes fits) rfl rfl
  refine ⟨?_, tables⟩
  simp only [decode, Framing.ofBytes, noStop, noWarnings]
  rfl

/-- A unit with padding, a long spelling of a number and a sequence without rows. -/
def paddedUnit : WrittenUnit where
  version := 4
  known := by decide
  minimumInstructionLength := 2
  maximumOperations := 1
  defaultIsStatement := 1
  lineBase := 0xFB
  lineRange := 14
  lineRange_ne_zero := by decide
  opcodeBase := 10
  opcodeBase_ne_zero := by decide
  operandCounts := [0, 1, 1, 1, 1, 0, 0, 0, 1]
  operandCounts_length := by decide
  directories := [{ text := "src", nonempty := by decide, noNul := by decide }]
  files := [{
    name := { text := "é.c", nonempty := by decide, noNul := by decide }
    directoryIndex := {
      value := 1
      bytes := [0x81, 0x00]
      spelling := .more 0x81 (by decide) (.last 0 (by decide))
      short := by decide
    }
    modificationTime := {
      value := 0
      bytes := [0]
      spelling := .last 0 (by decide)
      short := by decide
    }
    size := {
      value := 300
      bytes := [0xAC, 0x02]
      spelling := .more 0xAC (by decide) (.last 2 (by decide))
      short := by decide
    }
    listed := by decide
  }]
  padding := [0xFF, 0x00, 0xFF]
  sequences := [[0, 1, 1], [2, 5, 1, 40, 0, 1, 1]]

/-- Two padded units, whose sequences without rows give no table. -/
theorem decode_written_paddedUnit :
    (∀ unit ∈ [paddedUnit, paddedUnit], ∀ bytes ∈ unit.sequences,
        Sequences.IsSequence (unit.header .big) .standard .big bytes) ∧
      (∀ unit ∈ [paddedUnit, paddedUnit], (unit.body .big).length < 0xFFFFFFFF) ∧
      ([paddedUnit, paddedUnit].flatMap (·.bytes .big)).length < addressLimit ∧
      (decode .big .standard ([paddedUnit, paddedUnit].flatMap (·.bytes .big))).warnings = [] ∧
      (decode .big .standard ([paddedUnit, paddedUnit].flatMap (·.bytes .big))).tables.map
          LineTable.parts =
        List.replicate 2
          ([".", "src"],
            [{ name := "é.c", directoryIndex := 1, modificationTime := 0, size := 300,
               path := "src/é.c" }],
            [{ address := 10, line := 1, file := 1, column := 0 },
              { address := 14, line := -2, file := 1, column := 0 }]) := by
  have whole :
      ∀ unit ∈ [paddedUnit, paddedUnit], ∀ bytes ∈ unit.sequences,
        Sequences.IsSequence (unit.header .big) .standard .big bytes := by
    decide +kernel
  have short : ∀ unit ∈ [paddedUnit, paddedUnit], (unit.body .big).length < 0xFFFFFFFF := by
    decide +kernel
  have fits : ([paddedUnit, paddedUnit].flatMap (·.bytes .big)).length < addressLimit := by
    decide +kernel
  obtain ⟨noWarnings, tables⟩ := decode_written .big .standard _ whole short fits
  refine ⟨whole, short, fits, noWarnings, tables.trans ?_⟩
  decide +kernel

end LineSection

end LineAtlas
