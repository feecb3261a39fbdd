import LineAtlas.LineProgram.Machine
import LineAtlas.LineSection.Frame
import LineAtlas.LineSection.Prologue

namespace LineAtlas

/-!
# Decoding line sections

Every frame of a section is decoded on its own: the prologue, then sequences
until the end of the frame. Each sequence that ends and has rows gives a table.
The first failure ends its frame and leaves a warning; the tables before it
stay, and so do those of all other frames.
-/

/-- The finished sequences of a program, and what stopped them, if anything did. -/
structure Sequences where
  finished : List (List LineProgram.Row)
  failure : Option ReadError

/-- Runs sequences up to the end of the data or the first failure. -/
def Sequences.run
    (header : LineProgram.Header)
    (constAddPc : ConstAddPc)
    (program : Cursor) :
    Sequences :=
  if program.atEnd then
    { finished := [], failure := none }
  else
    match _outcome : LineProgram.runSequence header constAddPc program with
    | .error cause _ => { finished := [], failure := some cause }
    | .ok rows after =>
        let later := run header constAddPc after
        { later with finished := rows :: later.finished }
termination_by program.remaining
decreasing_by exact LineProgram.remaining_lt_of_runSequence _outcome

/-- What decoding some units gave. -/
structure LineSection where
  tables : List LineTable
  warnings : List Warning
  deriving DecidableEq

namespace LineSection

/--
The kind of a unit's failure that is no truncation: structures and versions
belong to the header, everything else to the program.
-/
def kindOfFailure : ReadError → WarningKind
  | .invalidStructure _ _ _ => .malformedHeader
  | .unsupportedVersion _ _ => .malformedHeader
  | _ => .malformedProgram

/-- The warning for the failure of the unit at `offset`. -/
def unitWarning
    (offset : Nat)
    (error : ReadError) :
    Warning :=
  .ofError lineSectionName offset (kindOfFailure error) error

/-- The failure of a frame that was decoded but claims more bytes than there are. -/
def cutFailure? (frame : Frame) : Option ReadError :=
  if frame.isCut then
    some (.truncated frame.claimed.toNat frame.body.length "line program unit")
  else
    none

/-- The tables of the sequences that have rows. -/
def tablesOf
    (prologue : Prologue)
    (finished : List (List LineProgram.Row)) :
    List LineTable :=
  finished.filterMap (LineTable.ofRows? prologue.directories prologue.files)

/-- Decodes one frame. -/
def ofFrame
    (order : ByteOrder)
    (constAddPc : ConstAddPc)
    (frame : Frame) :
    LineSection :=
  match Prologue.read frame.claimed (.ofBytes order frame.body) with
  | .error cause _ =>
      { tables := [], warnings := [unitWarning frame.offset cause] }
  | .ok prologue program =>
      let sequences := Sequences.run prologue.header constAddPc program
      let failure := sequences.failure.or (cutFailure? frame)
      { tables := tablesOf prologue sequences.finished
        warnings := (failure.map (unitWarning frame.offset)).toList }

/-- Decodes a whole section. -/
def decode
    (order : ByteOrder)
    (constAddPc : ConstAddPc)
    (data : Bytes) :
    LineSection :=
  let framing := Framing.ofBytes order data
  let units := framing.frames.map (ofFrame order constAddPc)
  { tables := units.flatMap (·.tables)
    warnings := units.flatMap (·.warnings) ++ framing.stopped.toList }

end LineSection

end LineAtlas
