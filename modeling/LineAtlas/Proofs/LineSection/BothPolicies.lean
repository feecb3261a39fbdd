import LineAtlas.Proofs.LineProgram.ConstAdvance
import LineAtlas.Proofs.LineSection.Tiling
import Mathlib.Data.List.Forall2

namespace LineAtlas

open LineProgram

/-!
# Sections under both policies

Which sequences a section has and which instructions are in them does not depend on
what a constant advance does. `LineSection.listings` lists them as they stand in the
programs of the units, and the tables of both policies are those of the same listings. So
the warnings are the same, and the tables differ in the addresses of their rows only.
-/

namespace Sequences

variable
  {header : Header}
  {program : Cursor}
  (constAddPc : ConstAddPc)

/-- The instructions of each sequence that a program completes before its first failure. -/
def listed
    (header : Header)
    (program : Cursor) :
    List (List Instruction) :=
  if program.atEnd then
    []
  else
    match _outcome : Instruction.sequence header program with
    | .error _ _ => []
    | .ok instructions after => instructions :: listed header after
termination_by program.remaining
decreasing_by
  exact remaining_lt_of_runSequence (runSequence_of_sequence .ignore _outcome)

/--
The sequences stand in a program, one after the other: each one starts where the one
before it has ended, with an instruction for its end.
-/
inductive Stand (header : Header) : Cursor → List (List Instruction) → Prop where
  | nil
      {program : Cursor} :
      Stand header program []
  | cons
      {before last after : Cursor}
      {instructions : List Instruction}
      {later : List (List Instruction)}
      (stand : Instruction.Stand header before instructions last)
      (ended : Instruction.next header last = .ok .endSequence after)
      (laterStand : Stand header after later) :
      Stand header before (instructions :: later)

/-- Listed sequences stand in their program. -/
theorem stand_listed
    (header : Header)
    (program : Cursor) :
    Stand header program (listed header program) := by
  fun_induction listed header program with
  | case1 program ended =>
      exact .nil
  | case2 program notEnded cause stopped failed =>
      exact .nil
  | case3 program notEnded instructions after read inductionHypothesis =>
      obtain ⟨last, stand, ended⟩ := Instruction.stand_of_sequence read
      exact .cons stand ended inductionHypothesis

theorem run_of_error
    {constAddPc : ConstAddPc}
    {cause : ReadError}
    {stopped : Cursor}
    (started : program.rest ≠ [])
    (failed : runSequence header constAddPc program = .error cause stopped) :
    run header constAddPc program = { finished := [], failure := some cause } := by
  rw [run, if_neg (mt Cursor.atEnd_iff.mp started)]
  split <;> simp_all

variable (header program) in
/-- Under each policy, a program has the rows of its listed sequences, and the same failure. -/
theorem run_eq_listed :
    (run header constAddPc program).finished =
        (listed header program).map
          ((Registers.initial header.defaultIsStatement).rows header constAddPc) ∧
      (run header constAddPc program).failure = (run header .ignore program).failure := by
  fun_induction listed header program with
  | case1 program ended =>
      rw [run_of_rest_nil (Cursor.atEnd_iff.mp ended), run_of_rest_nil (Cursor.atEnd_iff.mp ended)]
      exact ⟨rfl, rfl⟩
  | case2 program notEnded cause stopped failed =>
      have started := mt Cursor.atEnd_iff.mpr notEnded
      rw [run_of_error started (runSequence_of_sequence_error constAddPc failed),
        run_of_error started (runSequence_of_sequence_error .ignore failed)]
      exact ⟨rfl, rfl⟩
  | case3 program notEnded instructions after read inductionHypothesis =>
      have started := mt Cursor.atEnd_iff.mpr notEnded
      obtain ⟨sameRows, sameFailure⟩ := inductionHypothesis
      rw [run_of_ok started (runSequence_of_sequence constAddPc read),
        run_of_ok started (runSequence_of_sequence .ignore read), sameRows]
      exact ⟨rfl, sameFailure⟩

end Sequences

/-- The instructions of a sequence, and the prologue of its unit. -/
structure Listing where
  prologue : Prologue
  instructions : List Instruction

namespace Listing

/-- Whether the sequence has a row. -/
def hasRows (listing : Listing) : Bool :=
  listing.instructions.any (·.appendsRow)

/-- The rows of the sequence under a policy. -/
def rows
    (constAddPc : ConstAddPc)
    (listing : Listing) :
    List Row :=
  (Registers.initial listing.prologue.header.defaultIsStatement).rows
    listing.prologue.header constAddPc listing.instructions

/-- The table of the sequence under a policy, if the sequence has rows. -/
def table?
    (constAddPc : ConstAddPc)
    (listing : Listing) :
    Option LineTable :=
  LineTable.ofRows? listing.prologue.directories listing.prologue.files
    (listing.rows constAddPc)

end Listing

namespace LineSection

/-- The sequences that the unit in a frame completes. -/
def frameListings
    (order : ByteOrder)
    (frame : Frame) :
    List Listing :=
  match Prologue.read frame.claimed (.ofBytes order frame.body) with
  | .error _ _ => []
  | .ok prologue program =>
      (Sequences.listed prologue.header program).map fun instructions =>
        { prologue := prologue, instructions := instructions }

/-- The sequences that the units of a section complete, in the order of the section. -/
def listings
    (order : ByteOrder)
    (data : Bytes) :
    List Listing :=
  (Framing.ofBytes order data).frames.flatMap (frameListings order)

/--
The instructions of the listing are those of a sequence that stands in the program of a
unit, and its prologue is the one of this unit.
-/
def StandsIn
    (order : ByteOrder)
    (data : Bytes)
    (listing : Listing) :
    Prop :=
  ∃ frame ∈ (Framing.ofBytes order data).frames,
    ∃ program earlier later,
      Prologue.read frame.claimed (.ofBytes order frame.body) = .ok listing.prologue program ∧
        Sequences.Stand listing.prologue.header program
          (earlier ++ listing.instructions :: later)

theorem standsIn_of_mem_listings
    {order : ByteOrder}
    {data : Bytes}
    {listing : Listing}
    (member : listing ∈ listings order data) :
    StandsIn order data listing := by
  obtain ⟨frame, inSection, inFrame⟩ := List.mem_flatMap.mp member
  unfold frameListings at inFrame
  split at inFrame
  · cases inFrame
  · next prologue program read =>
      obtain ⟨instructions, isListed, rfl⟩ := List.mem_map.mp inFrame
      obtain ⟨earlier, later, split⟩ := List.append_of_mem isListed
      refine ⟨frame, inSection, program, earlier, later, read, ?_⟩
      show Sequences.Stand prologue.header program (earlier ++ instructions :: later)
      rw [← split]
      exact Sequences.stand_listed prologue.header program

variable
  (order : ByteOrder)
  (constAddPc : ConstAddPc)

/-- Under each policy, a frame has the tables of its listings, and the same warnings. -/
theorem ofFrame_eq_listings (frame : Frame) :
    (ofFrame order constAddPc frame).tables =
        (frameListings order frame).filterMap (·.table? constAddPc) ∧
      (ofFrame order constAddPc frame).warnings = (ofFrame order .ignore frame).warnings := by
  unfold ofFrame frameListings
  cases Prologue.read frame.claimed (.ofBytes order frame.body) with
  | error cause stopped =>
      exact ⟨rfl, rfl⟩
  | ok prologue program =>
      obtain ⟨sameRows, sameFailure⟩ :=
        Sequences.run_eq_listed prologue.header program constAddPc
      simp only [sameRows, sameFailure, tablesOf, List.filterMap_map]
      exact ⟨rfl, trivial⟩

/-- Under each policy, a section has the tables of its listings, and the same warnings. -/
theorem decode_eq_listings (data : Bytes) :
    (decode order constAddPc data).tables =
        (listings order data).filterMap (·.table? constAddPc) ∧
      (decode order constAddPc data).warnings = (decode order .ignore data).warnings := by
  have sameFrames := ofFrame_eq_listings order constAddPc
  constructor
  · simp only [decode, listings, List.flatMap_map, (sameFrames _).1, List.filterMap_flatMap]
  · simp only [decode, List.flatMap_map, (sameFrames _).2]

end LineSection

/-- The tables of a sequence without its constant advances and with them. -/
structure LineTable.Moved
    (listing : Listing)
    (ignored standard : LineTable) :
    Prop where
  directories : standard.directories = ignored.directories
  files : standard.files = ignored.files
  sameCount : standard.rows.length = ignored.rows.length
  rows :
    List.Forall₂
      (fun executed rows => Row.Moved listing.prologue.header executed rows.1 rows.2)
      (upToRows listing.instructions)
      (ignored.rows.zip standard.rows)

namespace Listing

variable
  {listing : Listing}

theorem rows_eq_nil_iff
    {constAddPc : ConstAddPc} :
    listing.rows constAddPc = [] ↔ listing.hasRows = false := by
  rw [rows, Registers.rows_eq_map_upToRows, List.map_eq_nil_iff, upToRows_eq_nil_iff, hasRows]

theorem table?_of_not_hasRows
    {constAddPc : ConstAddPc}
    (empty : listing.hasRows = false) :
    listing.table? constAddPc = none := by
  rw [table?, LineTable.ofRows?, dif_neg (not_not.mpr (rows_eq_nil_iff.mpr empty))]

/-- A sequence with rows gives a table under both policies, and the one is moved from the other. -/
theorem tables_of_hasRows
    (nonempty : listing.hasRows = true) :
    ∃ ignored standard,
      listing.table? .ignore = some ignored ∧
        listing.table? .standard = some standard ∧
        LineTable.Moved listing ignored standard := by
  have present (constAddPc : ConstAddPc) : listing.rows constAddPc ≠ [] := by
    rw [Ne, rows_eq_nil_iff, nonempty]
    simp
  have sameCount : (listing.rows .standard).length = (listing.rows .ignore).length := by
    rw [rows, rows, Registers.rows_eq_map_upToRows, Registers.rows_eq_map_upToRows,
      List.length_map, List.length_map]
  exact ⟨_, _, dif_pos (present .ignore), dif_pos (present .standard), rfl, rfl, sameCount,
    Registers.rows_moved _ _ _⟩

/-- The tables of both policies, sequence by sequence. -/
theorem tables_moved (listings : List Listing) :
    (listings.filterMap (·.table? .standard)).length =
        (listings.filterMap (·.table? .ignore)).length ∧
      List.Forall₂ (fun listing tables => LineTable.Moved listing tables.1 tables.2)
        (listings.filter (·.hasRows))
        ((listings.filterMap (·.table? .ignore)).zip
          (listings.filterMap (·.table? .standard))) := by
  induction listings with
  | nil =>
      exact ⟨rfl, .nil⟩
  | cons listing later inductionHypothesis =>
      obtain ⟨sameCount, laterMoved⟩ := inductionHypothesis
      cases present : listing.hasRows with
      | false =>
          simp only [List.filterMap_cons, table?_of_not_hasRows present, List.filter_cons, present]
          exact ⟨sameCount, laterMoved⟩
      | true =>
          obtain ⟨ignored, standard, ignoredTable, standardTable, moved⟩ :=
            tables_of_hasRows present
          simp only [List.filterMap_cons, ignoredTable, standardTable, List.filter_cons, present,
            List.length_cons, List.zip_cons_cons]
          exact ⟨congrArg (· + 1) sameCount, .cons moved laterMoved⟩

end Listing

/--
Constant advances change addresses only. Under both policies a section has the same
warnings and one table for each sequence with rows, and the tables at the same place
differ by what the constant advances of their sequence amount to. The sequences are those
that stand in the section.
-/
theorem LineSection.decode_moved
    (order : ByteOrder)
    (data : Bytes) :
    (decode order .standard data).warnings = (decode order .ignore data).warnings ∧
      (decode order .standard data).tables.length = (decode order .ignore data).tables.length ∧
      List.Forall₂ (fun listing tables => LineTable.Moved listing tables.1 tables.2)
        ((listings order data).filter (·.hasRows))
        ((decode order .ignore data).tables.zip (decode order .standard data).tables) ∧
      ∀ listing ∈ listings order data, StandsIn order data listing := by
  obtain ⟨standardTables, sameWarnings⟩ := decode_eq_listings order .standard data
  obtain ⟨ignoredTables, -⟩ := decode_eq_listings order .ignore data
  rw [standardTables, ignoredTables]
  obtain ⟨sameCount, moved⟩ := Listing.tables_moved (listings order data)
  exact ⟨sameWarnings, sameCount, moved, fun listing => standsIn_of_mem_listings⟩

end LineAtlas
