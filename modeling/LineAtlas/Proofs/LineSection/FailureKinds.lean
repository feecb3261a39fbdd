import LineAtlas.Proofs.LineProgram.InstructionFailures
import LineAtlas.Proofs.LineSection.PrologueFailures
import LineAtlas.Proofs.LineSection.Shape
import LineAtlas.Proofs.LineSection.Tiling

namespace LineAtlas

open Framing

/-!
# Kinds of failures

The kind of a warning is chosen by the cause and not by the place of the failure. All
the same it tells the place, as long as the cause is no want of bytes: what comes before
the first opcode contradicts itself and is a malformed header, and what comes after it
has an operand that is too large and is a malformed program.

There is one exception. A number of a file that is too large has the same cause as an
operand of the program, so its unit is said to have a malformed program, although none
of its opcodes is executed.
-/

namespace Sequences

/-- A program fails with what one of its instructions fails with. -/
theorem ofOperand_of_failure
    {header : LineProgram.Header}
    {constAddPc : ConstAddPc}
    {program : Cursor}
    (roomy : program.Roomy)
    {cause : ReadError}
    (failure : (run header constAddPc program).failure = some cause) :
    cause.OfOperand := by
  fun_induction run header constAddPc program with
  | case1 program ended =>
      cases failure
  | case2 program notEnded other stopped failed =>
      cases failure
      exact (LineProgram.failsWith_runSequence header constAddPc).among program cause stopped
        roomy failed
  | case3 program notEnded rows after ran later inductionHypothesis =>
      obtain ⟨placed, sameData, -⟩ :=
        (LineProgram.local_runSequence header constAddPc).keeps roomy.toPlaced ran
      exact inductionHypothesis (roomy.keep placed (congrArg List.length sameData)) failure

end Sequences

namespace LineSection

variable
  {order : ByteOrder}
  {constAddPc : ConstAddPc}

/-! ## From causes to kinds -/

/-- A failure for want of bytes is reported as such, wherever it happens. -/
theorem kind_unitWarning_of_isTruncation
    {cause : ReadError}
    (short : cause.isTruncation = true)
    (offset : Nat) :
    (unitWarning offset cause).kind = .truncatedSection := by
  simp [unitWarning, Warning.ofError, Warning.kindOfError, short]

theorem kind_unitWarning_of_isStructural
    {cause : ReadError}
    (structural : cause.isStructural = true)
    (offset : Nat) :
    (unitWarning offset cause).kind = .malformedHeader := by
  cases cause <;> first | rfl | cases structural

theorem kind_unitWarning_of_isNumeric
    {cause : ReadError}
    (numeric : cause.isNumeric = true)
    (offset : Nat) :
    (unitWarning offset cause).kind = .malformedProgram := by
  cases cause <;> first | rfl | cases numeric

/-! ## Where a unit fails -/

/-- The prologue of a unit can be read, but its program stops for the given cause. -/
def FailsInProgram
    (order : ByteOrder)
    (constAddPc : ConstAddPc)
    (bytes : Bytes)
    (cause : WarningCause) :
    Prop :=
  ∃ claimed body prologue error,
    StartsUnit order bytes claimed body ∧
      Prologue.Opens order (UInt32.ofNat claimed) body prologue ∧
      (Sequences.run prologue.header constAddPc (prologue.programCursor order body)).failure =
        some error ∧
      cause = .failure error

/-- No unit with a prologue stands at the start of some bytes, so that no opcode is executed. -/
def NeverStarts
    (order : ByteOrder)
    (bytes : Bytes) :
    Prop :=
  ∀ claimed body prologue,
    StartsUnit order bytes claimed body →
      ¬ Prologue.Opens order (UInt32.ofNat claimed) body prologue

/-- The prologue of a unit cannot be read because a number of its file list is too large. -/
def FileNumberTooLarge
    (order : ByteOrder)
    (bytes : Bytes) :
    Prop :=
  ∃ claimed body,
    StartsUnit order bytes claimed body ∧
      Prologue.FileNumberTooLarge order (UInt32.ofNat claimed) body

/-- How a unit fails if not for want of bytes, with the kind and the cause of its warning. -/
inductive Fault
    (order : ByteOrder)
    (constAddPc : ConstAddPc)
    (bytes : Bytes) :
    WarningKind → WarningCause → Prop where
  /-- The length field announces a unit with 64-bit lengths. -/
  | wide
      (unannounced : ∀ claimed body, ¬ StartsUnit order bytes claimed body) :
      Fault order constAddPc bytes .malformedHeader .wideUnit
  /-- The header or a list contradicts itself, or the program starts outside of the unit. -/
  | prologue
      {claimed : Nat}
      {body : Bytes}
      {cause : ReadError}
      {stopped : Cursor}
      (starts : StartsUnit order bytes claimed body)
      (failed :
        Prologue.read (UInt32.ofNat claimed) (.ofBytes order body) = .error cause stopped)
      (structural : cause.isStructural = true) :
      Fault order constAddPc bytes .malformedHeader (.failure cause)
  /-- A number of a file is too large. -/
  | fileNumber
      (tooLarge : FileNumberTooLarge order bytes) :
      Fault order constAddPc bytes .malformedProgram (.failure Base128.unsignedOverflow)
  /-- An instruction of the program cannot be read. -/
  | program
      {cause : WarningCause}
      (fails : FailsInProgram order constAddPc bytes cause) :
      Fault order constAddPc bytes .malformedProgram cause

section Fault

variable
  {bytes body : Bytes}
  {claimed : Nat}

/-- No offset in a unit overflows an address, since its length is a 32-bit number. -/
theorem roomy_of_startsUnit
    (starts : StartsUnit order bytes claimed body) :
    (Cursor.ofBytes order body).Roomy := by
  have short : body.length + 4 < addressLimit :=
    Nat.lt_trans (Nat.add_lt_add_right starts.length_lt 4) (by decide)
  exact ⟨Cursor.placed_ofBytes (by omega), short⟩

/-- A unit whose prologue cannot be read fails before its program. -/
theorem fault_of_read
    (starts : StartsUnit order bytes claimed body)
    {cause : ReadError}
    {stopped : Cursor}
    (failed : Prologue.read (UInt32.ofNat claimed) (.ofBytes order body) = .error cause stopped)
    (notShort : ¬ cause.isTruncation = true)
    (offset : Nat) :
    Fault order constAddPc bytes (unitWarning offset cause).kind (.failure cause) := by
  have roomy := roomy_of_startsUnit starts
  rcases Prologue.ofFiles_of_read roomy failed with (short | structural) | rfl
  · exact (notShort short).elim
  · rw [kind_unitWarning_of_isStructural structural]
    exact .prologue starts failed structural
  · exact .fileNumber ⟨claimed, body, starts,
      (Prologue.read_eq_unsignedOverflow_iff roomy).mp ⟨stopped, failed⟩⟩

/-- A unit whose prologue can be read fails in its program. -/
theorem fault_of_failure
    (starts : StartsUnit order bytes claimed body)
    {prologue : Prologue}
    (opens : prologue.Opens order (UInt32.ofNat claimed) body)
    {cause : ReadError}
    (failure :
      (Sequences.run prologue.header constAddPc (prologue.programCursor order body)).failure =
        some cause)
    (notShort : ¬ cause.isTruncation = true)
    (offset : Nat) :
    Fault order constAddPc bytes (unitWarning offset cause).kind (.failure cause) := by
  have bodyRoomy := roomy_of_startsUnit starts
  have roomy : (prologue.programCursor order body).Roomy :=
    ⟨opens.placed bodyRoomy.size_lt, bodyRoomy.room⟩
  rcases Sequences.ofOperand_of_failure roomy failure with short | numeric
  · exact (notShort short).elim
  · rw [kind_unitWarning_of_isNumeric numeric]
    exact .program ⟨claimed, body, prologue, cause, starts, opens, failure, rfl⟩

/-- A frame that holds less than it claims is reported as cut. -/
theorem kind_of_mem_cutFailure
    {frame : Frame}
    {offset : Nat}
    {warning : Warning}
    (member : warning ∈ ((cutFailure? frame).map (unitWarning offset)).toList) :
    warning.kind = .truncatedSection := by
  unfold cutFailure? at member
  split at member
  · rw [Option.map_some, Option.toList_some, List.mem_singleton] at member
    subst member
    rfl
  · cases member

theorem fault_of_mem_ofFrame
    (starts : StartsUnit order bytes claimed body)
    {offset : Nat}
    {warning : Warning}
    (member :
      warning ∈ (ofFrame order constAddPc {
        offset := offset
        claimed := UInt32.ofNat claimed
        body := body
      }).warnings)
    (notShort : warning.kind ≠ .truncatedSection) :
    warning.offset = offset ∧ Fault order constAddPc bytes warning.kind warning.cause := by
  have fits : body.length < addressLimit :=
    (roomy_of_startsUnit starts).size_lt
  cases outcome : Prologue.read (UInt32.ofNat claimed) (.ofBytes order body) with
  | error cause stopped =>
      simp only [ofFrame, outcome, List.mem_singleton] at member
      subst member
      have notTruncation := mt (kind_unitWarning_of_isTruncation · offset) notShort
      exact ⟨rfl, fault_of_read starts outcome notTruncation offset⟩
  | ok prologue program =>
      obtain ⟨opens, rfl⟩ := (Prologue.read_eq_ok_iff fits).mp outcome
      rw [ofFrame_opens offset fits opens rfl] at member
      cases failure :
          (Sequences.run prologue.header constAddPc (prologue.programCursor order body)).failure with
      | none =>
          rw [failure, Option.none_or] at member
          exact (notShort (kind_of_mem_cutFailure member)).elim
      | some cause =>
          rw [failure, Option.some_or, Option.map_some, Option.toList_some,
            List.mem_singleton] at member
          subst member
          have notTruncation := mt (kind_unitWarning_of_isTruncation · offset) notShort
          exact ⟨rfl, fault_of_failure starts opens failure notTruncation offset⟩

/-- What is reported about the units from a cursor on. -/
def warningsFrom
    (constAddPc : ConstAddPc)
    (cursor : Cursor) :
    List Warning :=
  ((ofCursor cursor).frames.flatMap
      fun frame => (ofFrame cursor.order constAddPc frame).warnings) ++
    (ofCursor cursor).stopped.toList

theorem warnings_decode
    (order : ByteOrder)
    (constAddPc : ConstAddPc)
    (data : Bytes) :
    (decode order constAddPc data).warnings =
      warningsFrom constAddPc (.ofBytes order data) := by
  simp only [decode, Framing.ofBytes, List.flatMap_map]
  rfl

/-- The length field at which a section stops is cut, whatever the failure of the read. -/
theorem kind_ofError_truncatedSection
    (name : String)
    (offset : Nat)
    (cause : ReadError) :
    (Warning.ofError name offset .truncatedSection cause).kind = .truncatedSection := by
  simp [Warning.ofError, Warning.kindOfError]

/-- Every warning that is not for want of bytes stands for a fault of its unit. -/
theorem fault_of_mem_warningsFrom
    (cursor : Cursor)
    {warning : Warning}
    (member : warning ∈ warningsFrom constAddPc cursor)
    (notShort : warning.kind ≠ .truncatedSection) :
    Fault cursor.order constAddPc (cursor.data.drop warning.offset) warning.kind
      warning.cause := by
  unfold warningsFrom at member
  fun_induction ofCursor cursor with
  | case1 cursor ended =>
      cases member
  | case2 cursor notEnded cause stopped failed =>
      rw [List.flatMap_nil, List.nil_append, Option.toList_some, List.mem_singleton] at member
      subst member
      exact (notShort (kind_ofError_truncatedSection _ _ _)).elim
  | case3 cursor notEnded body read =>
      rw [List.flatMap_nil, List.nil_append, Option.toList_some, List.mem_singleton] at member
      subst member
      exact .wide (not_startsUnit_of_uint32 read)
  | case4 cursor notEnded claimed body read narrow frame later inductionHypothesis =>
      rw [List.flatMap_cons, List.append_assoc] at member
      rcases List.mem_append.mp member with ofThis | ofLater
      · have starts := startsUnit_of_uint32 read narrow
        have sameFrame :
            frame = {
              offset := cursor.position
              claimed := UInt32.ofNat claimed.toNat
              body := body.rest.take claimed.toNat
            } := by
          rw [UInt32.ofNat_toNat]
          rfl
        rw [sameFrame] at ofThis
        obtain ⟨sameOffset, fault⟩ := fault_of_mem_ofFrame starts ofThis notShort
        rwa [sameOffset]
      · obtain ⟨-, -, -, -, -, rfl⟩ := Reader.exists_rest_of_field read
        exact inductionHypothesis ofLater

/-- A unit whose prologue cannot be read never starts its program. -/
theorem neverStarts_of_read
    (starts : StartsUnit order bytes claimed body)
    {cause : ReadError}
    {stopped : Cursor}
    (failed : Prologue.read (UInt32.ofNat claimed) (.ofBytes order body) = .error cause stopped) :
    NeverStarts order bytes := by
  intro other otherBody prologue otherStarts opens
  obtain ⟨rfl, rfl⟩ := starts.unique otherStarts
  have fits : otherBody.length < addressLimit :=
    (roomy_of_startsUnit starts).size_lt
  have read := (Prologue.read_eq_ok_iff fits).mpr ⟨opens, rfl⟩
  rw [failed] at read
  cases read

/-- A contradiction in a prologue is no number that is too large. -/
theorem not_fileNumberTooLarge_of_read
    (starts : StartsUnit order bytes claimed body)
    {cause : ReadError}
    {stopped : Cursor}
    (failed : Prologue.read (UInt32.ofNat claimed) (.ofBytes order body) = .error cause stopped)
    (structural : cause.isStructural = true) :
    ¬ FileNumberTooLarge order bytes := by
  rintro ⟨other, otherBody, otherStarts, tooLarge⟩
  obtain ⟨rfl, rfl⟩ := starts.unique otherStarts
  obtain ⟨otherStopped, overflows⟩ :=
    (Prologue.read_eq_unsignedOverflow_iff (roomy_of_startsUnit starts)).mpr tooLarge
  rw [failed] at overflows
  cases overflows
  cases structural

namespace Fault

variable
  {kind : WarningKind}
  {cause : WarningCause}

/-- What is reported as a malformed program is one, or a file list with a number that is too large. -/
theorem malformedProgram_iff
    (fault : Fault order constAddPc bytes kind cause) :
    kind = .malformedProgram ↔
      FailsInProgram order constAddPc bytes cause ∨ FileNumberTooLarge order bytes := by
  cases fault with
  | wide unannounced =>
      refine ⟨nofun, ?_⟩
      rintro (⟨claimed, body, prologue, error, starts, -⟩ | ⟨claimed, body, starts, -⟩)
      · exact (unannounced claimed body starts).elim
      · exact (unannounced claimed body starts).elim
  | prologue starts failed structural =>
      refine ⟨nofun, ?_⟩
      rintro (⟨claimed, body, prologue, error, otherStarts, opens, -⟩ | tooLarge)
      · exact (neverStarts_of_read starts failed claimed body prologue otherStarts opens).elim
      · exact (not_fileNumberTooLarge_of_read starts failed structural tooLarge).elim
  | fileNumber tooLarge =>
      exact ⟨fun _ => .inr tooLarge, fun _ => rfl⟩
  | program fails =>
      exact ⟨fun _ => .inl fails, fun _ => rfl⟩

/-- What is reported as a malformed header failed before the first opcode. -/
theorem malformedHeader_iff
    (fault : Fault order constAddPc bytes kind cause) :
    kind = .malformedHeader ↔
      NeverStarts order bytes ∧ ¬ FileNumberTooLarge order bytes := by
  cases fault with
  | wide unannounced =>
      refine ⟨fun _ => ⟨?_, ?_⟩, fun _ => rfl⟩
      · intro claimed body prologue starts
        exact (unannounced claimed body starts).elim
      · rintro ⟨claimed, body, starts, -⟩
        exact unannounced claimed body starts
  | prologue starts failed structural =>
      refine ⟨fun _ => ⟨?_, ?_⟩, fun _ => rfl⟩
      · exact neverStarts_of_read starts failed
      · exact not_fileNumberTooLarge_of_read starts failed structural
  | fileNumber tooLarge =>
      exact ⟨nofun, fun never => (never.2 tooLarge).elim⟩
  | program fails =>
      obtain ⟨claimed, body, prologue, error, starts, opens, -⟩ := fails
      exact ⟨nofun, fun never => (never.1 claimed body prologue starts opens).elim⟩

end Fault

end Fault

/--
The kind of each warning that is not for want of bytes tells the place of the failure:
a malformed program failed in its program, and a malformed header before the first
opcode, unless a number of the file list is too large.
-/
theorem kind_of_mem_decode
    (order : ByteOrder)
    (constAddPc : ConstAddPc)
    {data : Bytes}
    {warning : Warning}
    (member : warning ∈ (decode order constAddPc data).warnings)
    (notShort : warning.kind ≠ .truncatedSection) :
    (warning.kind = .malformedProgram ↔
        FailsInProgram order constAddPc (data.drop warning.offset) warning.cause ∨
          FileNumberTooLarge order (data.drop warning.offset)) ∧
      (warning.kind = .malformedHeader ↔
        NeverStarts order (data.drop warning.offset) ∧
          ¬ FileNumberTooLarge order (data.drop warning.offset)) := by
  rw [warnings_decode] at member
  have fault := fault_of_mem_warningsFrom (.ofBytes order data) member notShort
  exact ⟨fault.malformedProgram_iff, fault.malformedHeader_iff⟩

/-- A unit with an operand that is too large, and the mark of a unit with 64-bit lengths. -/
def faultySection : Bytes :=
  [24, 0, 0, 0, 2, 0, 7, 0, 0, 0, 1, 1, 0, 1, 1, 0, 0]
    ++ [2, 255, 255, 255, 255, 255, 255, 255, 255, 255, 2]
    ++ [255, 255, 255, 255]

theorem kind_of_mem_decode_faultySection :
    (decode .little .standard faultySection).warnings =
        [unitWarning 0 Base128.unsignedOverflow, wideWarning 28] ∧
      (FailsInProgram .little .standard faultySection (.failure Base128.unsignedOverflow) ∨
        FileNumberTooLarge .little faultySection) ∧
      NeverStarts .little (faultySection.drop 28) ∧
      ¬ FileNumberTooLarge .little (faultySection.drop 28) := by
  have warned :
      (decode .little .standard faultySection).warnings =
        [unitWarning 0 Base128.unsignedOverflow, wideWarning 28] := by
    decide +kernel
  have program :
      unitWarning 0 Base128.unsignedOverflow ∈ (decode .little .standard faultySection).warnings := by
    simp [warned]
  have header : wideWarning 28 ∈ (decode .little .standard faultySection).warnings := by
    simp [warned]
  exact ⟨warned, (kind_of_mem_decode .little .standard program (by decide)).1.mp rfl,
    (kind_of_mem_decode .little .standard header (by decide)).2.mp rfl⟩

/-- A unit whose file names a directory by a number that is too large. -/
def overflowingFile : Bytes :=
  [31, 0, 0, 0, 2, 0, 21, 0, 0, 0, 1, 1, 0, 1, 1, 0]
    ++ [97, 0, 255, 255, 255, 255, 255, 255, 255, 255, 255, 2, 0, 0, 0]
    ++ [1, 0, 1, 1]

/-- No opcode is executed, and the warning blames the program all the same. -/
theorem kind_overflowingFile :
    (decode .little .ignore overflowingFile).warnings =
        [unitWarning 0 Base128.unsignedOverflow] ∧
      (unitWarning 0 Base128.unsignedOverflow).kind = .malformedProgram ∧
      NeverStarts .little overflowingFile ∧
      ∀ cause, ¬ FailsInProgram .little .ignore overflowingFile cause := by
  have announced : Announces .little (overflowingFile.take 4) 31 :=
    { size := rfl, number := rfl, narrow := by decide }
  have starts : StartsUnit .little overflowingFile 31 (overflowingFile.drop 4) :=
    ⟨overflowingFile.take 4, overflowingFile.drop 4, rfl, announced, rfl⟩
  have never : NeverStarts .little overflowingFile := by
    cases outcome : Prologue.read 31 (.ofBytes .little (overflowingFile.drop 4)) with
    | error cause stopped =>
        exact neverStarts_of_read starts outcome
    | ok prologue program =>
        have failed :
            (Prologue.read 31).run' (.ofBytes .little (overflowingFile.drop 4)) = none := by
          decide +kernel
        delta EStateM.run' EStateM.run at failed
        rw [outcome] at failed
        cases failed
  refine ⟨?_, rfl, never, ?_⟩
  · decide +kernel
  · rintro cause ⟨claimed, body, prologue, error, otherStarts, opens, -⟩
    exact never claimed body prologue otherStarts opens

end LineSection

end LineAtlas
