import LineAtlas.Proofs.LineSection.Accounting
import LineAtlas.Proofs.LineSection.FailureKinds
import LineAtlas.Proofs.LineSection.Truncation

namespace LineAtlas

open Framing

/-!
# What is reported about a section that is cut

A section without warnings that is cut inside a unit leaves one warning, at the unit
that is cut. Wherever the cut falls, what fails is a read for want of bytes, or the
unit holds less than it claims, and the warning says that the section is truncated.

There is one exception. Where the header and the lists are complete and the cut falls
into the padding before the program, the program is said to start outside of the unit,
and the warning blames the header.
-/

namespace Prologue

/--
The header and both lists can be read from the front of a unit, but the front ends
before the first opcode.
-/
structure EndsInPadding
    (order : ByteOrder)
    (unitLength : UInt32)
    (front : Bytes)
    (prologue : Prologue) :
    Prop where
  readable : ∃ stopped, readParts unitLength (.ofBytes order front) = .ok prologue stopped
  outside : front.length < 6 + prologue.header.prologueLength.toNat

variable
  {order : ByteOrder}
  {unitLength : UInt32}
  {front more : Bytes}
  {prologue : Prologue}

/-- The failure of a unit that ends before its program starts. -/
def outsideFailure (header : LineProgram.Header) : ReadError :=
  .invalidStructure "line program header" header.programOffset
    "prologue_length points past the unit"

/-- A unit that ends in the padding is read up to the start of its program, which is outside. -/
theorem read_of_endsInPadding
    (fits : front.length < addressLimit)
    (ends : EndsInPadding order unitLength front prologue) :
    ∃ stopped,
      read unitLength (.ofBytes order front) =
        .error (outsideFailure prologue.header) stopped := by
  obtain ⟨⟨stopped, partsRead⟩, outside⟩ := ends
  obtain ⟨-, sameData, -⟩ :=
    (local_readParts unitLength).keeps (Cursor.placed_ofBytes fits) partsRead
  have past : stopped.size < prologue.header.programOffset := by
    rwa [Cursor.size, sameData]
  refine ⟨stopped, ?_⟩
  rw [read_eq_readParts, Reader.bind_of_ok partsRead]
  refine bind_eq_error_iff.mpr (.inl ?_)
  rw [seekProgram, if_pos past]
  rfl

/--
The front of a unit with a prologue has the same prologue, or ends in the padding, or
is too short for the parts of the prologue.
-/
theorem opens_or_ends_of_cut
    (fits : front.length + more.length < addressLimit)
    (opens : prologue.Opens order unitLength (front ++ more)) :
    prologue.Opens order unitLength front ∨
      EndsInPadding order unitLength front prologue ∨
        ∃ cause stopped,
          read unitLength (.ofBytes order front) = .error cause stopped ∧
            cause.isTruncation = true := by
  have placed : (Cursor.ofBytes order front).Placed :=
    Cursor.placed_ofBytes (by omega)
  obtain ⟨⟨whole, wholeRead⟩, -⟩ := opens_iff_readParts.mp opens
  cases outcome : readParts unitLength (.ofBytes order front) with
  | error cause stopped =>
      have short :=
        (failsWith_readParts unitLength).truncates _ more _ _ _ _ placed fits wholeRead outcome
      refine .inr (.inr ⟨cause, stopped, ?_, short⟩)
      rw [read_eq_readParts]
      exact bind_eq_error_iff.mpr (.inl outcome)
  | ok found stopped =>
      obtain ⟨-, -, again⟩ :=
        (local_readParts unitLength).extends _ more _ _ placed fits outcome
      cases wholeRead.symm.trans again
      by_cases inside : 6 + prologue.header.prologueLength.toNat ≤ front.length
      · exact .inl (opens_iff_readParts.mpr ⟨⟨stopped, outcome⟩, inside⟩)
      · exact .inr (.inl ⟨⟨stopped, outcome⟩, Nat.lt_of_not_le inside⟩)

end Prologue

namespace Sequences

variable
  {header : LineProgram.Header}
  {constAddPc : ConstAddPc}
  {program : Cursor}
  {more : Bytes}

/-- A program that has begun and does not fail begins with a sequence. -/
theorem exists_ok_of_noFailure
    (started : program.rest ≠ [])
    (noFailure : (run header constAddPc program).failure = none) :
    ∃ rows after, LineProgram.runSequence header constAddPc program = .ok rows after := by
  rw [run, if_neg (mt Cursor.atEnd_iff.mp started)] at noFailure
  split at noFailure
  · cases noFailure
  · next rows after ran =>
      exact ⟨rows, after, ran⟩

/-- A program that runs to its end, when it is cut, runs to the cut or fails for want of bytes. -/
theorem isTruncation_of_cut
    (placed : program.Placed)
    (fits : program.size + more.length < addressLimit)
    (noFailure : (run header constAddPc (program.extend more)).failure = none)
    {cause : ReadError}
    (failure : (run header constAddPc program).failure = some cause) :
    cause.isTruncation = true := by
  fun_induction run header constAddPc program with
  | case1 program ended =>
      cases failure
  | case2 program notEnded other stopped failed =>
      cases failure
      obtain ⟨rows, after, ran⟩ :=
        exists_ok_of_noFailure (started_extend placed notEnded) noFailure
      exact (LineProgram.failsWith_runSequence header constAddPc).truncates program more rows after
        cause stopped placed fits ran failed
  | case3 program notEnded rows after ran later inductionHypothesis =>
      obtain ⟨afterPlaced, sameSize, sameRun⟩ := run_extend_of_ok placed fits notEnded ran
      rw [sameRun] at noFailure
      rw [← sameSize] at fits
      exact inductionHypothesis afterPlaced fits noFailure failure

end Sequences

namespace LineSection

variable
  {order : ByteOrder}
  {constAddPc : ConstAddPc}

/-- A unit that is cut between its lists and its program. -/
def CutInPadding
    (order : ByteOrder)
    (bytes : Bytes) :
    Prop :=
  ∃ claimed body prologue,
    StartsUnit order bytes claimed body ∧
      Prologue.EndsInPadding order (UInt32.ofNat claimed) body prologue

/--
There is one warning, at the given offset, for a unit of which only `bytes` are left.
It says that the section is truncated, unless the unit is cut in its padding.
-/
def WarnsOfCut
    (order : ByteOrder)
    (bytes : Bytes)
    (offset : Nat)
    (warnings : List Warning) :
    Prop :=
  ∃ warning,
    warnings = [warning] ∧
      warning.offset = offset ∧
      (CutInPadding order bytes → warning.kind = .malformedHeader) ∧
      (¬ CutInPadding order bytes → warning.kind = .truncatedSection)

/-- A failure for want of bytes, at a place that is not the padding. -/
theorem warnsOfCut_of_isTruncation
    {bytes : Bytes}
    {cause : ReadError}
    (short : cause.isTruncation = true)
    (notPadding : ¬ CutInPadding order bytes)
    (offset : Nat) :
    WarnsOfCut order bytes offset [unitWarning offset cause] :=
  ⟨_, rfl, rfl, fun padding => (notPadding padding).elim,
    fun _ => kind_unitWarning_of_isTruncation short offset⟩

section Unit

variable
  {bytes front more : Bytes}
  {claimed : UInt32}

/-- A frame without a warning is whole, and its program runs to its end. -/
theorem exists_opens_of_quiet
    {offset : Nat}
    (fits : front.length < addressLimit)
    (quiet :
      (ofFrame order constAddPc
        { offset := offset, claimed := claimed, body := front }).warnings = []) :
    claimed.toNat ≤ front.length ∧
      ∃ prologue : Prologue,
        prologue.Opens order claimed front ∧
          (Sequences.run prologue.header constAddPc
            (prologue.programCursor order front)).failure = none := by
  by_cases opened : ∃ prologue : Prologue, prologue.Opens order claimed front
  · obtain ⟨prologue, opens⟩ := opened
    rw [ofFrame_opens offset fits opens rfl, Option.toList_eq_nil_iff, Option.map_eq_none_iff,
      Option.or_eq_none_iff, cutFailure?] at quiet
    obtain ⟨noFailure, notCut⟩ := quiet
    refine ⟨?_, prologue, opens, noFailure⟩
    by_contra short
    rw [if_pos (by simpa [Frame.isCut] using short)] at notCut
    cases notCut
  · obtain ⟨cause, decoded⟩ :=
      ofFrame_closed constAddPc offset fits fun prologue opens => opened ⟨prologue, opens⟩
    rw [decoded] at quiet
    cases quiet

/-- A prologue that does not end outside of its unit does not end in the padding. -/
theorem not_cutInPadding
    (fits : front.length < addressLimit)
    (starts : StartsUnit order bytes claimed.toNat front)
    (notOutside :
      ∀ header stopped,
        Prologue.read claimed (.ofBytes order front) ≠
          .error (Prologue.outsideFailure header) stopped) :
    ¬ CutInPadding order bytes := by
  rintro ⟨other, body, prologue, otherStarts, ends⟩
  obtain ⟨rfl, rfl⟩ := starts.unique otherStarts
  rw [UInt32.ofNat_toNat] at ends
  obtain ⟨stopped, failed⟩ := Prologue.read_of_endsInPadding fits ends
  exact notOutside _ _ failed

/-- A unit without a warning, when its end is missing, gives the warning of a cut. -/
theorem warnsOfCut_ofFrame
    {offset : Nat}
    (fits : front.length + more.length < addressLimit)
    (starts : StartsUnit order bytes claimed.toNat front)
    (quiet :
      (ofFrame order constAddPc
        { offset := offset, claimed := claimed, body := front ++ more }).warnings = [])
    (short : front.length < claimed.toNat) :
    WarnsOfCut order bytes offset
      (ofFrame order constAddPc
        { offset := offset, claimed := claimed, body := front }).warnings := by
  have frontFits : front.length < addressLimit := by
    omega
  obtain ⟨-, prologue, opens, noFailure⟩ :=
    exists_opens_of_quiet (by rwa [List.length_append]) quiet
  rcases Prologue.opens_or_ends_of_cut fits opens with
    frontOpens | ends | ⟨cause, stopped, failed, truncation⟩
  · have read := (Prologue.read_eq_ok_iff frontFits).mpr ⟨frontOpens, rfl⟩
    have notPadding : ¬ CutInPadding order bytes := by
      refine not_cutInPadding frontFits starts fun header stopped outside => ?_
      rw [read] at outside
      cases outside
    rw [ofFrame_opens offset frontFits frontOpens rfl]
    cases failure :
        (Sequences.run prologue.header constAddPc (prologue.programCursor order front)).failure with
    | none =>
        rw [Option.none_or, cutFailure?, if_pos]
        · exact warnsOfCut_of_isTruncation rfl notPadding offset
        · simpa only [Frame.isCut, decide_eq_true_iff] using short
    | some cause =>
        have truncation : cause.isTruncation = true :=
          Sequences.isTruncation_of_cut (frontOpens.placed frontFits) fits noFailure failure
        exact warnsOfCut_of_isTruncation truncation notPadding offset
  · have padding : CutInPadding order bytes :=
      ⟨claimed.toNat, front, prologue, starts, by rwa [UInt32.ofNat_toNat]⟩
    obtain ⟨stopped, failed⟩ := Prologue.read_of_endsInPadding frontFits ends
    simp only [ofFrame, failed]
    exact ⟨_, rfl, rfl, fun _ => rfl, fun notPadding => (notPadding padding).elim⟩
  · have notPadding : ¬ CutInPadding order bytes := by
      refine not_cutInPadding frontFits starts fun header other outside => ?_
      rw [failed] at outside
      cases outside
      cases truncation
    simp only [ofFrame, failed]
    exact warnsOfCut_of_isTruncation truncation notPadding offset

end Unit

/-- The unit that begins last before a position. -/
structure LastBefore
    (position : Nat)
    (offsets : List Nat)
    (start : Nat) :
    Prop where
  member : start ∈ offsets
  before : start < position
  last :
    ∀ other ∈ offsets,
      other < position →
      other ≤ start

section LastBefore

variable
  {position offset start : Nat}
  {offsets : List Nat}

theorem lastBefore_head
    (before : offset < position)
    (beyond : ∀ other ∈ offsets, position ≤ other) :
    LastBefore position (offset :: offsets) offset where
  member := List.mem_cons_self
  before := before
  last other member otherBefore := by
    rcases List.mem_cons.mp member with rfl | later
    · exact Nat.le_refl _
    · exact (Nat.not_le_of_lt otherBefore (beyond other later)).elim

theorem LastBefore.cons
    (found : LastBefore position offsets start)
    (reached : offset ≤ start) :
    LastBefore position (offset :: offsets) start where
  member := List.mem_cons_of_mem offset found.member
  before := found.before
  last other member otherBefore := by
    rcases List.mem_cons.mp member with rfl | later
    · exact reached
    · exact found.last other later otherBefore

end LastBefore

/-- The walk over the units starts with the first one. -/
theorem exists_unitOffsets_eq_cons
    (order : ByteOrder)
    (offset : Nat)
    {bytes : Bytes}
    (nonempty : bytes ≠ []) :
    ∃ later, unitOffsets order offset bytes = offset :: later := by
  rw [unitOffsets, if_neg nonempty]
  split
  · exact ⟨[], rfl⟩
  · dsimp only
    split
    · exact ⟨[], rfl⟩
    · exact ⟨_, rfl⟩

/-- The walk does not go back behind its start. -/
theorem le_of_mem_unitOffsets
    {bytes : Bytes}
    {offset other : Nat}
    (member : other ∈ unitOffsets order offset bytes) :
    offset ≤ other :=
  (unitOffsets_increasing (shape order bytes) offset).2 other member

section Read

variable
  {cursor body : Cursor}
  {claimed : UInt32}

/-- Behind a unit that is whole, the walk goes on with the next one. -/
theorem unitOffsets_of_read
    (read : Reader.uint32 cursor = .ok claimed body)
    (narrow : claimed ≠ wideMark)
    (whole : claimed.toNat ≤ body.rest.length) :
    unitOffsets cursor.order cursor.position cursor.rest =
      cursor.position ::
        unitOffsets cursor.order (cursor.position + 4 + claimed.toNat)
          (body.advance claimed.toNat).rest := by
  obtain ⟨field, split, size, number⟩ := exists_rest_of_uint32 read
  have goesOn : ¬ (claimed.toNat = wideMark.toNat ∨ body.rest.length < claimed.toNat) := by
    rw [not_or, UInt32.toNat_inj, Nat.not_lt]
    exact ⟨narrow, whole⟩
  rw [split, unitOffsets_field size, number, if_neg goesOn, Cursor.rest, List.drop_drop]
  rfl

/-- A unit that is whole and reaches over a position is the last one that begins before it. -/
theorem lastBefore_of_read
    {position : Nat}
    (read : Reader.uint32 cursor = .ok claimed body)
    (narrow : claimed ≠ wideMark)
    (whole : claimed.toNat ≤ body.rest.length)
    (before : cursor.position < position)
    (reaches : position ≤ cursor.position + 4 + claimed.toNat) :
    LastBefore position (unitOffsets cursor.order cursor.position cursor.rest)
      cursor.position := by
  rw [unitOffsets_of_read read narrow whole]
  exact lastBefore_head before fun other member => Nat.le_trans reaches (le_of_mem_unitOffsets member)

end Read

/-! ## Sections without warnings -/

section Quiet

variable
  {cursor body : Cursor}
  {claimed : UInt32}

/-- After a length field that is read, its unit is reported on before the rest. -/
theorem warningsFrom_of_read
    (read : Reader.uint32 cursor = .ok claimed body)
    (narrow : claimed ≠ wideMark) :
    warningsFrom constAddPc cursor =
      (ofFrame cursor.order constAddPc (frameAt cursor.position claimed body)).warnings ++
        warningsFrom constAddPc
          (body.advance (frameAt cursor.position claimed body).body.length) := by
  obtain ⟨-, -, -, -, -, rfl⟩ := Reader.exists_rest_of_field read
  rw [warningsFrom, ofCursor_of_read read narrow, List.flatMap_cons, List.append_assoc]
  rfl

/-- A length field that cannot be read gives a warning that it is cut. -/
theorem warningsFrom_of_error
    {cause : ReadError}
    {stopped : Cursor}
    (notEnded : ¬ cursor.atEnd = true)
    (failed : Reader.uint32 cursor = .error cause stopped) :
    warningsFrom constAddPc cursor =
      [.ofError lineSectionName cursor.position .truncatedSection cause] := by
  rw [warningsFrom, ofCursor, if_neg notEnded]
  split
  · next found stoppedAt outcome =>
      rw [failed] at outcome
      cases outcome
      rfl
  · simp_all

/-- Without a warning, the length field of each unit is read, and is no mark. -/
theorem exists_read_of_quiet
    (notEnded : ¬ cursor.atEnd = true)
    (quiet : warningsFrom constAddPc cursor = []) :
    ∃ claimed body,
      Reader.uint32 cursor = .ok claimed body ∧ claimed ≠ wideMark := by
  rw [warningsFrom, ofCursor, if_neg notEnded] at quiet
  split at quiet
  · cases quiet
  · next claimed body read =>
      split at quiet
      · cases quiet
      · next narrow =>
          exact ⟨claimed, body, read, narrow⟩

/-- The first unit of a section without warnings is whole. -/
theorem claimed_le_of_quiet
    (read : Reader.uint32 cursor = .ok claimed body)
    (narrow : claimed ≠ wideMark)
    (quiet : warningsFrom constAddPc cursor = []) :
    claimed.toNat ≤ body.rest.length := by
  have starts := startsUnit_of_uint32 read narrow
  rw [warningsFrom_of_read read narrow, List.append_eq_nil_iff] at quiet
  have held := (exists_opens_of_quiet (roomy_of_startsUnit starts).size_lt quiet.1).1
  exact Nat.le_trans held (List.length_take_le' _ _)

end Quiet

/-- A section that ends in a length field gives the warning of a cut, wherever the field stands. -/
theorem warnsOfCut_of_cutField
    {cursor stopped : Cursor}
    {cause : ReadError}
    (notEnded : ¬ cursor.atEnd = true)
    (failed : Reader.uint32 cursor = .error cause stopped)
    (cutField : cursor.size < cursor.position + 4) :
    WarnsOfCut cursor.order cursor.rest cursor.position (warningsFrom constAddPc cursor) := by
  have notPadding : ¬ CutInPadding cursor.order cursor.rest := by
    rintro ⟨claimed, front, prologue, starts, -⟩
    have long : front.length + 4 ≤ cursor.rest.length := starts.length_le
    rw [Cursor.length_rest, Cursor.remaining] at long
    omega
  rw [warningsFrom_of_error notEnded failed]
  exact ⟨_, rfl, rfl, fun padding => (notPadding padding).elim,
    fun _ => kind_ofError_truncatedSection _ _ _⟩

/-- A unit that is cut gives the warning of a cut, and nothing is reported behind it. -/
theorem warnsOfCut_of_short
    {cursor body : Cursor}
    {more : Bytes}
    {claimed : UInt32}
    (read : Reader.uint32 cursor = .ok claimed body)
    (narrow : claimed ≠ wideMark)
    (inside : body.position ≤ body.size)
    (quiet :
      (ofFrame cursor.order constAddPc
        (frameAt cursor.position claimed (body.extend more))).warnings = [])
    (short : body.rest.length < claimed.toNat) :
    WarnsOfCut cursor.order cursor.rest cursor.position (warningsFrom constAddPc cursor) := by
  have starts := startsUnit_of_uint32 read narrow
  have allOfIt := List.take_of_length_le (Nat.le_of_lt short)
  have nothingLeft : (body.advance body.rest.length).rest = [] :=
    Cursor.rest_advance (List.append_nil _).symm
  have narrowLength : claimed.toNat < addressLimit :=
    Nat.lt_trans claimed.toNat_lt (by decide)
  have fits :
      body.rest.length + (more.take (claimed.toNat - body.rest.length)).length < addressLimit := by
    rw [List.length_take]
    omega
  rw [frameAt, Cursor.rest_extend inside, List.take_append, allOfIt] at quiet
  rw [allOfIt] at starts
  rw [warningsFrom_of_read read narrow, frameAt, allOfIt, warningsFrom,
    ofCursor_finished nothingLeft]
  rw [List.flatMap_nil, Option.toList_none, List.append_nil, List.append_nil]
  exact warnsOfCut_ofFrame fits starts quiet short

/--
Units of a section without warnings, when they are cut, give the warning of a cut at
the last unit that begins before it.
-/
theorem warnsOfCut_warningsFrom
    (cursor : Cursor)
    {more : Bytes}
    (inside : cursor.position ≤ cursor.size)
    (missing : more ≠ [])
    (quiet : warningsFrom constAddPc (cursor.extend more) = [])
    (noBoundary :
      cursor.size ∉ unitOffsets cursor.order cursor.position (cursor.extend more).rest) :
    ∃ start,
      LastBefore cursor.size
          (unitOffsets cursor.order cursor.position (cursor.extend more).rest) start ∧
        WarnsOfCut cursor.order (cursor.data.drop start) start
          (warningsFrom constAddPc cursor) := by
  fun_induction ofCursor cursor with
  | case1 cursor ended =>
      have nothingLeft := Cursor.atEnd_iff.mp ended
      rw [Cursor.atEnd, decide_eq_true_iff] at ended
      obtain ⟨later, walk⟩ := exists_unitOffsets_eq_cons cursor.order cursor.position missing
      rw [Cursor.rest_extend inside, nothingLeft, List.nil_append, walk] at noBoundary
      exact (noBoundary (Nat.le_antisymm ended inside ▸ List.mem_cons_self)).elim
  | case2 cursor notEnded cause stopped failed =>
      obtain ⟨claimed, body, longerRead, narrow⟩ :=
        exists_read_of_quiet (Cursor.not_atEnd_extend notEnded) quiet
      have cutField := Reader.size_lt_of_field longerRead failed
      have whole := claimed_le_of_quiet longerRead narrow quiet
      have begun : cursor.position < cursor.size := by
        rwa [Cursor.atEnd, decide_eq_true_iff, Nat.not_le] at notEnded
      have reaches : cursor.size ≤ cursor.position + 4 + claimed.toNat :=
        Nat.le_trans (Nat.le_of_lt cutField) (Nat.le_add_right _ _)
      exact ⟨cursor.position, lastBefore_of_read longerRead narrow whole begun reaches,
        warnsOfCut_of_cutField notEnded failed cutField⟩
  | case3 cursor notEnded body read =>
      obtain ⟨claimed, other, longerRead, narrow⟩ :=
        exists_read_of_quiet (Cursor.not_atEnd_extend notEnded) quiet
      obtain ⟨-, -, sameRead⟩ := Reader.field_extend more read
      cases longerRead.symm.trans sameRead
      exact (narrow rfl).elim
  | case4 cursor notEnded claimed body read narrow frame later inductionHypothesis =>
      obtain ⟨rfl, bodyInside, longerRead⟩ := Reader.field_extend more read
      have complete := claimed_le_of_quiet longerRead narrow quiet
      have left : (cursor.advance 4).rest.length = cursor.size - (cursor.position + 4) :=
        (cursor.advance 4).length_rest
      rw [warningsFrom_of_read longerRead narrow, Cursor.order_extend, Cursor.position_extend,
        List.append_eq_nil_iff] at quiet
      obtain ⟨unitQuiet, laterQuiet⟩ := quiet
      by_cases whole : claimed.toNat ≤ (cursor.advance 4).rest.length
      · -- The unit is whole and gives no warning, so the cut falls behind it.
        have size : frame.body.length = claimed.toNat :=
          List.length_take_of_le whole
        have laterInside : cursor.position + 4 + frame.body.length ≤ cursor.size := by
          omega
        have walk :
            unitOffsets cursor.order cursor.position (cursor.extend more).rest =
              cursor.position ::
                unitOffsets cursor.order (cursor.position + 4 + frame.body.length)
                  (((cursor.advance 4).advance frame.body.length).extend more).rest := by
          rw [size]
          exact unitOffsets_of_read longerRead narrow complete
        rw [frameAt_extend_of_le bodyInside whole] at unitQuiet laterQuiet
        rw [walk] at noBoundary ⊢
        obtain ⟨start, found, warns⟩ :=
          inductionHypothesis laterInside laterQuiet
            fun member => noBoundary (List.mem_cons_of_mem cursor.position member)
        have reached : cursor.position + 4 + frame.body.length ≤ start :=
          le_of_mem_unitOffsets found.member
        refine ⟨start, found.cons (by omega), ?_⟩
        rw [warningsFrom_of_read read narrow, unitQuiet, List.nil_append]
        exact warns
      · -- The unit is cut, and the cursor stands at it.
        have begun : cursor.position < cursor.size := by
          omega
        have reaches : cursor.size ≤ cursor.position + 4 + claimed.toNat := by
          omega
        exact ⟨cursor.position, lastBefore_of_read longerRead narrow complete begun reaches,
          warnsOfCut_of_short read narrow bodyInside unitQuiet (Nat.lt_of_not_le whole)⟩

/--
A section that decodes without a warning, when it is cut inside of a unit, gives one
warning at the start of this unit. The kind says that the section is truncated, except
for a cut between the lists of the unit and its program.
-/
theorem warnsOfCut_decode
    (order : ByteOrder)
    (constAddPc : ConstAddPc)
    {front data : Bytes}
    (quiet : (decode order constAddPc data).warnings = [])
    (cut : front <+: data)
    (proper : front ≠ data)
    (noBoundary : front.length ∉ unitOffsets order 0 data) :
    ∃ start,
      LastBefore front.length (unitOffsets order 0 data) start ∧
        WarnsOfCut order (front.drop start) start (decode order constAddPc front).warnings := by
  obtain ⟨more, rfl⟩ := cut
  have missing : more ≠ [] := by
    rintro rfl
    exact proper (List.append_nil front).symm
  rw [warnings_decode] at quiet ⊢
  exact warnsOfCut_warningsFrom (.ofBytes order front) (Nat.zero_le _) missing quiet noBoundary

/-- A unit with a byte of padding before its program. -/
def gappedUnit : Bytes :=
  [18, 0, 0, 0, 2, 0, 8, 0, 0, 0, 1, 1, 0, 1, 1, 0, 0, 0xAA, 1, 0, 1, 1]

/-- A unit without padding, and one with it. -/
def gappedSection : Bytes :=
  [17, 0, 0, 0, 2, 0, 7, 0, 0, 0, 1, 1, 0, 1, 1, 0, 0, 1, 0, 1, 1] ++ gappedUnit

/-- The cut falls behind the first byte of an extended instruction. -/
theorem warnsOfCut_decode_gappedSection :
    (decode .little .standard gappedSection).warnings = [] ∧
      gappedSection.take 41 <+: gappedSection ∧
      gappedSection.take 41 ≠ gappedSection ∧
      (gappedSection.take 41).length ∉ unitOffsets .little 0 gappedSection ∧
      (∃ start,
        LastBefore (gappedSection.take 41).length (unitOffsets .little 0 gappedSection) start ∧
          WarnsOfCut .little ((gappedSection.take 41).drop start) start
            (decode .little .standard (gappedSection.take 41)).warnings) ∧
      (decode .little .standard (gappedSection.take 41)).warnings.map
          (fun warning => (warning.offset, warning.kind)) =
        [(21, .truncatedSection)] := by
  have quiet : (decode .little .standard gappedSection).warnings = [] := by
    decide +kernel
  have cut : gappedSection.take 41 <+: gappedSection :=
    List.take_prefix 41 gappedSection
  have proper : gappedSection.take 41 ≠ gappedSection := by
    decide
  have noBoundary : (gappedSection.take 41).length ∉ unitOffsets .little 0 gappedSection := by
    decide +kernel
  refine ⟨quiet, cut, proper, noBoundary,
    warnsOfCut_decode .little .standard quiet cut proper noBoundary, ?_⟩
  decide +kernel

/-- A cut between the lists and the program blames the header, although nothing is wrong with it. -/
theorem kind_decode_gappedUnit :
    (decode .little .ignore gappedUnit).warnings = [] ∧
      gappedUnit.take 17 <+: gappedUnit ∧
      gappedUnit.take 17 ≠ gappedUnit ∧
      (gappedUnit.take 17).length ∉ unitOffsets .little 0 gappedUnit ∧
      (decode .little .ignore (gappedUnit.take 17)).warnings.map
          (fun warning => (warning.offset, warning.kind)) =
        [(0, .malformedHeader)] := by
  refine ⟨?_, List.take_prefix 17 gappedUnit, ?_, ?_, ?_⟩
  · decide +kernel
  · decide
  · decide +kernel
  · decide +kernel

end LineSection

end LineAtlas
