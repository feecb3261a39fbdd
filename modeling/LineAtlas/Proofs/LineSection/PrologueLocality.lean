import LineAtlas.LineSection.Prologue
import LineAtlas.Proofs.Locality

namespace LineAtlas.Prologue

/-!
# Headers and lists depend only on their bytes

Failures of headers and file lists name positions, but what is found when they
are read does not depend on the place. The prologue as a whole is not local, since
it moves to a place that the header names; `read_eq_ok_iff` takes it apart.
-/

theorem local_readNonzero (name : String) :
    (LineProgram.Header.readNonzero name).Local := by
  refine Reader.local_uint8.bind fun byte => ?_
  by_cases zero : byte = 0
  · subst zero
    intro cursor value after placed success
    cases success
  · rw [if_neg zero]
    exact Reader.local_pure byte

theorem local_readVersion : LineProgram.Header.readVersion.Local := by
  refine Reader.local_uint16.bind fun version => ?_
  split
  · exact (Reader.local_throw _).bind fun _ => Reader.local_pure version
  · exact Reader.local_pure version

theorem local_readOperations (version : UInt16) :
    Reader.Local (if version < 4 then pure 1 else Reader.uint8) := by
  split
  · exact Reader.local_pure 1
  · exact Reader.local_uint8

/-- The count of operations is all that depends on the version. -/
theorem readHeader_eq (unitLength : UInt32) :
    LineProgram.Header.read unitLength = do
      let version ← LineProgram.Header.readVersion
      let prologueLength ← Reader.uint32
      let minimumInstructionLength ← Reader.uint8
      let maximumOperations ← (if version < 4 then pure 1 else Reader.uint8 : Reader UInt8)
      let defaultIsStatement ← Reader.uint8
      let lineBase ← Reader.uint8
      let lineRange ← LineProgram.Header.readNonzero "line_range"
      let opcodeBase ← LineProgram.Header.readNonzero "opcode_base"
      let operandCounts ← Reader.times Reader.uint8 (opcodeBase.toNat - 1)
      return {
        unitLength := unitLength
        version := version
        prologueLength := prologueLength
        minimumInstructionLength := minimumInstructionLength
        maximumOperations := maximumOperations
        defaultIsStatement := defaultIsStatement ≠ 0
        lineBase := lineBase.toInt8
        lineRange := lineRange
        opcodeBase := opcodeBase
        operandCounts := operandCounts
      } := by
  unfold LineProgram.Header.read
  congr 1
  funext version
  congr 1
  funext prologueLength
  congr 1
  funext minimumInstructionLength
  dsimp only
  split
  · rfl
  · rfl

theorem local_readHeader (unitLength : UInt32) :
    (LineProgram.Header.read unitLength).Local := by
  rw [readHeader_eq]
  refine local_readVersion.bind fun version => Reader.local_uint32.bind fun prologueLength => ?_
  refine Reader.local_uint8.bind fun minimumInstructionLength => ?_
  refine (local_readOperations version).bind fun maximumOperations => ?_
  refine Reader.local_uint8.bind fun defaultIsStatement => Reader.local_uint8.bind fun lineBase => ?_
  refine (local_readNonzero _).bind fun lineRange => (local_readNonzero _).bind fun opcodeBase => ?_
  exact (Reader.local_uint8.times _).bind fun operandCounts => Reader.local_pure _

theorem local_readText : readText.Local :=
  Reader.local_terminated.map Utf8.decodeLossy

theorem local_readDirectory : readDirectory.Local := by
  refine local_readText.bind fun name => ?_
  split
  · exact Reader.local_pure none
  · exact Reader.local_pure (some name)

theorem local_readDirectories : readDirectories.Local :=
  local_readDirectory.collect.map _

theorem local_readFile (directories : List String) : (readFile directories).Local := by
  refine Reader.local_position_bind (fun start => ?_)
    (fun start other cursor file after success => ?_)
  · refine local_readText.bind fun name => ?_
    split
    · exact Reader.local_pure none
    · refine Reader.local_unsigned.bind fun directoryIndex => ?_
      refine Reader.local_unsigned.bind fun modificationTime => ?_
      refine Reader.local_unsigned.bind fun size => ?_
      split
      · exact Reader.local_throw _
      · exact Reader.local_pure _
  · obtain ⟨name, named, nameRead, rest⟩ := bind_eq_ok_iff.mp success
    refine bind_eq_ok_iff.mpr ⟨name, named, nameRead, ?_⟩
    split at rest
    · next empty =>
        rwa [if_pos empty]
    · next nonempty =>
        rw [if_neg nonempty]
        obtain ⟨directoryIndex, indexed, indexRead, timeAndSize⟩ := bind_eq_ok_iff.mp rest
        obtain ⟨modificationTime, timed, timeRead, sizeRest⟩ := bind_eq_ok_iff.mp timeAndSize
        obtain ⟨size, sized, sizeRead, found⟩ := bind_eq_ok_iff.mp sizeRest
        refine bind_eq_ok_iff.mpr ⟨directoryIndex, indexed, indexRead, ?_⟩
        refine bind_eq_ok_iff.mpr ⟨modificationTime, timed, timeRead, ?_⟩
        refine bind_eq_ok_iff.mpr ⟨size, sized, sizeRead, ?_⟩
        cases listed : directories[directoryIndex.toNat]? with
        | none =>
            rw [listed] at found
            cases found
        | some directory =>
            rwa [listed] at found

theorem local_readFiles (directories : List String) : (readFiles directories).Local :=
  (local_readFile directories).collect

/-! ## Prologues as what is read one after the other -/

/--
The header, the directories and the files of a unit can be read, one after the
other, and the program starts inside the unit.
-/
structure Opens
    (order : ByteOrder)
    (unitLength : UInt32)
    (body : Bytes)
    (prologue : Prologue) :
    Prop where
  readable :
    ∃ afterHeader afterDirectories afterFiles,
      LineProgram.Header.read unitLength (.ofBytes order body) =
          .ok prologue.header afterHeader ∧
        readDirectories afterHeader = .ok prologue.directories afterDirectories ∧
        readFiles prologue.directories afterDirectories = .ok prologue.files afterFiles
  inside : 6 + prologue.header.prologueLength.toNat ≤ body.length

/-- The bytes from the first opcode to the end of the unit. -/
def programBytes
    (prologue : Prologue)
    (body : Bytes) :
    Bytes :=
  body.drop (6 + prologue.header.prologueLength.toNat)

/-- The cursor at the first opcode. -/
def programCursor
    (order : ByteOrder)
    (prologue : Prologue)
    (body : Bytes) :
    Cursor where
  data := body
  position := 6 + prologue.header.prologueLength.toNat
  order := order

variable
  {order : ByteOrder}
  {unitLength : UInt32}
  {body : Bytes}
  {prologue : Prologue}

theorem Opens.placed
    (opens : Opens order unitLength body prologue)
    (fits : body.length < addressLimit) :
    (prologue.programCursor order body).Placed where
  position_le := opens.inside
  size_lt := fits

/-- Reading the header and the lists keeps to the unit. -/
theorem keeps_of_reads
    (fits : body.length < addressLimit)
    {header : LineProgram.Header}
    {directories : List String}
    {files : List SourceFile}
    {afterHeader afterDirectories afterFiles : Cursor}
    (headerRead :
      LineProgram.Header.read unitLength (.ofBytes order body) = .ok header afterHeader)
    (directoriesRead : readDirectories afterHeader = .ok directories afterDirectories)
    (filesRead : readFiles directories afterDirectories = .ok files afterFiles) :
    afterFiles.data = body ∧ afterFiles.order = order := by
  obtain ⟨headerPlaced, headerData, headerOrder⟩ :=
    (local_readHeader unitLength).keeps (Cursor.placed_ofBytes fits) headerRead
  obtain ⟨directoriesPlaced, directoriesData, directoriesOrder⟩ :=
    local_readDirectories.keeps headerPlaced directoriesRead
  obtain ⟨-, filesData, filesOrder⟩ :=
    (local_readFiles directories).keeps directoriesPlaced filesRead
  constructor
  · rw [filesData, directoriesData, headerData]
    rfl
  · rw [filesOrder, directoriesOrder, headerOrder]
    rfl

/-- A prologue is read exactly where its parts can be read and the program starts inside. -/
theorem read_eq_ok_iff
    (fits : body.length < addressLimit)
    {program : Cursor} :
    read unitLength (.ofBytes order body) = .ok prologue program ↔
      Opens order unitLength body prologue ∧ program = prologue.programCursor order body := by
  constructor
  · intro success
    obtain ⟨header, afterHeader, headerRead, lists⟩ := bind_eq_ok_iff.mp success
    obtain ⟨directories, afterDirectories, directoriesRead, filesAndSeek⟩ :=
      bind_eq_ok_iff.mp lists
    obtain ⟨files, afterFiles, filesRead, seekAndReturn⟩ := bind_eq_ok_iff.mp filesAndSeek
    obtain ⟨_, sought, seekRead, returned⟩ := bind_eq_ok_iff.mp seekAndReturn
    cases returned
    obtain ⟨sameData, sameOrder⟩ := keeps_of_reads fits headerRead directoriesRead filesRead
    unfold seekProgram at seekRead
    split at seekRead
    · cases seekRead
    · next inside =>
        rw [Cursor.size, sameData, LineProgram.Header.programOffset] at inside
        cases seekRead
        refine ⟨⟨⟨_, _, _, headerRead, directoriesRead, filesRead⟩,
          Nat.le_of_not_lt inside⟩, ?_⟩
        simp [programCursor, sameData, sameOrder, LineProgram.Header.programOffset]
  · rintro ⟨⟨⟨afterHeader, afterDirectories, afterFiles, headerRead, directoriesRead, filesRead⟩,
      inside⟩, rfl⟩
    obtain ⟨sameData, sameOrder⟩ := keeps_of_reads fits headerRead directoriesRead filesRead
    have notPast : ¬ afterFiles.size < prologue.header.programOffset := by
      rw [Cursor.size, sameData, LineProgram.Header.programOffset]
      omega
    rw [read, Reader.bind_of_ok headerRead, Reader.bind_of_ok directoriesRead,
      Reader.bind_of_ok filesRead]
    refine bind_eq_ok_iff.mpr ⟨(), prologue.programCursor order body, ?_, rfl⟩
    rw [seekProgram, if_neg notPast]
    simp [programCursor, sameData, sameOrder, LineProgram.Header.programOffset]

/-- A unit has at most one prologue. -/
theorem Opens.unique
    (fits : body.length < addressLimit)
    {other : Prologue}
    (opens : Opens order unitLength body prologue)
    (otherOpens : Opens order unitLength body other) :
    other = prologue := by
  have read := (read_eq_ok_iff fits).mpr ⟨opens, rfl⟩
  have otherRead := (read_eq_ok_iff fits).mpr ⟨otherOpens, rfl⟩
  rw [read] at otherRead
  cases otherRead
  rfl

/-! ## The parts of a prologue, without the move to the program -/

/-- Reads the header and the lists of a unit, and stays where they end. -/
def readParts (unitLength : UInt32) : Reader Prologue := do
  let header ← LineProgram.Header.read unitLength
  let directories ← readDirectories
  let files ← readFiles directories
  return { header := header, directories := directories, files := files }

/-- A prologue is read by reading its parts and moving to the program. -/
theorem read_eq_readParts (unitLength : UInt32) :
    read unitLength = (do
      let prologue ← readParts unitLength
      seekProgram prologue.header
      return prologue) := by
  simp [read, readParts]

theorem local_readParts (unitLength : UInt32) : (readParts unitLength).Local :=
  (local_readHeader unitLength).bind fun _ =>
    local_readDirectories.bind fun directories =>
      (local_readFiles directories).bind fun _ => Reader.local_pure _

/-- The parts are read exactly where they can be read one after the other. -/
theorem opens_iff_readParts :
    Opens order unitLength body prologue ↔
      (∃ stopped, readParts unitLength (.ofBytes order body) = .ok prologue stopped) ∧
        6 + prologue.header.prologueLength.toNat ≤ body.length := by
  constructor
  · rintro ⟨⟨afterHeader, afterDirectories, afterFiles, headerRead, directoriesRead, filesRead⟩,
      inside⟩
    refine ⟨⟨afterFiles, ?_⟩, inside⟩
    rw [readParts, Reader.bind_of_ok headerRead, Reader.bind_of_ok directoriesRead,
      Reader.bind_of_ok filesRead]
    rfl
  · rintro ⟨⟨stopped, success⟩, inside⟩
    obtain ⟨header, afterHeader, headerRead, lists⟩ := bind_eq_ok_iff.mp success
    obtain ⟨directories, afterDirectories, directoriesRead, filesAndReturn⟩ :=
      bind_eq_ok_iff.mp lists
    obtain ⟨files, afterFiles, filesRead, returned⟩ := bind_eq_ok_iff.mp filesAndReturn
    cases returned
    exact ⟨⟨afterHeader, afterDirectories, stopped, headerRead, directoriesRead, filesRead⟩, inside⟩

end LineAtlas.Prologue
