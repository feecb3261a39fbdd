import LineAtlas.Proofs.Failures
import LineAtlas.Proofs.LineSection.PrologueLocality

namespace LineAtlas.Prologue

/-!
# What prologues fail with

A fixed header that cannot be read is too short or contradicts itself, and names that
cannot be read are too short. The numbers of a file are the only ones of a prologue
that may be too large; `readFiles` can fail with this, and nothing before it can.
-/

open LineProgram

/-- The causes for which the fixed part of a header cannot be read. -/
def OfHeader (cause : ReadError) : Prop :=
  cause.isTruncation = true ∨ cause.isStructural = true

/-- The causes for which a file list cannot be read. -/
def OfFiles (cause : ReadError) : Prop :=
  OfHeader cause ∨ cause = Base128.unsignedOverflow

theorem failsWith_short
    {α : Type}
    {reader : Reader α}
    (fails : reader.FailsWith (·.isTruncation = true)) :
    reader.FailsWith OfHeader :=
  fails.mono fun _ => .inl

theorem failsWith_readVersion : Header.readVersion.FailsWith OfHeader := by
  refine (failsWith_short Reader.failsWith_uint16).bind_local Reader.local_uint16 fun version => ?_
  split
  · exact (Reader.failsWith_throw (.inr rfl)).bind_local (Reader.local_throw _) fun _ =>
      Reader.failsWith_pure version
  · exact Reader.failsWith_pure version

theorem failsWith_readNonzero (name : String) :
    (Header.readNonzero name).FailsWith OfHeader := by
  refine (failsWith_short Reader.failsWith_uint8).bind_local Reader.local_uint8 fun byte => ?_
  split
  · exact Reader.failsWith_position.bind Reader.extends_position fun after =>
      (Reader.failsWith_throw (.inr rfl)).bind_local (Reader.local_throw _) fun _ =>
        Reader.failsWith_pure byte
  · exact Reader.failsWith_pure byte

theorem failsWith_readHeader (unitLength : UInt32) :
    (Header.read unitLength).FailsWith OfHeader := by
  have byte : Reader.uint8.FailsWith OfHeader :=
    failsWith_short Reader.failsWith_uint8
  have operations (version : UInt16) :
      Reader.FailsWith (if version < 4 then pure 1 else Reader.uint8) OfHeader := by
    split
    · exact Reader.failsWith_pure 1
    · exact byte
  rw [readHeader_eq]
  refine failsWith_readVersion.bind_local local_readVersion fun version => ?_
  refine (failsWith_short Reader.failsWith_uint32).bind_local Reader.local_uint32
    fun prologueLength => ?_
  refine byte.bind_local Reader.local_uint8 fun minimumInstructionLength => ?_
  refine (operations version).bind_local (local_readOperations version)
    fun maximumOperations => ?_
  refine byte.bind_local Reader.local_uint8 fun defaultIsStatement => ?_
  refine byte.bind_local Reader.local_uint8 fun lineBase => ?_
  refine (failsWith_readNonzero _).bind_local (local_readNonzero _) fun lineRange => ?_
  refine (failsWith_readNonzero _).bind_local (local_readNonzero _) fun opcodeBase => ?_
  exact (byte.times Reader.local_uint8 _).bind_local (Reader.local_uint8.times _)
    fun operandCounts => Reader.failsWith_pure _

theorem failsWith_readText : readText.FailsWith (·.isTruncation = true) :=
  Reader.failsWith_terminated.map Reader.local_terminated Utf8.decodeLossy

theorem failsWith_readDirectory : readDirectory.FailsWith (·.isTruncation = true) := by
  refine failsWith_readText.bind_local local_readText fun name => ?_
  split
  · exact Reader.failsWith_pure none
  · exact Reader.failsWith_pure (some name)

theorem failsWith_readDirectories : readDirectories.FailsWith OfHeader :=
  failsWith_short
    ((failsWith_readDirectory.collect local_readDirectory).map local_readDirectory.collect _)

theorem failsWith_readFile (directories : List String) :
    (readFile directories).FailsWith OfFiles := by
  have number : Reader.unsigned.FailsWith OfFiles := by
    refine Reader.failsWith_unsigned.mono ?_
    rintro cause (short | tooLarge)
    · exact .inl (.inl short)
    · exact .inr tooLarge
  have text : readText.FailsWith OfFiles :=
    failsWith_readText.mono fun _ short => .inl (.inl short)
  refine Reader.failsWith_position.bind Reader.extends_position fun start => ?_
  refine text.bind_local local_readText fun name => ?_
  split
  · exact Reader.failsWith_pure none
  · refine number.bind_local Reader.local_unsigned fun directoryIndex => ?_
    refine number.bind_local Reader.local_unsigned fun modificationTime => ?_
    refine number.bind_local Reader.local_unsigned fun size => ?_
    split
    · exact Reader.failsWith_throw (.inl (.inr rfl))
    · exact Reader.failsWith_pure _

theorem failsWith_readFiles (directories : List String) :
    (readFiles directories).FailsWith OfFiles :=
  (failsWith_readFile directories).collect (local_readFile directories)

theorem failsWith_readParts (unitLength : UInt32) :
    (readParts unitLength).FailsWith OfFiles := by
  have header : (Header.read unitLength).FailsWith OfFiles :=
    (failsWith_readHeader unitLength).mono fun _ => .inl
  have directories : readDirectories.FailsWith OfFiles :=
    failsWith_readDirectories.mono fun _ => .inl
  refine header.bind_local (local_readHeader unitLength) fun _ => ?_
  refine directories.bind_local local_readDirectories fun found => ?_
  exact (failsWith_readFiles found).bind_local (local_readFiles found) fun _ =>
    Reader.failsWith_pure _

/-! ## Numbers of files that are too large -/

/-- The header and the directories of a unit can be read, but a number of a file is too large. -/
def FileNumberTooLarge
    (order : ByteOrder)
    (unitLength : UInt32)
    (body : Bytes) :
    Prop :=
  ∃ header afterHeader directories afterDirectories stopped,
    Header.read unitLength (.ofBytes order body) = .ok header afterHeader ∧
      readDirectories afterHeader = .ok directories afterDirectories ∧
      readFiles directories afterDirectories = .error Base128.unsignedOverflow stopped

variable
  {order : ByteOrder}
  {unitLength : UInt32}
  {body : Bytes}

theorem not_ofHeader_unsignedOverflow : ¬ OfHeader Base128.unsignedOverflow := by
  rintro (short | structural)
  · cases short
  · cases structural

/-- A move to the program fails only if the program starts outside of the unit. -/
theorem isStructural_of_seekProgram
    {header : Header}
    {before stopped : Cursor}
    {cause : ReadError}
    (failure : seekProgram header before = .error cause stopped) :
    cause.isStructural = true := by
  unfold seekProgram at failure
  split at failure
  · cases failure
    rfl
  · cases failure

/-- Reading a prologue fails in its parts or in the move to the program. -/
theorem ofFiles_of_read
    {before stopped : Cursor}
    {cause : ReadError}
    (roomy : before.Roomy)
    (failure : read unitLength before = .error cause stopped) :
    OfFiles cause := by
  rw [read_eq_readParts] at failure
  rcases bind_eq_error_iff.mp failure with partsFail | ⟨prologue, between, -, rest⟩
  · exact (failsWith_readParts unitLength).among before cause stopped roomy partsFail
  · rcases bind_eq_error_iff.mp rest with seekFails | ⟨_, _, _, returnFails⟩
    · exact .inl (.inr (isStructural_of_seekProgram seekFails))
    · cases returnFails

/-- Of all that comes before a program, only the file list can have a number that is too large. -/
theorem read_eq_unsignedOverflow_iff
    (roomy : (Cursor.ofBytes order body).Roomy) :
    (∃ stopped, read unitLength (.ofBytes order body) = .error Base128.unsignedOverflow stopped) ↔
      FileNumberTooLarge order unitLength body := by
  constructor
  · rintro ⟨stopped, failure⟩
    rcases bind_eq_error_iff.mp failure with headerFails | ⟨header, afterHeader, headerRead, lists⟩
    · exact (not_ofHeader_unsignedOverflow
        ((failsWith_readHeader unitLength).among _ _ _ roomy headerFails)).elim
    obtain ⟨placed, sameData, -⟩ := (local_readHeader unitLength).keeps roomy.toPlaced headerRead
    have headerRoomy := roomy.keep placed (congrArg List.length sameData)
    rcases bind_eq_error_iff.mp lists with
      directoriesFail | ⟨directories, afterDirectories, directoriesRead, filesAndSeek⟩
    · exact (not_ofHeader_unsignedOverflow
        (failsWith_readDirectories.among _ _ _ headerRoomy directoriesFail)).elim
    rcases bind_eq_error_iff.mp filesAndSeek with filesFail | ⟨files, afterFiles, filesRead, rest⟩
    · exact ⟨header, afterHeader, directories, afterDirectories, stopped, headerRead,
        directoriesRead, filesFail⟩
    · rcases bind_eq_error_iff.mp rest with seekFails | ⟨_, _, _, returnFails⟩
      · exact (not_ofHeader_unsignedOverflow (.inr (isStructural_of_seekProgram seekFails))).elim
      · cases returnFails
  · rintro ⟨header, afterHeader, directories, afterDirectories, stopped, headerRead,
      directoriesRead, filesFail⟩
    refine ⟨stopped, ?_⟩
    rw [read, Reader.bind_of_ok headerRead, Reader.bind_of_ok directoriesRead]
    exact bind_eq_error_iff.mpr (.inl filesFail)

end LineAtlas.Prologue
