import LineAtlas.Proofs.LineSection.DecodedTables
import LineAtlas.Proofs.LineSection.OutputBound
import Mathlib.Data.String.Basic

namespace LineAtlas

/-!
# How large paths get

A byte of a name leaves at most one piece in its text, and no character takes more than
four bytes. Names lie inside a unit, and the length of a unit has 32 bits, so the path of
a file is far from having as many bytes as there are positions.
-/

namespace Utf8

theorem utf8Len_le (text : List Char) : String.utf8Len text ≤ 4 * text.length := by
  induction text with
  | nil =>
      exact Nat.le_refl 0
  | cons character rest inductionHypothesis =>
      have small := character.utf8Size_le_four
      rw [String.utf8Len_cons, List.length_cons]
      omega

/-- Every piece takes at least a byte, but for one that is pending. -/
theorem length_pieces_le
    (pending : Option Pending)
    (bytes : Bytes) :
    (pieces pending bytes).length ≤ bytes.length + pending.toList.length := by
  -- All cases are counts: a pending character took a byte before.
  fun_induction pieces pending bytes
  all_goals
    simp only [List.length_cons, List.length_nil, Option.toList_some, Option.toList_none] at *
    omega

theorem utf8ByteSize_decodeLossy_le (bytes : Bytes) :
    (decodeLossy bytes).utf8ByteSize ≤ 4 * bytes.length := by
  have count := length_pieces_le none bytes
  have small := utf8Len_le ((pieces none bytes).map (·.getD replacement))
  rw [decodeLossy, String.utf8ByteSize_ofList]
  simp only [List.length_map, Option.toList_none, List.length_nil] at *
  omega

end Utf8

/-! ## Names -/

namespace Prologue

/-- A text has at most four bytes for each byte of the data. -/
theorem utf8ByteSize_of_readText
    {before after : Cursor}
    {name : String}
    (success : readText before = .ok name after) :
    name.utf8ByteSize ≤ 4 * before.size := by
  rw [readText, ← bind_pure_comp] at success
  obtain ⟨bytes, between, bytesRead, decoded⟩ := bind_eq_ok_iff.mp success
  cases decoded
  obtain ⟨used, seen, -⟩ := Reader.advance_of_consuming bytesRead
  obtain ⟨found, looked, same⟩ := Reader.map_eq_ok_iff.mp seen
  cases same
  have inside : bytes.length ≤ before.size := by
    unfold Cursor.terminatedBytes at looked
    split at looked
    · cases looked
      have shorter := (List.takeWhile_prefix (l := before.rest) (· ≠ 0)).length_le
      rw [Cursor.length_rest, Cursor.remaining] at shorter
      omega
    · cases looked
  have small := Utf8.utf8ByteSize_decodeLossy_le bytes
  omega

theorem utf8ByteSize_of_readDirectory
    {before after : Cursor}
    {name : String}
    (success : readDirectory before = .ok (some name) after) :
    name.utf8ByteSize ≤ 4 * before.size := by
  obtain ⟨text, between, textRead, rest⟩ := bind_eq_ok_iff.mp success
  split at rest
  · cases rest
  · cases rest
    exact utf8ByteSize_of_readText textRead

theorem utf8ByteSize_of_readFile
    {directories : List String}
    {before after : Cursor}
    {file : SourceFile}
    (success : readFile directories before = .ok (some file) after) :
    file.name.utf8ByteSize ≤ 4 * before.size := by
  obtain ⟨start, unmoved, asked, read⟩ := bind_eq_ok_iff.mp success
  cases asked
  obtain ⟨name, between, nameRead, rest⟩ := bind_eq_ok_iff.mp read
  have sameName : file.name = name := by
    refine (?_ : Reader.Finds _ fun found => ∀ file ∈ found, file.name = name) _ _ _ rest file rfl
    split
    · exact Reader.finds_pure (by simp)
    · refine Reader.finds_bind fun directoryIndex => ?_
      refine Reader.finds_bind fun modificationTime => Reader.finds_bind fun size => ?_
      split
      · exact Reader.finds_throw _
      · exact Reader.finds_pure (by simp)
  rw [sameName]
  exact utf8ByteSize_of_readText nameRead

/-- The names of a unit are as small as its bytes allow. -/
theorem utf8ByteSize_of_read
    {unitLength : UInt32}
    {order : ByteOrder}
    {data : Bytes}
    (fits : data.length < addressLimit)
    {prologue : Prologue}
    {program : Cursor}
    (success : read unitLength (.ofBytes order data) = .ok prologue program) :
    (∀ directory ∈ prologue.directories,
        directory.utf8ByteSize ≤ 4 * data.length + 1) ∧
      ∀ file ∈ prologue.files, file.name.utf8ByteSize ≤ 4 * data.length := by
  obtain ⟨header, afterHeader, headerRead, rest⟩ := bind_eq_ok_iff.mp success
  obtain ⟨directories, afterDirectories, directoriesRead, rest⟩ := bind_eq_ok_iff.mp rest
  obtain ⟨files, afterFiles, filesRead, rest⟩ := bind_eq_ok_iff.mp rest
  obtain ⟨_, atProgram, sought, returned⟩ := bind_eq_ok_iff.mp rest
  cases returned
  have headerData : afterHeader.data = data :=
    ((local_readHeader unitLength).keeps (Cursor.placed_ofBytes fits) headerRead).2.1
  rw [readDirectories, ← bind_pure_comp] at directoriesRead
  obtain ⟨listed, afterListed, listedRead, added⟩ := bind_eq_ok_iff.mp directoriesRead
  cases added
  obtain ⟨directoriesData, small⟩ :=
    Reader.forall_mem_of_collect (fun name => name.utf8ByteSize ≤ 4 * data.length)
      (fun before name after sameData found => by
        rw [← sameData]
        exact utf8ByteSize_of_readDirectory found)
      headerData listedRead
  obtain ⟨-, filesSmall⟩ :=
    Reader.forall_mem_of_collect (fun file => file.name.utf8ByteSize ≤ 4 * data.length)
      (fun before file after sameData found => by
        rw [← sameData]
        exact utf8ByteSize_of_readFile found)
      directoriesData filesRead
  refine ⟨List.forall_mem_cons.mpr ⟨?_, fun name member => Nat.le_succ_of_le (small name member)⟩,
    filesSmall⟩
  have own : compilationDirectory.utf8ByteSize = 1 := by
    decide
  omega

end Prologue

/-! ## Paths -/

/-- The paths of a table leave room for one more byte. -/
def LineTable.HasSmallPaths (table : LineTable) : Prop :=
  ∀ file ∈ table.files, file.path.utf8ByteSize + 1 < addressLimit

/-- No table of a section has a path that is too large. -/
theorem LineSection.hasSmallPaths_of_mem
    {order : ByteOrder}
    {constAddPc : ConstAddPc}
    {data : Bytes}
    {table : LineTable}
    (member : table ∈ (decode order constAddPc data).tables) :
    table.HasSmallPaths := by
  intro file listed
  obtain ⟨unit, inUnits, inUnit⟩ := List.mem_flatMap.mp member
  obtain ⟨frame, inFrames, rfl⟩ := List.mem_map.mp inUnits
  have short : frame.body.length < UInt32.size := Framing.length_body_of_mem inFrames
  unfold ofFrame at inUnit
  split at inUnit
  · cases inUnit
  · next prologue program read =>
      obtain ⟨-, sameFiles⟩ := lists_of_mem_tablesOf inUnit
      rw [sameFiles] at listed
      have lists := Prologue.finds_read frame.claimed _ prologue program read
      obtain ⟨inRange, joined⟩ := (lists.listed file listed).path
      obtain ⟨directoriesSmall, filesSmall⟩ :=
        Prologue.utf8ByteSize_of_read (Nat.lt_trans short (by decide)) read
      have directorySmall := directoriesSmall _ (List.getElem_mem inRange)
      have nameSmall := filesSmall file listed
      have slash : "/".utf8ByteSize = 1 := by decide
      have bound : UInt32.size = 2 ^ 32 ∧ addressLimit = 2 ^ 64 := by decide
      rw [joined, String.utf8ByteSize_append, String.utf8ByteSize_append]
      omega

end LineAtlas
