import LineAtlas.LineSection.Decode
import LineAtlas.Proofs.Findings
import LineAtlas.Proofs.LossyText
import LineAtlas.Proofs.Lookup.SplitPath

namespace LineAtlas

/-!
# Every decoded table is well formed

Whatever the bytes of a section, the lists of a unit are in order once they are read:
names are some text without a NUL, every file lies in a directory of the list, and its
path is made of that directory and its name. All tables of a unit share these lists.
A path that is made this way never loses its slash, so the location of a row always
gives back the path that the row is attributed to.
-/

/-! ## Names, directories and files -/

/-- Some text without a NUL. -/
def IsName (text : String) : Prop :=
  text ≠ "" ∧ '\x00' ∉ text.toList

/-- The file lies in a directory of the list, and its path says so. -/
structure SourceFile.ListedIn
    (directories : List String)
    (file : SourceFile) :
    Prop where
  name : IsName file.name
  path :
    ∃ inRange : file.directoryIndex.toNat < directories.length,
      file.path = directories[file.directoryIndex.toNat] ++ "/" ++ file.name

/-- The lists of a unit fit together. -/
structure WellFormedLists
    (directories : List String)
    (files : List SourceFile) :
    Prop where
  startsHere : directories.head? = some "."
  named : ∀ directory ∈ directories, IsName directory
  listed : ∀ file ∈ files, file.ListedIn directories

namespace Prologue

theorem finds_readText : readText.Finds ('\x00' ∉ ·.toList) :=
  Reader.finds_terminated.map fun _ noZero => Utf8.nul_not_mem_decodeLossy noZero

theorem finds_readDirectory : readDirectory.Finds (∀ directory ∈ ·, IsName directory) := by
  refine finds_readText.bind fun name noNul => ?_
  split
  · exact Reader.finds_pure (by simp)
  · next nonempty =>
      have isName : IsName name := ⟨by simpa using nonempty, noNul⟩
      exact Reader.finds_pure (by simpa using isName)

theorem finds_readDirectories :
    readDirectories.Finds fun directories =>
      directories.head? = some "." ∧ ∀ directory ∈ directories, IsName directory := by
  refine finds_readDirectory.collect.map fun later laterNames => ?_
  have isName : IsName compilationDirectory := by
    simp [IsName, compilationDirectory]
  exact ⟨rfl, List.forall_mem_cons.mpr ⟨isName, laterNames⟩⟩

theorem finds_readFile (directories : List String) :
    (readFile directories).Finds (∀ file ∈ ·, file.ListedIn directories) := by
  refine Reader.finds_bind fun start => finds_readText.bind fun name noNul => ?_
  split
  · exact Reader.finds_pure (by simp)
  · next nonempty =>
      refine Reader.finds_bind fun directoryIndex => ?_
      refine Reader.finds_bind fun modificationTime => ?_
      refine Reader.finds_bind fun size => ?_
      split
      · exact Reader.finds_throw _
      · next directory listed =>
          obtain ⟨inRange, isDirectory⟩ := List.getElem?_eq_some_iff.mp listed
          apply Reader.finds_pure
          rintro file ⟨⟩
          exact ⟨⟨by simpa using nonempty, noNul⟩, inRange, by rw [isDirectory]; rfl⟩

/-- The lists of every prologue that can be read fit together. -/
theorem finds_read (unitLength : UInt32) :
    (read unitLength).Finds fun prologue =>
      WellFormedLists prologue.directories prologue.files := by
  refine Reader.finds_bind fun header => ?_
  refine finds_readDirectories.bind fun directories known => ?_
  refine (finds_readFile directories).collect.bind fun files listed => ?_
  refine Reader.finds_bind fun _ => ?_
  exact Reader.finds_pure ⟨known.1, known.2, listed⟩

end Prologue

/-! ## Paths -/

namespace LineTable

variable {table : LineTable}

theorem primaryPath_eq_path_or_empty (table : LineTable) :
    (∃ file ∈ table.files, table.primaryPath = file.path) ∨ table.primaryPath = "" := by
  unfold primaryPath
  split
  · next file first =>
      exact .inl ⟨file, List.mem_of_mem_head? first, rfl⟩
  · exact .inr rfl

/-- A row is attributed to a file of the list, or to no text. -/
theorem pathFor_eq_path_or_empty
    (table : LineTable)
    (row : LineProgram.Row)
    (attribution : Attribution) :
    (∃ file ∈ table.files, table.pathFor row attribution = file.path) ∨
      table.pathFor row attribution = "" := by
  cases attribution with
  | firstFile =>
      exact table.primaryPath_eq_path_or_empty
  | perRow =>
      cases named : table.fileOf? row with
      | none =>
          simpa [pathFor, named] using table.primaryPath_eq_path_or_empty
      | some file =>
          have listed : file ∈ table.files := by
            unfold fileOf? at named
            split at named
            · cases named
            · exact List.mem_of_getElem? named
          exact .inl ⟨file, listed, by simp [pathFor, named]⟩

end LineTable

/-- The path of a listed file is split and joined without loss. -/
theorem SourceFile.ListedIn.path_ofPath
    {directories : List String}
    {file : SourceFile}
    (listed : file.ListedIn directories)
    (named : ∀ directory ∈ directories, IsName directory)
    (line : Int64) :
    (Location.ofPath line file.path).path = file.path := by
  obtain ⟨inRange, joined⟩ := listed.path
  have nonempty := (named _ (List.getElem_mem inRange)).1
  rw [joined]
  exact Location.path_ofPath_joinPath line nonempty file.name

/-! ## Tables -/

/--
The table has a row, its lists fit together, and the location of a row gives back the
path that the row is attributed to.
-/
structure LineTable.WellFormed (table : LineTable) : Prop where
  hasRow : table.rows ≠ []
  lists : WellFormedLists table.directories table.files
  keepsPath :
    ∀ row attribution line,
      (Location.ofPath line (table.pathFor row attribution)).path =
        table.pathFor row attribution

/-- Every table with lists that fit together is well formed. -/
theorem WellFormedLists.wellFormed
    {table : LineTable}
    (lists : WellFormedLists table.directories table.files) :
    table.WellFormed where
  hasRow := table.rows_ne_nil
  lists := lists
  keepsPath row attribution line := by
    rcases table.pathFor_eq_path_or_empty row attribution with ⟨file, member, samePath⟩ | noPath
    · rw [samePath]
      exact (lists.listed file member).path_ofPath lists.named line
    · rw [noPath, Location.path_ofPath_iff]
      simp

namespace LineSection

/-- The tables that the units of a section leave, one unit after the other. -/
def unitTables
    (order : ByteOrder)
    (constAddPc : ConstAddPc)
    (data : Bytes) :
    List (List LineTable) :=
  (Framing.ofBytes order data).frames.map fun frame => (ofFrame order constAddPc frame).tables

theorem lists_of_mem_tablesOf
    {prologue : Prologue}
    {finished : List (List LineProgram.Row)}
    {table : LineTable}
    (member : table ∈ tablesOf prologue finished) :
    table.directories = prologue.directories ∧ table.files = prologue.files := by
  obtain ⟨rows, -, made⟩ := List.mem_filterMap.mp member
  unfold LineTable.ofRows? at made
  split at made
  · cases made
    exact ⟨rfl, rfl⟩
  · cases made

/-- The tables of a unit have their lists from one prologue, where they fit together. -/
theorem exists_lists_ofFrame
    (order : ByteOrder)
    (constAddPc : ConstAddPc)
    (frame : Frame) :
    ∃ directories files,
      ∀ table ∈ (ofFrame order constAddPc frame).tables,
        table.directories = directories ∧
          table.files = files ∧
          WellFormedLists directories files := by
  unfold ofFrame
  split
  · exact ⟨[], [], by simp⟩
  · next prologue program read =>
      refine ⟨prologue.directories, prologue.files, fun table member => ?_⟩
      obtain ⟨sameDirectories, sameFiles⟩ := lists_of_mem_tablesOf member
      exact ⟨sameDirectories, sameFiles,
        Prologue.finds_read frame.claimed (.ofBytes order frame.body) prologue program read⟩

/-- What is known of the tables of a section, whatever its bytes. -/
structure WellFormed
    (order : ByteOrder)
    (constAddPc : ConstAddPc)
    (data : Bytes) :
    Prop where
  byUnit : (decode order constAddPc data).tables = (unitTables order constAddPc data).flatten
  sharesLists :
    ∀ tables ∈ unitTables order constAddPc data,
      ∀ first ∈ tables, ∀ second ∈ tables,
        first.directories = second.directories ∧ first.files = second.files
  tables : ∀ table ∈ (decode order constAddPc data).tables, table.WellFormed

/-- Every table of every section is well formed, and those of a unit share their lists. -/
theorem decode_wellFormed
    (order : ByteOrder)
    (constAddPc : ConstAddPc)
    (data : Bytes) :
    WellFormed order constAddPc data where
  byUnit := by
    simp only [decode, unitTables, List.flatMap_def, List.map_map]
    rfl
  sharesLists := by
    intro tables inUnit first firstMember second secondMember
    obtain ⟨frame, -, rfl⟩ := List.mem_map.mp inUnit
    obtain ⟨directories, files, shared⟩ := exists_lists_ofFrame order constAddPc frame
    have ofFirst := shared first firstMember
    have ofSecond := shared second secondMember
    exact ⟨ofFirst.1.trans ofSecond.1.symm, ofFirst.2.1.trans ofSecond.2.1.symm⟩
  tables := by
    intro table member
    obtain ⟨unit, inUnits, inUnit⟩ := List.mem_flatMap.mp member
    obtain ⟨frame, -, rfl⟩ := List.mem_map.mp inUnits
    obtain ⟨directories, files, shared⟩ := exists_lists_ofFrame order constAddPc frame
    obtain ⟨rfl, rfl, fit⟩ := shared table inUnit
    exact fit.wellFormed

end LineSection

end LineAtlas
