import LineAtlas.Proofs.Checked.LineSection
import LineAtlas.Proofs.Checked.ObjectFile
import LineAtlas.Proofs.Checked.RangeSection
import LineAtlas.Proofs.LineSection.PathSize
import LineAtlas.Proofs.Lookup.ListedAddresses

namespace LineAtlas.Checked

/-!
# Atlases on a processor

From an image to the answers of its atlas, nothing traps. An image is read, its line
sections and range sections are decoded one after the other, and an address is looked
up. The path of the location is cut by offset, once before and once after its last
slash; a path is far from having as many bytes as there are positions.

What is computed for messages alone, and how memory is found for what is kept, is left
out.
-/

/-! ## Locations -/

/-- The offset of the last slash. -/
def lastSlash? : List Char → Option Nat
  | [] => none
  | character :: rest =>
      match lastSlash? rest with
      | some offset => some (character.utf8Size + offset)
      | none =>
          if character = '/' then
            some 0
          else
            none

/-- The characters before and after an offset, which must not be inside of one. -/
def splitText (offset : Nat) : List Char → Except Stop (List Char × List Char)
  | [] =>
      if offset = 0 then
        .ok ([], [])
      else
        .error (.trap .range)
  | character :: rest => do
      if offset = 0 then
        return ([], character :: rest)
      if offset < character.utf8Size then
        throw (.trap .range)
      let (front, back) ← splitText (offset - character.utf8Size) rest
      return (character :: front, back)

/-- A line of the file at `path`. -/
def locationOf
    (line : Int64)
    (path : String) :
    Except Stop Location :=
  match lastSlash? path.toList with
  | none =>
      return { line := line, directory := "", file := path, context := none }
  | some slash => do
      let (directory, _) ← splitText slash path.toList
      let (_, file) ← splitText (← sum slash 1) path.toList
      return {
        line := line
        directory := String.ofList directory
        file := String.ofList file
        context := none
      }

/-- The source location of an address. -/
def locate?
    (store : LineStore)
    (attribution : Attribution)
    (address : UInt64) :
    Except Stop (Option Location) :=
  match store.find? address with
  | none => return none
  | some hit => do
      return some (← locationOf hit.row.line (hit.table.pathFor hit.row attribution))

/-! ## Sections -/

/-- Adds what one section says. -/
def addSection
    (order : ByteOrder)
    (constAddPc : ConstAddPc)
    (known : Knowledge)
    (found : NamedSection) :
    Except Stop Knowledge := do
  if found.name = rangeSectionName then
    let decoded ← decodeRanges order found.contents
    return {
      known with
      rangeSets := known.rangeSets ++ decoded.sets
      warnings := known.warnings ++ decoded.warnings
    }
  else if found.name = lineSectionName then
    let decoded ← decodeLines constAddPc order found.contents
    return {
      known with
      store := known.store.extend decoded.tables
      warnings := known.warnings ++ decoded.warnings
    }
  else
    return known

/-- What all sections of a source say. -/
def knowledgeOf
    (constAddPc : ConstAddPc)
    (source : SectionSource) :
    Except Stop Knowledge :=
  source.present.foldlM (addSection source.order constAddPc) .empty

/-! ## Answers -/

/-- What an atlas knows of an image, and what it answers. -/
structure Answers where
  known : Knowledge
  location : Option Location
  rowAddresses : List UInt64
  primaryPaths : List String
  deriving DecidableEq

/-- The answers about an image, for one address. -/
def answers
    (options : Options)
    (image : Bytes)
    (address : UInt64) :
    Except ReadError Answers := do
  let file ← ObjectFile.read image
  let atlas := (Atlas.ofSource options (.ofObjectFile file)).load
  return {
    known := atlas.known
    location := atlas.locate? address
    rowAddresses := atlas.known.store.rowAddresses
    primaryPaths := atlas.known.store.primaryPaths
  }

/-- The answers as a processor computes them. -/
def answersOf
    (options : Options)
    (image : Bytes)
    (address : UInt64) :
    Except Stop Answers := do
  let file ← readObjectFile image
  let known ← knowledgeOf options.constAddPc (.ofObjectFile file)
  let location ← locate? known.store options.attribution address
  return {
    known := known
    location := location
    rowAddresses := known.store.rowAddresses
    primaryPaths := known.store.primaryPaths
  }

/-! ## Agreement -/

theorem lastSlash?_of_noSlash
    {text : List Char}
    (noSlash : '/' ∉ text) :
    lastSlash? text = none := by
  induction text with
  | nil =>
      rfl
  | cons character rest inductionHypothesis =>
      rw [List.mem_cons, not_or] at noSlash
      rw [lastSlash?, inductionHypothesis noSlash.2]
      exact if_neg (Ne.symm noSlash.1)

theorem lastSlash?_of_last
    (front : List Char)
    {back : List Char}
    (noSlash : '/' ∉ back) :
    lastSlash? (front ++ '/' :: back) = some (String.utf8Len front) := by
  induction front with
  | nil =>
      rw [List.nil_append, lastSlash?, lastSlash?_of_noSlash noSlash]
      rfl
  | cons character rest inductionHypothesis =>
      rw [List.cons_append, lastSlash?, inductionHypothesis, String.utf8Len_cons, Nat.add_comm]

/-- A text can be split after any of its characters. -/
theorem splitText_append (front back : List Char) :
    splitText (String.utf8Len front) (front ++ back) = .ok (front, back) := by
  induction front with
  | nil =>
      cases back <;> rfl
  | cons character rest inductionHypothesis =>
      have positive := character.utf8Size_pos
      rw [List.cons_append, splitText, String.utf8Len_cons, if_neg (by omega), if_neg (by omega),
        Nat.add_sub_cancel, inductionHypothesis]
      rfl

theorem locationOf_eq
    {path : String}
    (small : path.utf8ByteSize + 1 < addressLimit)
    (line : Int64) :
    locationOf line path = .ok (.ofPath line path) := by
  rw [locationOf]
  by_cases slash : '/' ∈ path.toList
  · obtain ⟨front, back, split, noSlash⟩ := Location.exists_last_slash slash
    obtain ⟨sameParent, sameName⟩ := Location.split_at_last_slash front noSlash
    have whole : path.utf8ByteSize = String.utf8Len (front ++ '/' :: back) := by
      rw [← split, ← String.utf8ByteSize_ofList, String.ofList_toList]
    have room : String.utf8Len front + 1 < addressLimit := by
      rw [String.utf8Len_append] at whole
      omega
    have afterSlash : splitText (String.utf8Len front + 1) (front ++ '/' :: back) =
        .ok (front ++ ['/'], back) := by
      have cut := splitText_append (front ++ ['/']) back
      rwa [String.utf8Len_append, List.append_assoc] at cut
    rw [split, lastSlash?_of_last front noSlash]
    dsimp only
    rw [splitText_append, ok_bind]
    dsimp only
    rw [sum_of_lt room, ok_bind, afterSlash, Location.ofPath, split, sameParent, sameName]
    rfl
  · obtain ⟨noParent, wholeName⟩ := Location.split_without_slash slash
    rw [lastSlash?_of_noSlash slash, Location.ofPath, noParent, wholeName, String.ofList_toList]
    rfl

/-- The table of a hit is one of the store. -/
theorem mem_tables_of_find?
    {store : LineStore}
    {address : UInt64}
    {hit : Hit}
    (found : store.find? address = some hit) :
    hit.table ∈ store.tables := by
  obtain ⟨⟨table, index⟩, listed, hits⟩ := List.exists_of_findSome?_eq_some found
  obtain ⟨-, row, -, same⟩ :
      table.brackets address = true ∧
        ∃ row, table.floorRow? address = some row ∧
          { index := index, table := table, row := row } = hit := by
    simpa [LineStore.hitIn?] using hits
  rw [← same]
  exact List.fst_mem_of_mem_zipIdx listed

theorem locate?_eq
    {store : LineStore}
    (small : ∀ table ∈ store.tables, table.HasSmallPaths)
    (attribution : Attribution)
    (address : UInt64) :
    locate? store attribution address = .ok (store.locate? attribution address) := by
  rw [locate?, LineStore.locate?]
  cases found : store.find? address with
  | none =>
      rfl
  | some hit =>
      have room :
          (hit.table.pathFor hit.row attribution).utf8ByteSize + 1 < addressLimit := by
        rcases hit.table.pathFor_eq_path_or_empty hit.row attribution with
          ⟨file, member, samePath⟩ | noPath
        · rw [samePath]
          exact small hit.table (mem_tables_of_find? found) file member
        · rw [noPath]
          decide
      dsimp only
      rw [locationOf_eq room]
      rfl

theorem addSection_eq
    {found : NamedSection}
    (short : found.contents.length < sizeLimit)
    (order : ByteOrder)
    (constAddPc : ConstAddPc)
    (known : Knowledge) :
    addSection order constAddPc known found =
      .ok (Knowledge.addSection order constAddPc known found) := by
  rw [addSection, Knowledge.addSection, decodeRanges_eq short, decodeLines_eq short]
  split
  · rfl
  · split <;> rfl

theorem addSections_eq
    (order : ByteOrder)
    (constAddPc : ConstAddPc)
    {sections : List NamedSection}
    (short : ∀ found ∈ sections, found.contents.length < sizeLimit)
    (known : Knowledge) :
    sections.foldlM (addSection order constAddPc) known =
      .ok (sections.foldl (Knowledge.addSection order constAddPc) known) := by
  induction sections generalizing known with
  | nil =>
      rfl
  | cons found later inductionHypothesis =>
      obtain ⟨firstShort, laterShort⟩ := List.forall_mem_cons.mp short
      rw [List.foldlM_cons, addSection_eq firstShort, ok_bind, inductionHypothesis laterShort,
        List.foldl_cons]

/-- Sections have no more bytes than the image that they are in. -/
theorem length_contents_le
    (header : ObjectFile.SectionHeader)
    (image : Bytes) :
    (header.contents image).length ≤ image.length := by
  rw [ObjectFile.SectionHeader.contents]
  split
  · rw [List.length_take, List.length_drop]
    omega
  · exact Nat.zero_le _

theorem length_contents_of_read
    {image : Bytes}
    {file : ObjectFile}
    (success : ObjectFile.read image = .ok file)
    {found : NamedSection}
    (member : found ∈ (SectionSource.ofObjectFile file).present) :
    found.contents.length ≤ image.length := by
  obtain ⟨-, contents⟩ := ObjectFile.contents_of_read success
  obtain ⟨listed, isListed, rfl⟩ :
      ∃ listed ∈ file.sections,
        ({ name := listed.name
           address := listed.header.address
           size := listed.header.size
           contents := listed.contents } : NamedSection) = found := by
    simpa [SectionSource.present, SectionSource.ofObjectFile] using member
  show listed.contents.length ≤ image.length
  rw [contents listed isListed]
  exact length_contents_le listed.header image

/-- No table of an atlas has a path that is too large. -/
theorem hasSmallPaths_ofSource
    {constAddPc : ConstAddPc}
    {source : SectionSource}
    {table : LineTable}
    (member : table ∈ (Knowledge.ofSource constAddPc source).store.tables) :
    table.HasSmallPaths := by
  rw [Knowledge.tables_ofSource] at member
  obtain ⟨found, -, decoded⟩ := List.mem_flatMap.mp member
  exact LineSection.hasSmallPaths_of_mem decoded

theorem answersOf_eq
    {image : Bytes}
    (short : image.length < sizeLimit)
    (options : Options)
    (address : UInt64) :
    answersOf options image address = look (answers options image address) := by
  rw [answersOf, readObjectFile_eq short, answers]
  cases read : ObjectFile.read image with
  | error cause =>
      rfl
  | ok file =>
      have known :
          knowledgeOf options.constAddPc (.ofObjectFile file) =
            .ok (.ofSource options.constAddPc (.ofObjectFile file)) :=
        addSections_eq _ _ (fun found member =>
          Nat.lt_of_le_of_lt (length_contents_of_read read member) short) _
      rw [look_ok, ok_bind, known, ok_bind, locate?_eq fun table => hasSmallPaths_ofSource]
      rfl

/--
Whatever an image shorter than two to the power of 63 bytes holds, a processor computes
the answers that are due, or the failure, and nothing traps on the way.

So no line range that divides is zero, the fields of headers are there once their sizes
have been looked at, and splitting off a unit never fails.

One sum is left out: the number of rows of all tables, which is formed for a message once
all sections have been read. It does not fit only if two to the power of 64 rows are kept.
-/
theorem never_traps
    {image : Bytes}
    (short : image.length < 2 ^ 63)
    (options : Options)
    (address : UInt64) :
    answersOf options image address = look (answers options image address) ∧
      ∀ trap, answersOf options image address ≠ .error (.trap trap) := by
  have same := answersOf_eq short options address
  refine ⟨same, fun trap => ?_⟩
  rw [same]
  exact look_ne_trap _ trap

/--
An image of two sections: the names, and a unit whose program has one row, for the
address 256 in the file `a`.
-/
def oneRowImage : Bytes :=
  [127, 69, 76, 70, 1, 1, 1, 0, 0, 0, 0, 0, 0, 0, 0, 0, 2, 0, 105, 0, 1, 0, 0, 0]
    ++ [0, 0, 0, 0, 0, 0, 0, 0, 96, 0, 0, 0, 0, 0, 0, 0, 52, 0, 0, 0, 0, 0, 40, 0, 2, 0, 1, 0]
    ++ [27, 0, 0, 0, 2, 0, 12, 0, 0, 0, 1, 1, 0, 1, 1, 0, 97, 0, 0, 0, 0, 0]
    ++ [0, 3, 2, 0, 1, 1, 0, 1, 1]
    ++ [0, 46, 100, 101, 98, 117, 103, 95, 108, 105, 110, 101, 0]
    ++ [1, 0, 0, 0, 1, 0, 0, 0, 0, 0, 0, 0, 0, 0, 0, 0, 52, 0, 0, 0, 31, 0, 0, 0]
    ++ List.replicate 16 0
    ++ [0, 0, 0, 0, 3, 0, 0, 0, 0, 0, 0, 0, 0, 0, 0, 0, 83, 0, 0, 0, 13, 0, 0, 0]
    ++ List.replicate 16 0

/-- The row of this image is found. -/
theorem never_traps_oneRowImage :
    let options : Options := { constAddPc := .standard, attribution := .perRow }
    let location : Location := { line := 1, directory := ".", file := "a", context := none }
    oneRowImage.length < 2 ^ 63 ∧
      (∀ trap, answersOf options oneRowImage 256 ≠ .error (.trap trap)) ∧
      ((answersOf options oneRowImage 256).toOption.map fun found =>
          (found.location, found.rowAddresses, found.primaryPaths)) =
        some (some location, [256], ["./a"]) := by
  intro options location
  have short : oneRowImage.length < 2 ^ 63 := by decide +kernel
  obtain ⟨same, untrapped⟩ := never_traps short options 256
  refine ⟨short, untrapped, ?_⟩
  rw [same]
  decide +kernel

end LineAtlas.Checked
