import LineAtlas.Proofs.ObjectFile.WrittenImage

namespace LineAtlas

/-!
# Written images are read back

The proof has two halves, which meet at the sections that stand in an image: the names
hold the name of such a section, and the image its bytes, at the offsets that its entry
states. Sections that stand in an image are read back from their entries, whatever else
is in it; and the layout of a written image lets every section of its table stand in it.
-/

namespace Cursor.Holds

variable
  {cursor : Cursor}
  {offset : Nat}

theorem uint16_eq
    {value : UInt16}
    (held : cursor.Holds offset (cursor.order.field 2 value.toNat)) :
    UInt16.ofNat (cursor.order.numberIn cursor.data 2 offset) = value := by
  rw [held.numberIn_eq value.toNat_lt, UInt16.ofNat_toNat]

theorem uint32_eq
    {value : UInt32}
    (held : cursor.Holds offset (cursor.order.field 4 value.toNat)) :
    UInt32.ofNat (cursor.order.numberIn cursor.data 4 offset) = value := by
  rw [held.numberIn_eq value.toNat_lt, UInt32.ofNat_toNat]

/-- Records of one size stand at multiples of that size. -/
theorem record
    {size : Nat}
    {records : List Bytes}
    (held : cursor.Holds offset records.flatten)
    (sizes : ∀ record ∈ records, record.length = size)
    {index : Nat}
    (listed : index < records.length) :
    cursor.Holds (index * size + offset) records[index] := by
  induction records generalizing offset index with
  | nil =>
      cases listed
  | cons record later inductionHypothesis =>
      obtain ⟨isSize, laterSizes⟩ := List.forall_mem_cons.mp sizes
      rw [List.flatten_cons, holds_append, isSize] at held
      cases index with
      | zero =>
          rw [Nat.zero_mul, Nat.zero_add]
          exact held.1
      | succ index =>
          have next := inductionHypothesis held.2 laterSizes (Nat.lt_of_succ_lt_succ listed)
          rwa [Nat.succ_mul, Nat.add_assoc, Nat.add_comm size]

end Cursor.Holds

namespace ObjectFile

theorem FileClass.toNat_ofNat
    {fileClass : FileClass}
    {number : Nat}
    (small : number < 256 ^ fileClass.wordSize) :
    (UInt64.ofNat number).toNat = number := by
  have narrow : 256 ^ fileClass.wordSize ≤ 2 ^ 64 := by
    cases fileClass <;> decide
  exact UInt64.toNat_ofNat_of_lt' (Nat.lt_of_lt_of_le small narrow)

/-- The classes differ only in the size of a word. -/
theorem SectionHeader.stated_eq
    {fileClass : FileClass}
    {wordSize : Nat}
    (isSize : fileClass.wordSize = wordSize)
    (order : ByteOrder)
    (entry : Bytes) :
    stated fileClass order entry = {
      nameOffset := .ofNat (order.numberIn entry 4 0)
      kind := .ofNat (order.numberIn entry 4 4)
      flags := .ofNat (order.numberIn entry wordSize 8)
      address := .ofNat (order.numberIn entry wordSize (8 + wordSize))
      offset := .ofNat (order.numberIn entry wordSize (8 + wordSize + wordSize))
      size := .ofNat (order.numberIn entry wordSize (8 + wordSize + wordSize + wordSize))
    } := by
  subst isSize
  cases fileClass <;> rfl

/-- A table whose entries have the size that the header gives is read entry by entry. -/
theorem readTable_of_holds
    {image : Cursor}
    {header : Header}
    {entries : List Bytes}
    (fits : image.size < addressLimit)
    (notAbsent : ¬ (header.tableOffset = 0 ∨ header.entryCount = 0))
    (wide : SectionHeader.entrySize header.fileClass ≤ header.entrySize.toNat)
    (count : header.entryCount.toNat = entries.length)
    (sizes : ∀ entry ∈ entries, entry.length = header.entrySize.toNat)
    (held : image.Holds header.tableOffset.toNat entries.flatten) :
    readTable image.data header = .ok (entries.map (.stated header.fileClass header.order)) := by
  have positive : 0 < SectionHeader.entrySize header.fileClass := by
    cases header.fileClass <;> decide
  have standing {index : Nat} (listed : index < entries.length) :
      image.Holds (entryOffset header index) entries[index] :=
    held.record sizes listed
  have length {index : Nat} (listed : index < entries.length) :
      entries[index].length = header.entrySize.toNat :=
    sizes _ (List.getElem_mem listed)
  have inside {index : Nat} (listed : index < entries.length) :
      entryOffset header index + header.entrySize.toNat ≤ image.size := by
    have nonempty : entries[index] ≠ [] :=
      List.ne_nil_of_length_pos (Nat.lt_of_lt_of_le positive (length listed ▸ wide))
    exact length listed ▸ (standing listed).le_size nonempty
  have slices : (List.range entries.length).map (entryBytes image.data header) = entries := by
    apply List.ext_getElem (by simp)
    intro index _ listed
    rw [List.getElem_map, List.getElem_range, entryBytes, ← length listed,
      ← List.prefix_iff_eq_take.mp (standing listed)]
  have table := congrArg (List.map (SectionHeader.stated header.fileClass header.order)) slices
  rw [List.map_map] at table
  rw [readTable, if_neg notAbsent, if_neg (Nat.not_lt.mpr wide), count,
    mapM_eq_ok fun index member => readEntry_of_le fits wide (inside (List.mem_range.mp member))]
  exact congrArg Except.ok table

/-! ## Sections that stand in an image -/

namespace PlacedSection

variable
  {layout : Layout}
  {placed : PlacedSection layout}

/-- Every entry has the size that the layout gives. -/
theorem length_entryBytes (placed : PlacedSection layout) :
    placed.entryBytes.length = layout.entrySize.toNat := by
  have enough : 8 + 4 * layout.fileClass.wordSize ≤ SectionHeader.entrySize layout.fileClass := by
    cases layout.fileClass <;> decide
  have wide := layout.wide
  have unread :
      placed.unread.toList.length = layout.entrySize.toNat - (8 + 4 * layout.fileClass.wordSize) :=
    Vector.length_toList
  simp only [entryBytes, Layout.word, List.length_append, ByteOrder.length_field, unread]
  omega

/-- The names hold the name of a section, and the image its bytes, where the entry says. -/
structure StandsIn
    (placed : PlacedSection layout)
    (names image : Cursor) :
    Prop where
  name : names.Holds placed.nameOffset placed.nameBytes
  bytes : image.Holds placed.offset placed.bytes
  nameOffset_lt : placed.nameOffset < 2 ^ 32
  stop_lt : placed.offset + placed.bytes.length < 256 ^ layout.fileClass.wordSize

variable {names image : Cursor}

/-- Sections whose names and bytes stand one after the other all stand in the image. -/
theorem standsIn_of_mem_placedFrom
    {sections : List (WrittenSection layout)}
    {nameOffset offset : Nat}
    (namesHeld : names.Holds nameOffset (sections.flatMap (·.nameBytes)))
    (bytesHeld : image.Holds offset (sections.flatMap (·.bytes)))
    (room : offset + (sections.flatMap (·.bytes)).length < 256 ^ layout.fileClass.wordSize)
    (member : placed ∈ placedFrom nameOffset offset sections)
    (nameOffset_lt : placed.nameOffset < 2 ^ 32) :
    placed.StandsIn names image := by
  induction sections generalizing nameOffset offset with
  | nil =>
      cases member
  | cons written later inductionHypothesis =>
      rw [List.flatMap_cons, Cursor.holds_append] at namesHeld bytesHeld
      rw [List.flatMap_cons, List.length_append] at room
      rcases List.mem_cons.mp member with rfl | isLater
      · exact {
          name := namesHeld.1
          bytes := bytesHeld.1
          nameOffset_lt := nameOffset_lt
          stop_lt := Nat.lt_of_le_of_lt (Nat.add_le_add_left (Nat.le_add_right _ _) _) room
        }
      · exact inductionHypothesis namesHeld.2 bytesHeld.2 (by omega) isLater

variable (stands : placed.StandsIn names image)

include stands

theorem StandsIn.offset_lt : placed.offset < 256 ^ layout.fileClass.wordSize :=
  Nat.lt_of_le_of_lt (Nat.le_add_right _ _) stands.stop_lt

theorem StandsIn.statedSize_lt : placed.statedSize < 256 ^ layout.fileClass.wordSize := by
  rw [WrittenSection.statedSize]
  split
  · exact placed.reserved.isLt
  · exact Nat.lt_of_le_of_lt (Nat.le_add_left _ _) stands.stop_lt

/-- An entry states what it is written from. -/
theorem StandsIn.stated_entryBytes :
    SectionHeader.stated layout.fileClass layout.order placed.entryBytes = placed.header := by
  -- Only the bytes that the entry holds are taken apart into fields, not those that are read.
  obtain ⟨entry, same⟩ : ∃ entry, entry = placed.entryBytes := ⟨_, rfl⟩
  have fields : (Cursor.ofBytes layout.order entry).Holds 0 placed.entryBytes :=
    same ▸ List.prefix_rfl
  simp only [entryBytes, Layout.word, Cursor.holds_append, ByteOrder.length_field] at fields
  obtain ⟨nameField, kindField, flagsField, addressField, offsetField, sizeField, -⟩ := fields
  rw [← same, SectionHeader.stated_eq rfl, header]
  congr 1
  · exact congrArg UInt32.ofNat (nameField.numberIn_eq stands.nameOffset_lt)
  · exact kindField.uint32_eq
  · exact congrArg UInt64.ofNat (flagsField.numberIn_eq placed.flags.isLt)
  · exact congrArg UInt64.ofNat (addressField.numberIn_eq placed.address.isLt)
  · exact congrArg UInt64.ofNat (offsetField.numberIn_eq stands.offset_lt)
  · exact congrArg UInt64.ofNat (sizeField.numberIn_eq stands.statedSize_lt)

/-- The name of a section is found where it stands. -/
theorem StandsIn.nameAt?_eq :
    nameAt? names.data placed.nameOffset = some placed.name := by
  obtain ⟨tail, split⟩ := stands.name
  rw [WrittenEntry.nameBytes] at split
  have noNul := Utf8.zero_not_mem_encode placed.noNul
  have terminated : (names.data.drop placed.nameOffset).contains 0 = true := by
    simp [← split]
  rw [nameAt?, if_pos terminated, ← split, Reader.takeWhile_terminated noNul, Utf8.decode?_encode]

/-- The contents of a section are the bytes where it stands, unless its kind has none. -/
theorem StandsIn.contents_header
    (fits : image.size < addressLimit) :
    placed.header.contents image.data = placed.view.contents := by
  have offset : placed.header.offset.toNat = placed.offset :=
    FileClass.toNat_ofNat stands.offset_lt
  have size : placed.header.size.toNat = placed.statedSize :=
    FileClass.toNat_ofNat stands.statedSize_lt
  rw [SectionHeader.contents_eq fits, offset, size, WrittenSection.view]
  by_cases reserved : placed.kind = SectionHeader.noContents
  · rw [if_neg fun shown => shown.1 reserved, if_pos reserved]
  · rw [WrittenSection.statedSize, if_neg reserved] at size ⊢
    rw [if_neg reserved]
    by_cases empty : placed.bytes = []
    · rw [empty, List.length_nil, List.take_zero, ite_self]
    · have inside := stands.bytes.le_size empty
      have nonzero : placed.header.size ≠ 0 := by
        intro zero
        rw [zero] at size
        exact empty (List.length_eq_zero_iff.mp size.symm)
      rw [if_pos ⟨reserved, nonzero, inside⟩, ← List.prefix_iff_eq_take.mp stands.bytes]

/-- A section that stands in an image is read back from its entry. -/
theorem StandsIn.view_sectionOf
    (fits : image.size < addressLimit) :
    (sectionOf image.data names.data placed.header).view = placed.view := by
  have nameOffset : placed.header.nameOffset.toNat = placed.nameOffset :=
    UInt32.toNat_ofNat_of_lt' stands.nameOffset_lt
  rw [Section.view, sectionOf, nameOffset, stands.nameAt?_eq, stands.contents_header fits]
  rfl

end PlacedSection

/-- Places change neither the sections nor their order. -/
theorem map_placedFrom
    {layout : Layout}
    (nameOffset offset : Nat)
    (sections : List (WrittenSection layout)) :
    (placedFrom nameOffset offset sections).map (·.toWrittenSection) = sections := by
  induction sections generalizing nameOffset offset with
  | nil =>
      rfl
  | cons written later inductionHypothesis =>
      rw [placedFrom, List.map_cons, inductionHypothesis]

/-! ## Images -/

/-- The classes differ only in the size of a word, which moves what follows. -/
theorem Header.stated_eq
    {fileClass : FileClass}
    {wordSize : Nat}
    (isSize : fileClass.wordSize = wordSize)
    (order : ByteOrder)
    (image : Bytes) :
    stated fileClass order image = {
      fileClass := fileClass
      order := order
      kind := .ofNumber (.ofNat (order.numberIn image 2 16))
      processor := .ofNumber (.ofNat (order.numberIn image 2 18))
      entry := .ofNat (order.numberIn image wordSize 24)
      tableOffset := .ofNat (order.numberIn image wordSize (24 + wordSize + wordSize))
      flags := .ofNat (order.numberIn image 4 (24 + wordSize + wordSize + wordSize))
      entrySize := .ofNat (order.numberIn image 2 (24 + wordSize + wordSize + wordSize + 10))
      entryCount := .ofNat (order.numberIn image 2 (24 + wordSize + wordSize + wordSize + 12))
      namesIndex := .ofNat (order.numberIn image 2 (24 + wordSize + wordSize + wordSize + 14))
    } := by
  subst isSize
  cases fileClass <;> rfl

namespace WrittenImage

variable (image : WrittenImage)

/-- The image, to be looked into at offsets. -/
def cursor : Cursor :=
  .ofBytes image.layout.order image.bytes

theorem length_headerBytes :
    image.headerBytes.length = Header.size image.layout.fileClass := by
  have size : Header.size image.layout.fileClass = 40 + 3 * image.layout.fileClass.wordSize := by
    cases image.layout.fileClass <;> rfl
  simp only [headerBytes, Layout.word, magic, List.length_append, List.length_cons,
    List.length_nil, ByteOrder.length_field, Vector.length_toList]
  omega

/-- The header, the bytes of the sections and the table stand one after the other. -/
theorem holds_parts :
    image.cursor.Holds 0 image.headerBytes ∧
      image.cursor.Holds (Header.size image.layout.fileClass) (image.listed.flatMap (·.bytes)) ∧
      image.cursor.Holds image.tableOffset (image.placed.flatMap (·.entryBytes)) := by
  have whole : image.cursor.Holds 0 image.bytes := List.prefix_rfl
  rw [bytes, Cursor.holds_append, Cursor.holds_append, length_headerBytes, Nat.zero_add] at whole
  exact whole

theorem headerSize_le_length :
    Header.size image.layout.fileClass ≤ image.bytes.length := by
  rw [bytes, List.length_append, length_headerBytes]
  exact Nat.le_add_right _ _

theorem identified :
    Header.Identified image.bytes image.layout.fileClass image.layout.order := by
  have enough : Header.identificationSize ≤ Header.size image.layout.fileClass := by
    cases image.layout.fileClass <;> decide
  exact {
    long := Nat.le_trans enough image.headerSize_le_length
    isMagic := rfl
    classByte := rfl
    orderByte := rfl
  }

/-- The names of all sections with a place stand after a NUL. -/
theorem nameBytes_eq :
    image.nameBytes = [0] ++ image.listed.flatMap (·.nameBytes) := by
  simp [nameBytes, listed, namesSection]

theorem tableOffset_pos : 0 < image.tableOffset := by
  have positive : 0 < Header.size image.layout.fileClass := by
    cases image.layout.fileClass <;> decide
  exact Nat.lt_of_lt_of_le positive (Nat.le_add_right _ _)

/-- The table describes the sections in their order, after one of zeros. -/
theorem map_placed :
    image.placed.map (·.toWrittenSection) =
      image.nullSection.toWrittenSection :: image.listed := by
  rw [placed, List.map_cons, map_placedFrom]

theorem length_placed : image.placed.length = image.sections.length + 2 := by
  have length := congrArg List.length image.map_placed
  simpa [listed] using length

variable
  {image}
  (fits : image.Fits)

include fits

/-- An image states the header that it is written from. -/
theorem Fits.stated_eq :
    Header.stated image.layout.fileClass image.layout.order image.bytes = image.header := by
  have fields := image.holds_parts.1
  simp only [headerBytes, Layout.word, Cursor.holds_append, ByteOrder.length_field,
    Vector.length_toList] at fields
  obtain ⟨-, -, -, -, kindField, processorField, -, entryField, -, tableField, flagsField, -,
    sizeField, countField, namesField⟩ := fields
  have count := fits.count
  rw [Header.stated_eq rfl, header]
  congr 1
  · exact congrArg FileKind.ofNumber kindField.uint16_eq
  · exact congrArg Processor.ofNumber processorField.uint16_eq
  · exact congrArg UInt64.ofNat (entryField.numberIn_eq image.entry.isLt)
  · exact congrArg UInt64.ofNat (tableField.numberIn_eq fits.tableOffset)
  · exact flagsField.uint32_eq
  · exact sizeField.uint16_eq
  · exact congrArg UInt16.ofNat (countField.numberIn_eq (by omega))
  · exact congrArg UInt16.ofNat (namesField.numberIn_eq (by omega))

theorem Fits.toNat_tableOffset : image.header.tableOffset.toNat = image.tableOffset :=
  FileClass.toNat_ofNat fits.tableOffset

theorem Fits.toNat_entryCount : image.header.entryCount.toNat = image.sections.length + 2 :=
  UInt16.toNat_ofNat_of_lt' (Nat.add_lt_add_right fits.count 2)

theorem Fits.toNat_namesIndex : image.header.namesIndex.toNat = image.sections.length + 1 :=
  UInt16.toNat_ofNat_of_lt' (Nat.lt_succ_of_lt (Nat.add_lt_add_right fits.count 1))

/-! ## Tables -/

/-- Every section of the table stands in the image. -/
theorem Fits.standsIn
    {placed : PlacedSection image.layout}
    (member : placed ∈ image.placed) :
    placed.StandsIn (.ofBytes image.layout.order image.nameBytes) image.cursor := by
  have nameOffset_lt := fits.nameOffsets placed member
  obtain ⟨-, bytesHeld, -⟩ := image.holds_parts
  have whole :
      (Cursor.ofBytes image.layout.order image.nameBytes).Holds 0
        ([0] ++ image.listed.flatMap (·.nameBytes)) := by
    rw [← nameBytes_eq]
    exact List.prefix_rfl
  obtain ⟨nulHeld, namesHeld⟩ := Cursor.holds_append.mp whole
  rcases List.mem_cons.mp member with rfl | isListed
  · exact {
      name := nulHeld
      bytes := Cursor.holds_nil
      nameOffset_lt := nameOffset_lt
      stop_lt := Nat.pow_pos (by decide)
    }
  · exact PlacedSection.standsIn_of_mem_placedFrom namesHeld bytesHeld fits.tableOffset
      isListed nameOffset_lt

/-- The table of an image is read as what it is written from. -/
theorem Fits.readTable_eq :
    readTable image.bytes image.header = .ok (image.placed.map (·.header)) := by
  obtain ⟨-, -, tableHeld⟩ := image.holds_parts
  rw [List.flatMap_def, ← fits.toNat_tableOffset] at tableHeld
  have notAbsent : ¬ (image.header.tableOffset = 0 ∨ image.header.entryCount = 0) := by
    rintro (noTable | noEntry)
    · have zero := fits.toNat_tableOffset
      rw [noTable] at zero
      exact Nat.ne_of_lt image.tableOffset_pos zero
    · have zero := fits.toNat_entryCount
      rw [noEntry] at zero
      cases zero
  have count : image.header.entryCount.toNat = (image.placed.map (·.entryBytes)).length := by
    rw [fits.toNat_entryCount, List.length_map, length_placed]
  have stated :
      (image.placed.map (·.entryBytes)).map
          (SectionHeader.stated image.layout.fileClass image.layout.order) =
        image.placed.map (·.header) := by
    rw [List.map_map]
    exact List.map_congr_left fun placed member => (fits.standsIn member).stated_entryBytes
  have short : image.cursor.size < addressLimit := fits.length
  rw [← stated]
  exact readTable_of_holds short notAbsent image.layout.wide count
    (List.forall_mem_map.mpr fun placed _ => placed.length_entryBytes) tableHeld

/-- Names are taken from the section of names. -/
theorem Fits.namesOf_eq :
    namesOf image.bytes image.header (image.placed.map (·.header)) = image.nameBytes := by
  have atIndex :
      (image.placed.map (·.toWrittenSection))[image.sections.length + 1]? =
        some image.namesSection := by
    rw [map_placed]
    simp [listed]
  rw [List.getElem?_map] at atIndex
  obtain ⟨own, isOwn, isNames⟩ := Option.map_eq_some_iff.mp atIndex
  have stands := fits.standsIn (List.mem_of_getElem? isOwn)
  have hasNames : image.header.namesIndex ≠ 0 := by
    intro noNames
    have zero := fits.toNat_namesIndex
    rw [noNames] at zero
    cases zero
  rw [namesOf, if_neg hasNames, fits.toNat_namesIndex, List.getElem?_map, isOwn]
  calc own.header.contents image.bytes
    _ = own.view.contents := stands.contents_header fits.length
    _ = image.namesSection.view.contents := by rw [isNames]
    _ = image.nameBytes := if_neg image.names_hasContents

/-- What is told of the sections that are read is what is told of those that are written. -/
theorem Fits.map_view :
    ((image.placed.map (·.header)).map (sectionOf image.bytes image.nameBytes)).map (·.view) =
      image.views := by
  have written := congrArg (List.map WrittenSection.view) image.map_placed
  rw [List.map_map] at written
  refine Eq.trans ?_ written
  rw [List.map_map, List.map_map]
  exact List.map_congr_left fun _ member => (fits.standsIn member).view_sectionOf fits.length

/-- A written image is read, and gives the sections of its table. -/
theorem Fits.read_eq :
    read image.bytes = .ok {
      image := image.bytes
      header := image.header
      sections := (image.placed.map (·.header)).map (sectionOf image.bytes image.nameBytes)
    } := by
  have headerRead : Header.read image.bytes = .ok image.header := by
    rw [Header.read_of_identified fits.length image.identified image.headerSize_le_length,
      fits.stated_eq]
  refine read_eq_ok_iff.mpr ⟨_, _, headerRead, fits.readTable_eq, ?_⟩
  rw [fits.namesOf_eq]

end WrittenImage

/-- Contents are looked up by name among what is told of the sections. -/
theorem contentsNamed?_eq
    {image : Bytes}
    {file : ObjectFile}
    (success : read image = .ok file)
    (name : String) :
    file.contentsNamed? name =
      ((file.sections.map (·.view)).find? (·.name = name)).map (·.contents) := by
  obtain ⟨sameImage, contents⟩ := contents_of_read success
  rw [contentsNamed?, sectionNamed?, sameImage, List.find?_map, Option.map_map]
  refine Option.map_congr fun found isFound => ?_
  exact (contents found (List.mem_of_find?_eq_some isFound)).symm

/-- An image with two sections of one name, and a section without contents between them. -/
def twinImage : WrittenImage where
  layout := { fileClass := .bits64, order := .big, entrySize := 70, wide := by decide }
  kind := 2
  processor := 62
  entry := 0x401000
  flags := 7
  sections := [
    { name := ".text"
      noNul := by decide
      kind := 1
      flags := 6
      address := 0x401000
      unread := Vector.replicate 30 0xAA
      bytes := [1, 2, 3]
      reserved := 0 },
    { name := ".bss"
      noNul := by decide
      kind := SectionHeader.noContents
      flags := 3
      address := 0x402000
      unread := Vector.replicate 30 0
      bytes := []
      reserved := 4096 },
    { name := ".text"
      noNul := by decide
      kind := 1
      flags := 6
      address := 0x403000
      unread := Vector.replicate 30 0
      bytes := [4, 5]
      reserved := 0 }]
  names := {
    name := ".shstrtab"
    noNul := by decide
    kind := 3
    flags := 0
    address := 0
    unread := Vector.replicate 30 0 }
  names_hasContents := by decide
  nullRest := Vector.replicate 30 0
  identification := Vector.replicate 10 0
  formatVersion := Vector.replicate 4 0
  segmentTable := Vector.replicate 8 0
  segmentSizes := Vector.replicate 6 0

end ObjectFile

end LineAtlas
