import LineAtlas.Proofs.Checked.Reading
import LineAtlas.Proofs.ObjectFile.Fields

namespace LineAtlas.Checked

/-!
# Object files on a processor

An image is looked at by offset. The size of the image is compared with that of the
header before any field of it is read, and so is the size of an entry of the section
header table: the fields are certain to be there, and reading them never fails.
-/

open ObjectFile (FileClass Header SectionHeader Section)

/-! ## Headers -/

/-- Fails unless an image starts with the magic bytes. -/
def requireMagic (image : Bytes) : Except Stop Unit := do
  let start ← part image 0 4
  if start ≠ ObjectFile.magic then
    let found ← part image 0 4
    throw (.failure (.wrongMagic "ELF" found))

/-- Reads the fields after the identification, all of which are certain to be there. -/
def readFields
    (fileClass : FileClass)
    (image : Cursor) :
    Except Stop Header := do
  let kind ← certain (uint16At image 16)
  let processor ← certain (uint16At image 18)
  match fileClass with
  | .bits32 =>
      return {
        fileClass := fileClass
        order := image.order
        kind := .ofNumber kind
        processor := .ofNumber processor
        entry := (← certain (uint32At image 24)).toUInt64
        tableOffset := (← certain (uint32At image 32)).toUInt64
        flags := ← certain (uint32At image 36)
        entrySize := ← certain (uint16At image 46)
        entryCount := ← certain (uint16At image 48)
        namesIndex := ← certain (uint16At image 50)
      }
  | .bits64 =>
      return {
        fileClass := fileClass
        order := image.order
        kind := .ofNumber kind
        processor := .ofNumber processor
        entry := ← certain (uint64At image 24)
        tableOffset := ← certain (uint64At image 40)
        flags := ← certain (uint32At image 48)
        entrySize := ← certain (uint16At image 58)
        entryCount := ← certain (uint16At image 60)
        namesIndex := ← certain (uint16At image 62)
      }

/-- Reads the header of an image. -/
def readFileHeader (image : Bytes) : Except Stop Header := do
  look (Header.requireSize Header.identificationSize image)
  requireMagic image
  let fileClass ← look (Header.readClass (← item image 4))
  let order ← look (Header.readOrder (← item image 5))
  look (Header.requireSize (Header.size fileClass) image)
  readFields fileClass (.ofBytes order image)

/-! ## Section headers -/

/-- Reads one entry, all fields of which are certain to be there. -/
def readSectionHeader
    (fileClass : FileClass)
    (order : ByteOrder)
    (entry : Bytes) :
    Except Stop SectionHeader := do
  look (Header.requireSize (SectionHeader.entrySize fileClass) entry)
  let cursor := Cursor.ofBytes order entry
  match fileClass with
  | .bits32 =>
      return {
        nameOffset := ← certain (uint32At cursor 0)
        kind := ← certain (uint32At cursor 4)
        flags := (← certain (uint32At cursor 8)).toUInt64
        address := (← certain (uint32At cursor 12)).toUInt64
        offset := (← certain (uint32At cursor 16)).toUInt64
        size := (← certain (uint32At cursor 20)).toUInt64
      }
  | .bits64 =>
      return {
        nameOffset := ← certain (uint32At cursor 0)
        kind := ← certain (uint32At cursor 4)
        flags := ← certain (uint64At cursor 8)
        address := ← certain (uint64At cursor 16)
        offset := ← certain (uint64At cursor 24)
        size := ← certain (uint64At cursor 32)
      }

/-- Reads entry `index` of the section header table. -/
def readEntry
    (image : Bytes)
    (header : Header)
    (index : Nat) :
    Except Stop SectionHeader := do
  let distance := index * header.entrySize.toNat
  if addressLimit ≤ distance ∨ addressLimit ≤ distance + header.tableOffset.toNat then
    throw (.failure (.overflow "section header table"))
  let start := distance + header.tableOffset.toNat
  let stop := boundedSum start header.entrySize.toNat
  if image.length < stop then
    throw (.failure (.fileTooShort stop image.length))
  readSectionHeader header.fileClass header.order (← part image start stop)

/-- Reads the section header table. -/
def readTable
    (image : Bytes)
    (header : Header) :
    Except Stop (List SectionHeader) := do
  if header.tableOffset = 0 ∨ header.entryCount = 0 then
    return []
  if header.entrySize.toNat < SectionHeader.entrySize header.fileClass then
    throw (.failure (.invalidStructure "section header table" header.tableOffset.toNat
      ("entry size " ++ toString header.entrySize.toNat ++ " is too small")))
  (List.range header.entryCount.toNat).mapM (readEntry image header)

/-! ## Sections -/

/-- The name at an offset, up to its NUL. -/
def nameAt?
    (names : Bytes)
    (offset : Nat) :
    Except Stop (Option String) := do
  if names.length < offset then
    return none
  let rest := names.drop offset
  match rest.findIdx? (· = 0) with
  | some stop => return Utf8.decode? (← part rest 0 stop)
  | none => return none

/-- The section that an entry of the table describes. -/
def sectionOf
    (image names : Bytes)
    (header : SectionHeader) :
    Except Stop Section := do
  let name? ← nameAt? names header.nameOffset.toNat
  return {
    header := header
    name := name?.getD ""
    contents := header.contents image
  }

/-- Reads an image. -/
def readObjectFile (image : Bytes) : Except Stop ObjectFile := do
  let header ← readFileHeader image
  let table ← readTable image header
  let names := ObjectFile.namesOf image header table
  let sections ← table.mapM (sectionOf image names)
  return { image := image, header := header, sections := sections }

/-! ## Agreement -/

section

variable
  {cursor : Cursor}
  {offset : Nat}

/-- A field inside the data is certain to be read. -/
theorem certain_field
    {α : Type}
    (short : cursor.size < sizeLimit)
    (subject : String)
    {width : Nat}
    (inside : offset + width ≤ cursor.size)
    (ofNumber : Nat → α) :
    certain (look ((cursor.numberAt subject width offset).map ofNumber)) =
      look ((cursor.numberAt subject width offset).map ofNumber) := by
  have bounds := sizeLimit_bounds
  apply certain_look
  rw [Cursor.numberAt, Cursor.bytesAt, if_neg (by omega), if_neg (Nat.not_lt.mpr inside)]
  exact ⟨_, rfl⟩

variable (short : cursor.size < sizeLimit)

include short

theorem certain_uint16At (inside : offset + 2 ≤ cursor.size) :
    certain (uint16At cursor offset) = look (cursor.uint16At offset) := by
  rw [uint16At_eq]
  exact certain_field short "u16" inside UInt16.ofNat

theorem certain_uint32At (inside : offset + 4 ≤ cursor.size) :
    certain (uint32At cursor offset) = look (cursor.uint32At offset) := by
  rw [uint32At_eq]
  exact certain_field short "u32" inside UInt32.ofNat

theorem certain_uint64At (inside : offset + 8 ≤ cursor.size) :
    certain (uint64At cursor offset) = look (cursor.uint64At offset) := by
  rw [uint64At_eq]
  exact certain_field short "u64" inside UInt64.ofNat

theorem readFields_eq
    {fileClass : FileClass}
    (inside : Header.size fileClass ≤ cursor.size) :
    readFields fileClass cursor = look (Header.readFields fileClass cursor) := by
  cases fileClass with
  | bits32 =>
      rw [Header.size] at inside
      simp (disch := omega) only [readFields, Header.readFields, certain_uint16At short,
        certain_uint32At short, look_bind]
      rfl
  | bits64 =>
      rw [Header.size] at inside
      simp (disch := omega) only [readFields, Header.readFields, certain_uint16At short,
        certain_uint32At short, certain_uint64At short, look_bind]
      rfl

end

section

variable {image : Bytes}

theorem requireMagic_eq (enough : 16 ≤ image.length) :
    requireMagic image = look (Header.requireMagic image) := by
  have start : part image 0 4 = .ok (image.take 4) :=
    part_of_le (Nat.zero_le _) (by omega)
  rw [requireMagic, start, ok_bind, Header.requireMagic]
  by_cases isMagic : image.take 4 = ObjectFile.magic
  · rw [if_neg (not_not.mpr isMagic), if_pos (Header.isObjectFile_iff.mpr isMagic)]
    rfl
  · rw [if_pos isMagic, if_neg (mt Header.isObjectFile_iff.mp isMagic)]
    rfl

theorem readFileHeader_eq (short : image.length < sizeLimit) :
    readFileHeader image = look (Header.read image) := by
  rw [readFileHeader, Header.read]
  rcases Nat.lt_or_ge image.length Header.identificationSize with tooShort | enough
  · rw [Header.requireSize_of_lt tooShort]
    rfl
  · rw [Header.identificationSize] at enough
    rw [Header.identificationSize, Header.requireSize_of_le enough, look_ok, ok_bind,
      requireMagic_eq enough, item_of_lt (by omega), item_of_lt (by omega)]
    simp only [ok_bind, look_bind, look_ok]
    congr 1
    funext _
    congr 1
    funext fileClass
    congr 1
    funext order
    rcases Nat.lt_or_ge image.length (Header.size fileClass) with small | whole
    · rw [Header.requireSize_of_lt small]
      rfl
    · have small : (Cursor.ofBytes order image).size < sizeLimit :=
        short
      rw [Header.requireSize_of_le whole, readFields_eq small whole]

/-- An entry has all of its fields once its size has been looked at. -/
theorem readSectionHeader_eq
    {entry : Bytes}
    (short : entry.length < sizeLimit)
    (fileClass : FileClass)
    (order : ByteOrder) :
    readSectionHeader fileClass order entry = look (SectionHeader.read fileClass order entry) := by
  rw [readSectionHeader, SectionHeader.read]
  rcases Nat.lt_or_ge entry.length (SectionHeader.entrySize fileClass) with tooShort | enough
  · rw [Header.requireSize_of_lt tooShort]
    rfl
  · rw [Header.requireSize_of_le enough]
    have inside : SectionHeader.entrySize fileClass ≤ (Cursor.ofBytes order entry).size :=
      enough
    have small : (Cursor.ofBytes order entry).size < sizeLimit :=
      short
    cases fileClass with
    | bits32 =>
        rw [SectionHeader.entrySize] at inside
        simp (disch := omega) only [certain_uint32At small, look_bind]
        rfl
    | bits64 =>
        rw [SectionHeader.entrySize] at inside
        simp (disch := omega) only [certain_uint32At small, certain_uint64At small, look_bind]
        rfl

theorem readEntry_eq
    (short : image.length < sizeLimit)
    (header : Header)
    (index : Nat) :
    readEntry image header index = look (ObjectFile.readEntry image header index) := by
  have sameBound :
      (addressLimit ≤ index * header.entrySize.toNat ∨
          addressLimit ≤ index * header.entrySize.toNat + header.tableOffset.toNat) ↔
        addressLimit ≤ ObjectFile.entryOffset header index := by
    rw [ObjectFile.entryOffset]
    omega
  rw [readEntry, ObjectFile.readEntry]
  simp only [sameBound]
  split
  · rfl
  · next isPosition =>
      have forward : ObjectFile.entryOffset header index ≤ ObjectFile.entryStop header index := by
        rw [ObjectFile.entryStop]
        omega
      have sameStart :
          index * header.entrySize.toNat + header.tableOffset.toNat =
            ObjectFile.entryOffset header index :=
        rfl
      have sameStop :
          boundedSum (ObjectFile.entryOffset header index) header.entrySize.toNat =
            ObjectFile.entryStop header index :=
        rfl
      rw [sameStart, sameStop]
      by_cases tooShort : image.length < ObjectFile.entryStop header index
      · rw [if_pos tooShort, if_pos tooShort]
        rfl
      · have entryShort :
            ((image.drop (ObjectFile.entryOffset header index)).take
                (ObjectFile.entryStop header index - ObjectFile.entryOffset header index)).length <
              sizeLimit := by
          rw [List.length_take, List.length_drop]
          omega
        rw [if_neg tooShort, if_neg tooShort, part_of_le forward (Nat.not_lt.mp tooShort), ok_bind,
          readSectionHeader_eq entryShort]

theorem readTable_eq
    (short : image.length < sizeLimit)
    (header : Header) :
    readTable image header = look (ObjectFile.readTable image header) := by
  rw [readTable, ObjectFile.readTable]
  split
  · rfl
  · split
    · rfl
    · exact mapM_look (readEntry_eq short header) _

/-- An offset past the end has no name, and neither has one without a NUL after it. -/
theorem nameAt?_eq
    (names : Bytes)
    (offset : Nat) :
    nameAt? names offset = .ok (ObjectFile.nameAt? names offset) := by
  rw [nameAt?, ObjectFile.nameAt?]
  split
  · next beyond =>
      rw [List.drop_eq_nil_of_le (Nat.le_of_lt beyond)]
      rfl
  · dsimp only
    cases found : (names.drop offset).findIdx? (· = 0) with
    | none =>
        rw [if_neg (absent_of_findIdx? found)]
        rfl
    | some stop =>
        obtain ⟨inside, present, taken⟩ := present_of_findIdx? found
        rw [if_pos present, taken]
        dsimp only
        rw [part_of_le (Nat.zero_le _) (Nat.le_of_lt inside)]
        rfl

theorem sectionOf_eq
    (image names : Bytes)
    (header : SectionHeader) :
    sectionOf image names header = .ok (ObjectFile.sectionOf image names header) := by
  rw [sectionOf, nameAt?_eq]
  rfl

/-- An image is read on a processor as it is without traps. -/
theorem readObjectFile_eq (short : image.length < sizeLimit) :
    readObjectFile image = look (ObjectFile.read image) := by
  rw [readObjectFile, readFileHeader_eq short, ObjectFile.read, look_bind]
  congr 1
  funext header
  rw [readTable_eq short, look_bind]
  congr 1
  funext table
  dsimp only
  rw [mapM_ok (sectionOf_eq image _)]
  rfl

end

end LineAtlas.Checked
