import LineAtlas.ObjectFile.Image
import LineAtlas.Proofs.Offsets

namespace LineAtlas

/-!
# What the fields of an object file state

The header of an image and the entries of its section header table are numbers at fixed
offsets. `Header.stated` and `SectionHeader.stated` list these offsets; images and
entries that are long enough are read to exactly what they state, and so a table is read
exactly if all of its entries are inside the image.
-/

/-- Looks that all succeed give their values in a row. -/
theorem mapM_eq_ok
    {ε α β : Type}
    {look : α → Except ε β}
    {value : α → β}
    {items : List α}
    (succeeds : ∀ item ∈ items, look item = .ok (value item)) :
    items.mapM look = .ok (items.map value) := by
  induction items with
  | nil =>
      rfl
  | cons item later inductionHypothesis =>
      obtain ⟨first, rest⟩ := List.forall_mem_cons.mp succeeds
      rw [List.mapM_cons, first, inductionHypothesis rest]
      rfl

/-- A row of looks ends at the first one that fails. -/
theorem mapM_eq_error
    {ε α β : Type}
    {look : α → Except ε β}
    {before after : List α}
    {item : α}
    {cause : ε}
    (earlier : ∀ other ∈ before, ∃ value, look other = .ok value)
    (failed : look item = .error cause) :
    (before ++ item :: after).mapM look = .error cause := by
  induction before with
  | nil =>
      rw [List.nil_append, List.mapM_cons, failed]
      rfl
  | cons other later inductionHypothesis =>
      obtain ⟨⟨value, first⟩, rest⟩ := List.forall_mem_cons.mp earlier
      rw [List.cons_append, List.mapM_cons, first, inductionHypothesis rest]
      rfl

/-- The number in the field of `width` bytes at `offset`. -/
def ByteOrder.numberIn
    (order : ByteOrder)
    (bytes : Bytes)
    (width offset : Nat) :
    Nat :=
  order.number ((bytes.drop offset).take width)

theorem ByteOrder.numberIn_lt
    (order : ByteOrder)
    (bytes : Bytes)
    (width offset : Nat) :
    order.numberIn bytes width offset < 256 ^ width := by
  have short : ((bytes.drop offset).take width).length ≤ width :=
    List.length_take_le _ _
  exact Nat.lt_of_lt_of_le (order.number_lt _) (Nat.pow_le_pow_right (by decide) short)

namespace Cursor

variable
  {cursor : Cursor}
  {offset : Nat}

/-- The field that stands at an offset states its number. -/
theorem Holds.numberIn_eq
    {width number : Nat}
    (held : cursor.Holds offset (cursor.order.field width number))
    (small : number < 256 ^ width) :
    cursor.order.numberIn cursor.data width offset = number := by
  have slice := List.prefix_iff_eq_take.mp held
  rw [ByteOrder.length_field] at slice
  rw [ByteOrder.numberIn, ← slice, ByteOrder.number_field _ small]

section

variable (fits : cursor.size < addressLimit)

include fits

theorem numberAt_of_le
    {width : Nat}
    (inside : offset + width ≤ cursor.size)
    (subject : String) :
    cursor.numberAt subject width offset =
      .ok (cursor.order.numberIn cursor.data width offset) := by
  rw [numberAt, bytesAt, if_neg (by omega), if_neg (Nat.not_lt.mpr inside)]
  rfl

theorem uint16At_of_le (inside : offset + 2 ≤ cursor.size) :
    cursor.uint16At offset = .ok (.ofNat (cursor.order.numberIn cursor.data 2 offset)) := by
  rw [uint16At, numberAt_of_le fits inside]
  rfl

theorem uint32At_of_le (inside : offset + 4 ≤ cursor.size) :
    cursor.uint32At offset = .ok (.ofNat (cursor.order.numberIn cursor.data 4 offset)) := by
  rw [uint32At, numberAt_of_le fits inside]
  rfl

theorem uint64At_of_le (inside : offset + 8 ≤ cursor.size) :
    cursor.uint64At offset = .ok (.ofNat (cursor.order.numberIn cursor.data 8 offset)) := by
  rw [uint64At, numberAt_of_le fits inside]
  rfl

end

end Cursor

namespace ObjectFile

/-! ## Headers -/

/-- The byte that names a class. -/
def FileClass.byte : FileClass → UInt8
  | bits32 => 1
  | bits64 => 2

/-- The byte that names a byte order. -/
def orderByte : ByteOrder → UInt8
  | .little => 1
  | .big => 2

namespace Header

/-- The header that an image states, if it has the given class and byte order. -/
def stated
    (fileClass : FileClass)
    (order : ByteOrder)
    (image : Bytes) :
    Header :=
  match fileClass with
  | .bits32 => {
      fileClass := fileClass
      order := order
      kind := .ofNumber (.ofNat (order.numberIn image 2 16))
      processor := .ofNumber (.ofNat (order.numberIn image 2 18))
      entry := .ofNat (order.numberIn image 4 24)
      tableOffset := .ofNat (order.numberIn image 4 32)
      flags := .ofNat (order.numberIn image 4 36)
      entrySize := .ofNat (order.numberIn image 2 46)
      entryCount := .ofNat (order.numberIn image 2 48)
      namesIndex := .ofNat (order.numberIn image 2 50)
    }
  | .bits64 => {
      fileClass := fileClass
      order := order
      kind := .ofNumber (.ofNat (order.numberIn image 2 16))
      processor := .ofNumber (.ofNat (order.numberIn image 2 18))
      entry := .ofNat (order.numberIn image 8 24)
      tableOffset := .ofNat (order.numberIn image 8 40)
      flags := .ofNat (order.numberIn image 4 48)
      entrySize := .ofNat (order.numberIn image 2 58)
      entryCount := .ofNat (order.numberIn image 2 60)
      namesIndex := .ofNat (order.numberIn image 2 62)
    }

/-- A 32-bit field is widened without a change of its number. -/
theorem toUInt64_ofNat
    (order : ByteOrder)
    (bytes : Bytes)
    (offset : Nat) :
    (UInt32.ofNat (order.numberIn bytes 4 offset)).toUInt64 =
      .ofNat (order.numberIn bytes 4 offset) := by
  have small := order.numberIn_lt bytes 4 offset
  apply UInt64.toNat_inj.mp
  rw [UInt32.toNat_toUInt64, UInt32.toNat_ofNat_of_lt' small,
    UInt64.toNat_ofNat_of_lt' (Nat.lt_trans small (by decide))]

/-- The fields of an image that is long enough are what it states. -/
theorem readFields_of_le
    {fileClass : FileClass}
    {image : Cursor}
    (fits : image.size < addressLimit)
    (whole : size fileClass ≤ image.size) :
    readFields fileClass image = .ok (stated fileClass image.order image.data) := by
  cases fileClass with
  | bits32 =>
      rw [size] at whole
      have widened := toUInt64_ofNat image.order image.data
      simp (disch := omega) only [readFields, Cursor.uint16At_of_le fits,
        Cursor.uint32At_of_le fits]
      simp only [stated, ← widened]
      rfl
  | bits64 =>
      rw [size] at whole
      simp (disch := omega) only [readFields, Cursor.uint16At_of_le fits,
        Cursor.uint32At_of_le fits, Cursor.uint64At_of_le fits]
      rfl

/-- An image starts with the magic bytes and names a class and a byte order. -/
structure Identified
    (image : Bytes)
    (fileClass : FileClass)
    (order : ByteOrder) :
    Prop where
  long : identificationSize ≤ image.length
  isMagic : image.take 4 = magic
  classByte : image[4]? = some fileClass.byte
  orderByte : image[5]? = some (orderByte order)

theorem requireSize_of_le
    {expected : Nat}
    {image : Bytes}
    (enough : expected ≤ image.length) :
    requireSize expected image = .ok () :=
  if_neg (Nat.not_lt.mpr enough)

theorem requireSize_of_lt
    {expected : Nat}
    {image : Bytes}
    (tooShort : image.length < expected) :
    requireSize expected image = .error (.fileTooShort expected image.length) :=
  if_pos tooShort

theorem isObjectFile_iff {image : Bytes} :
    isObjectFile image = true ↔ image.take 4 = magic := by
  rw [isObjectFile, List.isPrefixOf_iff_prefix, List.prefix_iff_eq_take]
  exact eq_comm

theorem readClass_getD
    {image : Bytes}
    {fileClass : FileClass}
    (held : image[4]? = some fileClass.byte) :
    readClass (image.getD 4 0) = .ok fileClass := by
  rw [List.getD_eq_getElem?_getD, held]
  cases fileClass <;> rfl

theorem readOrder_getD
    {image : Bytes}
    {order : ByteOrder}
    (held : image[5]? = some (orderByte order)) :
    readOrder (image.getD 5 0) = .ok order := by
  rw [List.getD_eq_getElem?_getD, held]
  cases order <;> rfl

/-- An identified image that is long enough is read to the header that it states. -/
theorem read_of_identified
    {image : Bytes}
    {fileClass : FileClass}
    {order : ByteOrder}
    (fits : image.length < addressLimit)
    (identified : Identified image fileClass order)
    (whole : size fileClass ≤ image.length) :
    read image = .ok (stated fileClass order image) := by
  simp only [read, lookBind_eq_ok_iff]
  exact
    ⟨(), requireSize_of_le identified.long,
      (), if_pos (isObjectFile_iff.mpr identified.isMagic),
      fileClass, readClass_getD identified.classByte,
      order, readOrder_getD identified.orderByte,
      (), requireSize_of_le whole,
      readFields_of_le fits whole⟩

end Header

/-! ## Entries of the section header table -/

/-- The section header that an entry states. -/
def SectionHeader.stated
    (fileClass : FileClass)
    (order : ByteOrder)
    (entry : Bytes) :
    SectionHeader :=
  match fileClass with
  | .bits32 => {
      nameOffset := .ofNat (order.numberIn entry 4 0)
      kind := .ofNat (order.numberIn entry 4 4)
      flags := .ofNat (order.numberIn entry 4 8)
      address := .ofNat (order.numberIn entry 4 12)
      offset := .ofNat (order.numberIn entry 4 16)
      size := .ofNat (order.numberIn entry 4 20)
    }
  | .bits64 => {
      nameOffset := .ofNat (order.numberIn entry 4 0)
      kind := .ofNat (order.numberIn entry 4 4)
      flags := .ofNat (order.numberIn entry 8 8)
      address := .ofNat (order.numberIn entry 8 16)
      offset := .ofNat (order.numberIn entry 8 24)
      size := .ofNat (order.numberIn entry 8 32)
    }

/-- An entry that is long enough is read to the section header that it states. -/
theorem SectionHeader.read_of_le
    {fileClass : FileClass}
    {order : ByteOrder}
    {entry : Bytes}
    (short : entry.length < addressLimit)
    (whole : entrySize fileClass ≤ entry.length) :
    read fileClass order entry = .ok (stated fileClass order entry) := by
  have fits : (Cursor.ofBytes order entry).size < addressLimit :=
    short
  have inside : entrySize fileClass ≤ (Cursor.ofBytes order entry).size :=
    whole
  rw [read, Header.requireSize_of_le whole]
  cases fileClass with
  | bits32 =>
      rw [entrySize] at inside
      have widened := Header.toUInt64_ofNat order entry
      simp (disch := omega) only [Cursor.uint32At_of_le fits]
      simp only [stated, ← widened]
      rfl
  | bits64 =>
      rw [entrySize] at inside
      simp (disch := omega) only [Cursor.uint32At_of_le fits, Cursor.uint64At_of_le fits]
      rfl

/-- A section has contents if its kind has some, there is a size, and they are inside the image. -/
theorem SectionHeader.contents_eq
    {header : SectionHeader}
    {image : Bytes}
    (fits : image.length < addressLimit) :
    header.contents image =
      if header.kind ≠ noContents ∧ header.size ≠ 0 ∧
          header.offset.toNat + header.size.toNat ≤ image.length then
        (image.drop header.offset.toNat).take header.size.toNat
      else
        [] := by
  have sameCase :
      (header.hasContents = true ∧ header.stop < addressLimit ∧ header.stop ≤ image.length) ↔
        header.kind ≠ noContents ∧ header.size ≠ 0 ∧
          header.offset.toNat + header.size.toNat ≤ image.length := by
    rw [hasContents, decide_eq_true_iff, stop]
    constructor
    · rintro ⟨⟨hasKind, nonzero⟩, -, inside⟩
      exact ⟨hasKind, nonzero, inside⟩
    · rintro ⟨hasKind, nonzero, inside⟩
      exact ⟨⟨hasKind, nonzero⟩, Nat.lt_of_le_of_lt inside fits, inside⟩
  rw [contents]
  simp only [sameCase]

variable
  {image : Bytes}
  {header : Header}

/-- The bytes of entry `index`. -/
def entryBytes
    (image : Bytes)
    (header : Header)
    (index : Nat) :
    Bytes :=
  (image.drop (entryOffset header index)).take header.entrySize.toNat

/-- An entry inside the image is read to the section header that it states. -/
theorem readEntry_of_le
    (fits : image.length < addressLimit)
    (wide : SectionHeader.entrySize header.fileClass ≤ header.entrySize.toNat)
    {index : Nat}
    (inside : entryOffset header index + header.entrySize.toNat ≤ image.length) :
    readEntry image header index =
      .ok (.stated header.fileClass header.order (entryBytes image header index)) := by
  have noOverflow : ¬ addressLimit ≤ entryOffset header index := by omega
  have unbounded :
      entryStop header index = entryOffset header index + header.entrySize.toNat := by
    rw [entryStop]
    omega
  have length : (entryBytes image header index).length = header.entrySize.toNat := by
    rw [entryBytes, List.length_take, List.length_drop]
    omega
  rw [readEntry, if_neg noOverflow, unbounded, if_neg (Nat.not_lt.mpr inside),
    Nat.add_sub_cancel_left]
  show SectionHeader.read header.fileClass header.order (entryBytes image header index) = _
  exact SectionHeader.read_of_le (by omega) (by omega)

/-! ## Images -/

/-- An image is read if its header and its table are. -/
theorem read_eq_ok_iff {file : ObjectFile} :
    read image = .ok file ↔
      ∃ header table,
        Header.read image = .ok header ∧
          readTable image header = .ok table ∧
          file = {
            image := image
            header := header
            sections := table.map (sectionOf image (namesOf image header table))
          } := by
  constructor
  · intro success
    obtain ⟨header, headerRead, later⟩ := lookBind_eq_ok_iff.mp success
    obtain ⟨table, tableRead, last⟩ := lookBind_eq_ok_iff.mp later
    cases last
    exact ⟨header, table, headerRead, tableRead, rfl⟩
  · rintro ⟨header, table, headerRead, tableRead, rfl⟩
    rw [read, headerRead]
    show readTable image header >>= _ = _
    rw [tableRead]
    rfl

variable
  {file : ObjectFile}
  (success : read image = .ok file)

include success

/-- The sections are those of the table, in its order. -/
theorem table_of_read :
    readTable image file.header = .ok (file.sections.map (·.header)) := by
  obtain ⟨header, table, -, tableRead, rfl⟩ := read_eq_ok_iff.mp success
  rw [tableRead, List.map_map]
  exact congrArg Except.ok (List.map_id table).symm

/-- An image is kept, and each section has the contents that its header gives in it. -/
theorem contents_of_read :
    file.image = image ∧
      ∀ found ∈ file.sections, found.contents = found.header.contents image := by
  obtain ⟨header, table, -, -, rfl⟩ := read_eq_ok_iff.mp success
  refine ⟨rfl, fun found member => ?_⟩
  obtain ⟨listed, -, rfl⟩ := List.mem_map.mp member
  rfl

end ObjectFile

end LineAtlas
