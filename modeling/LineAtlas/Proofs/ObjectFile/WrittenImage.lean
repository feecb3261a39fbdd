import LineAtlas.Proofs.ObjectFile.Fields
import LineAtlas.Proofs.Writing.Text

namespace LineAtlas.ObjectFile

/-!
# Images as they are written

A `WrittenImage` is what a header and its sections say, in one of the classes and byte
orders, together with the bytes that nothing reads. It is laid out as the header, the
bytes of the sections one after the other, the section of names, and the section header
table, which starts with an entry of zeros and ends with the entry of the names. What
each entry has to state about the place of its section follows from this order.
-/

/-- The count of bytes of an address, an offset or a size. -/
def FileClass.wordSize : FileClass → Nat
  | bits32 => 4
  | bits64 => 8

/-- The numbers that an address, an offset or a size can be. -/
abbrev FileClass.Word (fileClass : FileClass) : Type :=
  Fin (256 ^ fileClass.wordSize)

/-- How the fields of an image are written. -/
structure Layout where
  fileClass : FileClass
  order : ByteOrder
  /-- The distance from one entry of the table to the next. -/
  entrySize : UInt16
  wide : SectionHeader.entrySize fileClass ≤ entrySize.toNat

namespace Layout

variable (layout : Layout)

/-- The field of an address, an offset or a size. -/
def word (number : Nat) : Bytes :=
  layout.order.field layout.fileClass.wordSize number

/-- The count of bytes of an entry after the fields that are read. -/
def unreadSize : Nat :=
  layout.entrySize.toNat - (8 + 4 * layout.fileClass.wordSize)

end Layout

/-- What an entry of the table says about a section, its place apart. -/
structure WrittenEntry (layout : Layout) where
  name : String
  noNul : '\x00' ∉ name.toList
  kind : UInt32
  flags : layout.fileClass.Word
  address : layout.fileClass.Word
  unread : Vector UInt8 layout.unreadSize

/-- A section as it is written. -/
structure WrittenSection (layout : Layout) extends WrittenEntry layout where
  /-- The bytes at the place of the section: its contents, unless it is of the kind without. -/
  bytes : Bytes
  /-- The size that is stated for a section without contents. -/
  reserved : layout.fileClass.Word

/-- What can be told of a section without knowing its place in the image. -/
structure SectionView where
  name : String
  kind : UInt32
  flags : UInt64
  address : UInt64
  contents : Bytes
  deriving Repr, DecidableEq

def Section.view (found : Section) : SectionView where
  name := found.name
  kind := found.header.kind
  flags := found.header.flags
  address := found.header.address
  contents := found.contents

variable {layout : Layout}

/-- The bytes of a name and of the NUL that ends it. -/
def WrittenEntry.nameBytes (entry : WrittenEntry layout) : Bytes :=
  Utf8.encode entry.name ++ [0]

namespace WrittenSection

variable (written : WrittenSection layout)

/-- The size that the entry of a section states. -/
def statedSize : Nat :=
  if written.kind = SectionHeader.noContents then
    written.reserved.val
  else
    written.bytes.length

def view : SectionView where
  name := written.name
  kind := written.kind
  flags := .ofNat written.flags.val
  address := .ofNat written.address.val
  contents := if written.kind = SectionHeader.noContents then [] else written.bytes

end WrittenSection

/-! ## Sections at their places -/

/-- A section and the offsets of its name and of its bytes. -/
structure PlacedSection (layout : Layout) extends WrittenSection layout where
  nameOffset : Nat
  offset : Nat

namespace PlacedSection

variable (placed : PlacedSection layout)

/-- The entry of the table. -/
def entryBytes : Bytes :=
  layout.order.field 4 placed.nameOffset
    ++ (layout.order.field 4 placed.kind.toNat
    ++ (layout.word placed.flags.val
    ++ (layout.word placed.address.val
    ++ (layout.word placed.offset
    ++ (layout.word placed.statedSize
    ++ placed.unread.toList)))))

/-- The section header that is read from this entry. -/
def header : SectionHeader where
  nameOffset := .ofNat placed.nameOffset
  kind := placed.kind
  flags := .ofNat placed.flags.val
  address := .ofNat placed.address.val
  offset := .ofNat placed.offset
  size := .ofNat placed.statedSize

end PlacedSection

/-- The sections of a list, with names and bytes one after the other from the given offsets on. -/
def placedFrom
    (nameOffset offset : Nat) :
    List (WrittenSection layout) → List (PlacedSection layout)
  | [] => []
  | written :: later =>
      { written with nameOffset := nameOffset, offset := offset }
        :: placedFrom (nameOffset + written.nameBytes.length)
          (offset + written.bytes.length) later

/-! ## Images -/

/-- An image as it is written. -/
structure WrittenImage where
  layout : Layout
  kind : UInt16
  processor : UInt16
  entry : layout.fileClass.Word
  flags : UInt32
  sections : List (WrittenSection layout)
  /-- The entry of the section of names. -/
  names : WrittenEntry layout
  names_hasContents : names.kind ≠ SectionHeader.noContents
  /-- The rest of the entry of zeros. -/
  nullRest : Vector UInt8 layout.unreadSize
  /-- The rest of the bytes that identify the image. -/
  identification : Vector UInt8 10
  formatVersion : Vector UInt8 4
  segmentTable : Vector UInt8 layout.fileClass.wordSize
  /-- The size of the header, and the size and the count of segments. -/
  segmentSizes : Vector UInt8 6

namespace WrittenImage

variable (image : WrittenImage)

/-- The section that the entry of zeros describes. -/
def nullSection : PlacedSection image.layout where
  name := ""
  noNul := by simp
  kind := 0
  flags := 0
  address := 0
  unread := image.nullRest
  bytes := []
  reserved := 0
  nameOffset := 0
  offset := 0

/-- The names: a NUL and the names of all sections, each with the NUL that ends it. -/
def nameBytes : Bytes :=
  [0] ++ (image.sections.flatMap (·.nameBytes) ++ image.names.nameBytes)

/-- The section of names. -/
def namesSection : WrittenSection image.layout where
  toWrittenEntry := image.names
  bytes := image.nameBytes
  reserved := 0

/-- The sections that have a place in the image. -/
def listed : List (WrittenSection image.layout) :=
  image.sections ++ [image.namesSection]

/-- The sections in the order of the table, each at its place. -/
def placed : List (PlacedSection image.layout) :=
  image.nullSection :: placedFrom 1 (Header.size image.layout.fileClass) image.listed

/-- The offset of the section header table. -/
def tableOffset : Nat :=
  Header.size image.layout.fileClass + (image.listed.flatMap (·.bytes)).length

def headerBytes : Bytes :=
  magic
    ++ ([image.layout.fileClass.byte]
    ++ ([orderByte image.layout.order]
    ++ (image.identification.toList
    ++ (image.layout.order.field 2 image.kind.toNat
    ++ (image.layout.order.field 2 image.processor.toNat
    ++ (image.formatVersion.toList
    ++ (image.layout.word image.entry.val
    ++ (image.segmentTable.toList
    ++ (image.layout.word image.tableOffset
    ++ (image.layout.order.field 4 image.flags.toNat
    ++ (image.segmentSizes.toList
    ++ (image.layout.order.field 2 image.layout.entrySize.toNat
    ++ (image.layout.order.field 2 (image.sections.length + 2)
    ++ image.layout.order.field 2 (image.sections.length + 1))))))))))))))

/-- The bytes of an image. -/
def bytes : Bytes :=
  image.headerBytes
    ++ (image.listed.flatMap (·.bytes)
    ++ image.placed.flatMap (·.entryBytes))

/-- The header that is read from these bytes. -/
def header : Header where
  fileClass := image.layout.fileClass
  order := image.layout.order
  kind := .ofNumber image.kind
  processor := .ofNumber image.processor
  entry := .ofNat image.entry.val
  tableOffset := .ofNat image.tableOffset
  flags := image.flags
  entrySize := image.layout.entrySize
  entryCount := .ofNat (image.sections.length + 2)
  namesIndex := .ofNat (image.sections.length + 1)

/-- What is read of the sections, in the order of the table. -/
def views : List SectionView :=
  image.nullSection.view :: image.listed.map (·.view)

/-- Counts and offsets have room in their fields, and every byte has a position. -/
structure Fits : Prop where
  count : image.sections.length < 65534
  tableOffset : image.tableOffset < 256 ^ image.layout.fileClass.wordSize
  nameOffsets : ∀ placed ∈ image.placed, placed.nameOffset < 2 ^ 32
  length : image.bytes.length < addressLimit

end WrittenImage

end LineAtlas.ObjectFile
