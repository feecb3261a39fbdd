import LineAtlas.Cursor
import LineAtlas.ObjectFile.Target

namespace LineAtlas.ObjectFile

/-!
# Headers of object files

The first sixteen bytes of an ELF image name the format, the width of its
fields and their byte order. The fields after them differ between the two
widths only in the size of addresses and offsets, which moves what follows.
-/

/-- The bytes that every image starts with. -/
def magic : Bytes :=
  [0x7F, 0x45, 0x4C, 0x46]

/-- Whether an image starts like an object file. -/
def isObjectFile (image : Bytes) : Bool :=
  magic.isPrefixOf image

/-- The fields that are needed to find the sections. -/
structure Header where
  fileClass : FileClass
  order : ByteOrder
  kind : FileKind
  processor : Processor
  entry : UInt64
  /-- The offset of the section header table. -/
  tableOffset : UInt64
  flags : UInt32
  /-- The distance from one entry of the table to the next. -/
  entrySize : UInt16
  entryCount : UInt16
  /-- The place of the section that holds the names of sections. -/
  namesIndex : UInt16
  deriving Repr, DecidableEq

namespace Header

/-- The count of bytes that identify an image. -/
def identificationSize : Nat :=
  16

/-- The count of bytes of a header. -/
def size : FileClass → Nat
  | .bits32 => 52
  | .bits64 => 64

/-- The width that byte 4 of an image gives. -/
def readClass (byte : UInt8) : Except ReadError FileClass :=
  match byte with
  | 1 => .ok .bits32
  | 2 => .ok .bits64
  | other =>
      .error
        (.invalidStructure "ELF header" 4
          ("invalid ELF class: " ++ toString other.toNat))

/-- The byte order that byte 5 of an image gives. -/
def readOrder (byte : UInt8) : Except ReadError ByteOrder :=
  match byte with
  | 1 => .ok .little
  | 2 => .ok .big
  | other =>
      .error
        (.invalidStructure "ELF header" 5
          ("invalid endianness: " ++ toString other.toNat))

/-- Fails unless an image has at least `expected` bytes. -/
def requireSize
    (expected : Nat)
    (image : Bytes) :
    Except ReadError Unit :=
  if image.length < expected then
    .error (.fileTooShort expected image.length)
  else
    .ok ()

/-- Fails unless an image starts with the magic bytes. -/
def requireMagic (image : Bytes) : Except ReadError Unit :=
  if isObjectFile image then
    .ok ()
  else
    .error (.wrongMagic "ELF" (image.take magic.length))

/-- Reads the fields after the identification. -/
def readFields
    (fileClass : FileClass)
    (image : Cursor) :
    Except ReadError Header := do
  let kind ← image.uint16At 16
  let processor ← image.uint16At 18
  match fileClass with
  | .bits32 =>
      return {
        fileClass := fileClass
        order := image.order
        kind := .ofNumber kind
        processor := .ofNumber processor
        entry := (← image.uint32At 24).toUInt64
        tableOffset := (← image.uint32At 32).toUInt64
        flags := ← image.uint32At 36
        entrySize := ← image.uint16At 46
        entryCount := ← image.uint16At 48
        namesIndex := ← image.uint16At 50
      }
  | .bits64 =>
      return {
        fileClass := fileClass
        order := image.order
        kind := .ofNumber kind
        processor := .ofNumber processor
        entry := ← image.uint64At 24
        tableOffset := ← image.uint64At 40
        flags := ← image.uint32At 48
        entrySize := ← image.uint16At 58
        entryCount := ← image.uint16At 60
        namesIndex := ← image.uint16At 62
      }

/-- Reads the header of an image. -/
def read (image : Bytes) : Except ReadError Header := do
  requireSize identificationSize image
  requireMagic image
  let fileClass ← readClass (image.getD 4 0)
  let order ← readOrder (image.getD 5 0)
  requireSize (size fileClass) image
  readFields fileClass (.ofBytes order image)

/-- The architecture that an image is made for. -/
def architecture (header : Header) : Architecture :=
  .ofProcessor header.processor header.fileClass

end Header

end LineAtlas.ObjectFile
