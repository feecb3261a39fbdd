import LineAtlas.ObjectFile.Header

namespace LineAtlas.ObjectFile

/-!
# Section headers

An entry of the section header table describes one section: where its name
stands among the names, what it is for, and which bytes of the image it holds.
-/

/-- One entry of the section header table. -/
structure SectionHeader where
  /-- The offset of the name in the section of names. -/
  nameOffset : UInt32
  kind : UInt32
  flags : UInt64
  /-- The address of the section in memory. -/
  address : UInt64
  /-- The offset of the contents in the image. -/
  offset : UInt64
  size : UInt64
  deriving Repr, DecidableEq

namespace SectionHeader

/-- The count of bytes of an entry that are read. -/
def entrySize : FileClass → Nat
  | .bits32 => 40
  | .bits64 => 64

/-- The kind of a section whose contents are not in the image. -/
def noContents : UInt32 :=
  8

/-- Reads one entry. -/
def read
    (fileClass : FileClass)
    (order : ByteOrder)
    (entry : Bytes) :
    Except ReadError SectionHeader := do
  Header.requireSize (entrySize fileClass) entry
  let cursor := Cursor.ofBytes order entry
  match fileClass with
  | .bits32 =>
      return {
        nameOffset := ← cursor.uint32At 0
        kind := ← cursor.uint32At 4
        flags := (← cursor.uint32At 8).toUInt64
        address := (← cursor.uint32At 12).toUInt64
        offset := (← cursor.uint32At 16).toUInt64
        size := (← cursor.uint32At 20).toUInt64
      }
  | .bits64 =>
      return {
        nameOffset := ← cursor.uint32At 0
        kind := ← cursor.uint32At 4
        flags := ← cursor.uint64At 8
        address := ← cursor.uint64At 16
        offset := ← cursor.uint64At 24
        size := ← cursor.uint64At 32
      }

/-- The name of a section's kind. -/
def kindName (header : SectionHeader) : String :=
  match header.kind with
  | 0 => "NULL"
  | 1 => "PROGBITS"
  | 2 => "SYMTAB"
  | 3 => "STRTAB"
  | 4 => "RELA"
  | 7 => "NOTE"
  | 8 => "NOBITS"
  | 9 => "REL"
  | _ => "UNKNOWN"

/-- Whether the section can be written to. -/
def isWritable (header : SectionHeader) : Bool :=
  header.flags &&& 1 ≠ 0

/-- Whether the section is loaded into memory. -/
def isAllocated (header : SectionHeader) : Bool :=
  header.flags &&& 2 ≠ 0

/-- Whether the section holds code. -/
def isExecutable (header : SectionHeader) : Bool :=
  header.flags &&& 4 ≠ 0

/-- Whether the section has contents in the image. -/
def hasContents (header : SectionHeader) : Bool :=
  header.kind ≠ noContents ∧ header.size ≠ 0

/-- The offset after the contents. -/
def stop (header : SectionHeader) : Nat :=
  header.offset.toNat + header.size.toNat

/-- The contents of a section: none if they are not inside the image. -/
def contents
    (header : SectionHeader)
    (image : Bytes) :
    Bytes :=
  if header.hasContents ∧ header.stop < addressLimit ∧ header.stop ≤ image.length then
    (image.drop header.offset.toNat).take header.size.toNat
  else
    []

end SectionHeader

end LineAtlas.ObjectFile
