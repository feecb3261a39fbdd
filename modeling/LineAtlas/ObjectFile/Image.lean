import LineAtlas.ObjectFile.SectionHeader
import LineAtlas.Text.Utf8

namespace LineAtlas

/-!
# Object files

An object file is its header and its sections in the order of the section
header table. Sections are named by a section of names, which the header
points to; a section whose name cannot be read there has an empty name.
-/

/-- A section with its name and contents. -/
structure ObjectFile.Section where
  header : ObjectFile.SectionHeader
  name : String
  contents : Bytes
  deriving Repr, DecidableEq

/-- A parsed image. -/
structure ObjectFile where
  image : Bytes
  header : ObjectFile.Header
  sections : List ObjectFile.Section
  deriving Repr, DecidableEq

namespace ObjectFile

/-- Where entry `index` of the section header table starts. -/
def entryOffset
    (header : Header)
    (index : Nat) :
    Nat :=
  index * header.entrySize.toNat + header.tableOffset.toNat

/-- Where entry `index` ends; ends past the last position count as that position. -/
def entryStop
    (header : Header)
    (index : Nat) :
    Nat :=
  min (entryOffset header index + header.entrySize.toNat) (addressLimit - 1)

/-- Reads entry `index` of the section header table. -/
def readEntry
    (image : Bytes)
    (header : Header)
    (index : Nat) :
    Except ReadError SectionHeader :=
  let start := entryOffset header index
  let stop := entryStop header index
  if addressLimit ≤ start then
    .error (.overflow "section header table")
  else if image.length < stop then
    .error (.fileTooShort stop image.length)
  else
    SectionHeader.read header.fileClass header.order
      ((image.drop start).take (stop - start))

/-- Reads the section header table. -/
def readTable
    (image : Bytes)
    (header : Header) :
    Except ReadError (List SectionHeader) :=
  if header.tableOffset = 0 ∨ header.entryCount = 0 then
    .ok []
  else if header.entrySize.toNat < SectionHeader.entrySize header.fileClass then
    .error
      (.invalidStructure "section header table" header.tableOffset.toNat
        ("entry size " ++ toString header.entrySize.toNat ++ " is too small"))
  else
    (List.range header.entryCount.toNat).mapM (readEntry image header)

/-- The bytes that names are taken from; without a section of names there are none. -/
def namesOf
    (image : Bytes)
    (header : Header)
    (table : List SectionHeader) :
    Bytes :=
  if header.namesIndex = 0 then
    []
  else
    match table[header.namesIndex.toNat]? with
    | some names => names.contents image
    | none => []

/-- The name at an offset, up to its NUL. -/
def nameAt?
    (names : Bytes)
    (offset : Nat) :
    Option String :=
  let rest := names.drop offset
  if rest.contains 0 then
    Utf8.decode? (rest.takeWhile (· ≠ 0))
  else
    none

/-- The section that an entry of the table describes. -/
def sectionOf
    (image names : Bytes)
    (header : SectionHeader) :
    Section where
  header := header
  name := (nameAt? names header.nameOffset.toNat).getD ""
  contents := header.contents image

/-- Reads an image. -/
def read (image : Bytes) : Except ReadError ObjectFile := do
  let header ← Header.read image
  let table ← readTable image header
  let names := namesOf image header table
  return {
    image := image
    header := header
    sections := table.map (sectionOf image names)
  }

/-- The first section of the given name. -/
def sectionNamed?
    (file : ObjectFile)
    (name : String) :
    Option Section :=
  file.sections.find? (·.name = name)

/-- The place of the first section of the given name. -/
def indexOfName?
    (file : ObjectFile)
    (name : String) :
    Option Nat :=
  file.sections.findIdx? (·.name = name)

/-- The contents of the first section of the given name. -/
def contentsNamed?
    (file : ObjectFile)
    (name : String) :
    Option Bytes :=
  (file.sectionNamed? name).map fun found => found.header.contents file.image

end ObjectFile

end LineAtlas
