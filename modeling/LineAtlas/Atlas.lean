import LineAtlas.AddressRange
import LineAtlas.LineSection.Decode
import LineAtlas.LineStore
import LineAtlas.ObjectFile.Image

namespace LineAtlas

/-!
# Atlases

An atlas answers questions about the line information of one source of
sections. It is empty until it is loaded, and loading it again changes nothing.
Loading goes through the sections in order and decodes those with the names of
line sections and range sections; what they give is kept in that order.
-/

/-- A run of bytes with a name and a place in memory. -/
structure NamedSection where
  name : String
  address : UInt64
  size : UInt64
  contents : Bytes
  deriving Repr, DecidableEq

/-- Sections in order, some of which may be missing. -/
structure SectionSource where
  order : ByteOrder
  sections : List (Option NamedSection)
  deriving Repr, DecidableEq

namespace SectionSource

/-- The sections of an object file. -/
def ofObjectFile (file : ObjectFile) : SectionSource where
  order := file.header.order
  sections := file.sections.map fun found =>
    some {
      name := found.name
      address := found.header.address
      size := found.header.size
      contents := found.contents
    }

/-- The sections that are there. -/
def present (source : SectionSource) : List NamedSection :=
  source.sections.filterMap id

/-- The first section of the given name. -/
def sectionNamed?
    (source : SectionSource)
    (name : String) :
    Option NamedSection :=
  source.present.find? (·.name = name)

end SectionSource

/-- What is known about line information. -/
structure Knowledge where
  store : LineStore
  rangeSets : List RangeSet
  warnings : List Warning
  deriving DecidableEq

namespace Knowledge

/-- Knowing nothing. -/
def empty : Knowledge where
  store := .empty
  rangeSets := []
  warnings := []

/-- Adds what one section says. -/
def addSection
    (order : ByteOrder)
    (constAddPc : ConstAddPc)
    (known : Knowledge)
    (found : NamedSection) :
    Knowledge :=
  if found.name = rangeSectionName then
    let decoded := RangeSection.decode order found.contents
    { known with
      rangeSets := known.rangeSets ++ decoded.sets
      warnings := known.warnings ++ decoded.warnings }
  else if found.name = lineSectionName then
    let decoded := LineSection.decode order constAddPc found.contents
    { known with
      store := known.store.extend decoded.tables
      warnings := known.warnings ++ decoded.warnings }
  else
    known

/-- What all sections of a source say. -/
def ofSource
    (constAddPc : ConstAddPc)
    (source : SectionSource) :
    Knowledge :=
  source.present.foldl (addSection source.order constAddPc) empty

end Knowledge

/-- The line information of one source. -/
structure Atlas where
  source : SectionSource
  options : Options
  known : Knowledge
  isLoaded : Bool
  deriving DecidableEq

namespace Atlas

/-- An atlas that has not been loaded. -/
def ofSource
    (options : Options)
    (source : SectionSource) :
    Atlas where
  source := source
  options := options
  known := .empty
  isLoaded := false

/-- Loads the atlas, unless that has been done. -/
def load (atlas : Atlas) : Atlas :=
  if atlas.isLoaded then
    atlas
  else
    { atlas with
      known := .ofSource atlas.options.constAddPc atlas.source
      isLoaded := true }

/-- The source location of an address. -/
def locate?
    (atlas : Atlas)
    (address : UInt64) :
    Option Location :=
  atlas.known.store.locate? atlas.options.attribution address

end Atlas

end LineAtlas
