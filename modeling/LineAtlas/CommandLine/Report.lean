import LineAtlas.Atlas
import LineAtlas.CommandLine.Arguments
import LineAtlas.Text.Columns

namespace LineAtlas

/-!
# Reports

A report shows one view of an image and its line information as lines of
text, most of them in columns.
-/

namespace Report

/-- Counts of what an image holds, and the warnings. -/
def summary
    (file : ObjectFile)
    (known : Knowledge) :
    List String :=
  let architecture := file.header.architecture.name
  let width := toString file.header.fileClass.bits
  [ "Architecture:  " ++ architecture ++ " (" ++ width ++ "-bit ELF)",
    "Sections:      " ++ toString file.sections.length,
    "Line tables:   " ++ toString known.store.size,
    "Line entries:  " ++ toString known.store.rowCount,
    "Source files:  " ++ toString known.store.primaryPaths.length,
    "Arange sets:   " ++ toString known.rangeSets.length,
    "Warnings:      " ++ toString known.warnings.length ]
    ++ known.warnings.map fun warning => "  " ++ warning.text

/-- A letter for a property that is there, and a hyphen for one that is not. -/
def flag
    (isSet : Bool)
    (letter : String) :
    String :=
  if isSet then letter else "-"

/-- The properties of a section as three letters. -/
def flags (header : ObjectFile.SectionHeader) : String :=
  flag header.isAllocated "A" ++ flag header.isWritable "W" ++ flag header.isExecutable "X"

/-- One section. -/
def sectionLine
    (index : Nat)
    (found : ObjectFile.Section) :
    String :=
  Columns.padded 4 (toString index) ++ " "
    ++ Columns.padded 24 found.name ++ " "
    ++ Columns.padded 10 found.header.kindName ++ " "
    ++ Hexadecimal.markedWide 10 found.header.address.toNat ++ "   "
    ++ Hexadecimal.markedWide 8 found.header.size.toNat ++ "   "
    ++ Columns.padded 6 (flags found.header)

/-- The sections of an image in order. -/
def sections (file : ObjectFile) : List String :=
  let title :=
    Columns.padded 4 "Idx" ++ " "
      ++ Columns.padded 24 "Name" ++ " "
      ++ Columns.padded 10 "Type" ++ " "
      ++ Columns.padded 12 "Address" ++ " "
      ++ Columns.padded 10 "Size" ++ " "
      ++ Columns.padded 6 "Flags"
  title :: Columns.rule 70
    :: file.sections.zipIdx.map fun (found, index) => sectionLine index found

/-- One line table; its size wraps at 64 bits. -/
def tableLine (table : LineTable) : String :=
  Columns.padded 40 table.primaryPath ++ " "
    ++ Hexadecimal.markedWide 10 table.startAddress.toNat ++ " "
    ++ Hexadecimal.markedWide 10 table.endAddress.toNat ++ " "
    ++ Columns.padded 8 (toString (table.endAddress - table.startAddress).toNat) ++ " "
    ++ Columns.padded 8 (toString table.rows.length)

/-- One row of a line table. -/
def rowLine
    (attribution : Attribution)
    (table : LineTable)
    (row : LineProgram.Row) :
    String :=
  "    " ++ Hexadecimal.markedWide 10 row.address.toNat
    ++ "  line " ++ Columns.padded 6 (toString row.line.toInt)
    ++ " col " ++ Columns.padded 4 (toString row.column.toNat)
    ++ " " ++ table.pathFor row attribution

/-- The line tables in order, with their rows if they are asked for. -/
def tables
    (attribution : Attribution)
    (withRows : Bool)
    (store : LineStore) :
    List String :=
  if store.tables.isEmpty then
    ["No line information"]
  else
    let title :=
      Columns.padded 40 "File" ++ " "
        ++ Columns.padded 10 "Start" ++ " "
        ++ Columns.padded 10 "End" ++ " "
        ++ Columns.padded 8 "Size" ++ " "
        ++ Columns.padded 8 "Entries"
    title :: Columns.rule 80
      :: store.tables.flatMap fun table =>
        tableLine table ::
          (if withRows then table.rows.map (rowLine attribution table) else [])

/-- What an address resolves to. -/
def lookup
    (atlas : Atlas)
    (address : UInt64) :
    List String :=
  match atlas.locate? address with
  | some location => [AddressText.render address ++ ": " ++ location.text]
  | none => [AddressText.render address ++ ": no line information"]

/-- The title of a set of ranges. -/
def setLine (set : RangeSet) : String :=
  "Set at " ++ Hexadecimal.marked set.offset
    ++ ": length " ++ toString set.header.length.toNat
    ++ ", version " ++ toString set.header.version.toNat
    ++ ", debug_info offset " ++ Hexadecimal.marked set.header.infoOffset.toNat
    ++ ", address size " ++ toString set.header.addressSize.toNat
    ++ ", segment size " ++ toString set.header.segmentSize.toNat

/-- One range. -/
def rangeLine (range : AddressRange) : String :=
  "  " ++ Hexadecimal.markedWide 6 range.address.toNat
    ++ " - " ++ Hexadecimal.markedWide 6 range.stop.toNat
    ++ "  (" ++ toString range.length.toNat ++ " bytes)"

/-- One set with its ranges, or with a note if they are not read. -/
def setLines (set : RangeSet) : List String :=
  setLine set ::
    (if RangeSet.hasNarrowAddresses set.header then
      set.ranges.map rangeLine
    else
      ["  (ranges not decoded for address size "
        ++ toString set.header.addressSize.toNat ++ ")"])

/-- The sets of address ranges in order. -/
def ranges (sets : List RangeSet) : List String :=
  if sets.isEmpty then
    ["No address range sets"]
  else
    sets.flatMap setLines

/-- The view that a command asks for. -/
def ofCommand
    (file : ObjectFile)
    (atlas : Atlas) :
    Command → List String
  | .summary => summary file atlas.known
  | .sections => sections file
  | .lines withRows => tables atlas.options.attribution withRows atlas.known.store
  | .lookup address => lookup atlas address
  | .addresses => atlas.known.store.rowAddresses.map AddressText.render
  | .files => atlas.known.store.primaryPaths
  | .ranges => ranges atlas.known.rangeSets

end Report

end LineAtlas
