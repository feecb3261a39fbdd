import LineAtlas.LineTable
import LineAtlas.Location

namespace LineAtlas

/-!
# Stores of line tables

A store keeps tables in the order in which they were added. An address is
answered by the first table that brackets it and has a row for it.
-/

/-- Line tables in the order in which they were added. -/
structure LineStore where
  tables : List LineTable
  deriving DecidableEq

/-- The row that answers for an address, with its table and the table's place. -/
structure Hit where
  index : Nat
  table : LineTable
  row : LineProgram.Row
  deriving DecidableEq

namespace LineStore

/-- The store without tables. -/
def empty : LineStore where
  tables := []

/-- Adds tables after those that are there. -/
def extend
    (store : LineStore)
    (tables : List LineTable) :
    LineStore where
  tables := store.tables ++ tables

/-- The count of tables. -/
def size (store : LineStore) : Nat :=
  store.tables.length

/-- The count of rows of all tables. -/
def rowCount (store : LineStore) : Nat :=
  (store.tables.flatMap (·.rows)).length

/-- The row that the table at `index` has for an address it brackets. -/
def hitIn?
    (address : UInt64)
    (index : Nat)
    (table : LineTable) :
    Option Hit :=
  if table.brackets address then
    (table.floorRow? address).map fun row =>
      { index := index, table := table, row := row }
  else
    none

/-- The first table's row for an address. -/
def find?
    (store : LineStore)
    (address : UInt64) :
    Option Hit :=
  store.tables.zipIdx.findSome? fun (table, index) => hitIn? address index table

/-- The source location of an address. -/
def locate?
    (store : LineStore)
    (attribution : Attribution)
    (address : UInt64) :
    Option Location :=
  (store.find? address).map fun hit =>
    .ofPath hit.row.line (hit.table.pathFor hit.row attribution)

/-- The address of every row, table by table. -/
def rowAddresses (store : LineStore) : List UInt64 :=
  store.tables.flatMap fun table => table.rows.map (·.address)

/-- The first file of every table. -/
def primaryPaths (store : LineStore) : List String :=
  store.tables.map (·.primaryPath)

end LineStore

end LineAtlas
