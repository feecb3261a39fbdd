import LineAtlas.Proofs.Lookup.Resolution

namespace LineAtlas.LineStore

/-!
# Stores that grow, and stores in another order

The first table that covers an address answers for it. Tables that are added later come
after it, so they answer only for addresses that had no answer; everything that a store
lists goes on with what they have. The order of the tables matters where two of them cover
an address, and nowhere else: with a single covering table, the first one is that table
wherever it stands.
-/

variable
  {store other : LineStore}
  {address : UInt64}
  {table : LineTable}

/-- Either some table is the first one to cover the address, and has a row for it, or none is. -/
theorem firstCovering_or_outside
    (store : LineStore)
    (address : UInt64) :
    (∃ table row, store.FirstCovering address table ∧ table.IsFloor address row) ∨
      ∀ table ∈ store.tables, ¬ table.Covers address := by
  by_cases covered : ∃ table ∈ store.tables, table.Covers address
  · obtain ⟨table, first⟩ := exists_firstCovering covered
    obtain ⟨row, isFloor⟩ := LineTable.exists_isFloor_of_covers first.1
    exact .inl ⟨table, row, first, isFloor⟩
  · refine .inr fun table member covers => ?_
    exact covered ⟨table, member, covers⟩

/-! ## Adding tables -/

/-- Behind tables that do not cover the address, the first covering table is the first one. -/
theorem FirstCovering.behind
    {tables : List LineTable}
    (outside : ∀ table ∈ store.tables, ¬ table.Covers address)
    (first : FirstCovering { tables := tables } address table) :
    (store.extend tables).FirstCovering address table := by
  obtain ⟨covers, earlier, later, split, noneEarlier⟩ := first
  refine ⟨covers, store.tables ++ earlier, later, ?_, ?_⟩
  · simp only at split
    rw [LineStore.extend, split, List.append_assoc]
  · intro passed member
    rcases List.mem_append.mp member with before | added
    · exact outside passed before
    · exact noneEarlier passed added

/-- An address that has no answer is answered as the added tables alone would answer. -/
theorem locate?_extend_of_none
    {attribution : Attribution}
    (tables : List LineTable)
    (missed : store.locate? attribution address = none) :
    (store.extend tables).locate? attribution address =
      LineStore.locate? { tables := tables } attribution address := by
  have outside := (locate?_eq_none_iff attribution).mp missed
  rcases firstCovering_or_outside { tables := tables } address with
    ⟨table, row, first, isFloor⟩ | noneAdded
  · rw [locate?_of_firstCovering attribution first isFloor,
      locate?_of_firstCovering attribution (first.behind outside) isFloor]
  · rw [(locate?_eq_none_iff attribution).mpr noneAdded, locate?_eq_none_iff attribution]
    intro table member
    exact (List.mem_append.mp member).elim (outside table) (noneAdded table)

/-- A row that answers goes on to answer, in the same table at the same place. -/
theorem find?_extend_of_some
    {hit : Hit}
    (tables : List LineTable)
    (found : store.find? address = some hit) :
    (store.extend tables).find? address = some hit := by
  rw [find?] at found ⊢
  rw [LineStore.extend, List.zipIdx_append, List.findSome?_append, found, Option.some_or]

/-- A location that was found is found when tables have been added. -/
theorem locate?_extend_of_some
    {attribution : Attribution}
    {location : Location}
    (tables : List LineTable)
    (located : store.locate? attribution address = some location) :
    (store.extend tables).locate? attribution address = some location := by
  obtain ⟨hit, found, same⟩ := Option.map_eq_some_iff.mp located
  rw [locate?, find?_extend_of_some tables found, Option.map_some, same]

/-- What a store says when tables have been added, compared to what it said before. -/
structure GrowsBy
    (store : LineStore)
    (tables : List LineTable) :
    Prop where
  keepsHits :
    ∀ address hit,
      store.find? address = some hit → (store.extend tables).find? address = some hit
  keepsLocations :
    ∀ attribution address location,
      store.locate? attribution address = some location →
        (store.extend tables).locate? attribution address = some location
  asksLater :
    ∀ attribution address,
      store.locate? attribution address = none →
        (store.extend tables).locate? attribution address =
          LineStore.locate? { tables := tables } attribution address
  rowAddresses :
    (store.extend tables).rowAddresses =
      store.rowAddresses ++ LineStore.rowAddresses { tables := tables }
  primaryPaths :
    (store.extend tables).primaryPaths =
      store.primaryPaths ++ LineStore.primaryPaths { tables := tables }
  rowCount :
    (store.extend tables).rowCount = store.rowCount + LineStore.rowCount { tables := tables }

theorem growsBy
    (store : LineStore)
    (tables : List LineTable) :
    store.GrowsBy tables where
  keepsHits _ _ := find?_extend_of_some tables
  keepsLocations _ _ _ := locate?_extend_of_some tables
  asksLater _ _ := locate?_extend_of_none tables
  rowAddresses := List.flatMap_append
  primaryPaths := List.map_append
  rowCount := by
    simp only [rowCount, LineStore.extend, List.flatMap_append, List.length_append]

/-! ## The order of tables -/

/-- No two different tables of the store cover the address. -/
def Uncontested
    (store : LineStore)
    (address : UInt64) :
    Prop :=
  ∀ table ∈ store.tables,
    ∀ rival ∈ store.tables,
      table.Covers address → rival.Covers address → table = rival

theorem FirstCovering.mem (first : store.FirstCovering address table) : table ∈ store.tables := by
  obtain ⟨-, earlier, later, split, -⟩ := first
  rw [split]
  exact List.mem_append_right _ List.mem_cons_self

/-- A store with the same tables in another order answers alike where no tables compete. -/
theorem locate?_eq_of_perm
    (attribution : Attribution)
    (reordered : store.tables.Perm other.tables)
    (uncontested : store.Uncontested address) :
    store.locate? attribution address = other.locate? attribution address := by
  rcases store.firstCovering_or_outside address with
    ⟨table, row, first, isFloor⟩ | outside
  · have otherCovered : ∃ table ∈ other.tables, table.Covers address :=
      ⟨table, reordered.mem_iff.mp first.mem, first.1⟩
    obtain ⟨rival, otherFirst⟩ := exists_firstCovering otherCovered
    have isMember := reordered.mem_iff.mpr otherFirst.mem
    obtain rfl : table = rival :=
      uncontested table first.mem rival isMember first.1 otherFirst.1
    rw [locate?_of_firstCovering attribution first isFloor,
      locate?_of_firstCovering attribution otherFirst isFloor]
  · have otherOutside : ∀ table ∈ other.tables, ¬ table.Covers address := by
      intro table member
      exact outside table (reordered.mem_iff.mpr member)
    rw [(locate?_eq_none_iff attribution).mpr outside,
      (locate?_eq_none_iff attribution).mpr otherOutside]

/-- A table of one file, with rows at two addresses. -/
def spanTable
    (path : String)
    (first last : UInt64) :
    LineTable where
  directories := ["."]
  files := [{ name := path, directoryIndex := 0, modificationTime := 0, size := 0, path := path }]
  rows := [
    { address := first, line := 1, file := 1, column := 0 },
    { address := last, line := 2, file := 1, column := 0 }
  ]
  rows_ne_nil := List.cons_ne_nil _ _

/-- A table, and another one inside the addresses of the first. -/
def nestedStore : LineStore where
  tables := [spanTable "./a" 0x100 0x200, spanTable "./b" 0x180 0x190]

/-- The same tables, with the inner one first. -/
def innerFirstStore : LineStore where
  tables := [spanTable "./b" 0x180 0x190, spanTable "./a" 0x100 0x200]

end LineAtlas.LineStore
