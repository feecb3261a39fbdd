import LineAtlas.LineStore
import LineAtlas.Proofs.Lookup.SplitPath

namespace LineAtlas

/-!
# How addresses are resolved

A store is asked about an address that may be covered by several tables or by none,
and the rows of a table need not be in the order of their addresses. The first table
that covers the address answers for it, with the last of its rows that does not lie
past the address. A covering table always has such a row, so no later table is ever
asked. `LineStore.locate?_resolves` says so for every store, since tables without
rows cannot be added to one.
-/

namespace LineTable

variable
  {table : LineTable}
  {address : UInt64}
  {row : LineProgram.Row}

/-- The address lies between those of the first and the last row. -/
def Covers
    (table : LineTable)
    (address : UInt64) :
    Prop :=
  (table.rows.head table.rows_ne_nil).address ≤ address ∧
    address ≤ (table.rows.getLast table.rows_ne_nil).address

theorem brackets_iff_covers :
    table.brackets address = true ↔ table.Covers address := by
  exact decide_eq_true_iff

/-- The row does not lie past the address, and every row after it does. -/
def IsFloor
    (table : LineTable)
    (address : UInt64)
    (row : LineProgram.Row) :
    Prop :=
  row.address ≤ address ∧
    ∃ earlier later,
      table.rows = earlier ++ row :: later ∧
        ∀ other ∈ later, address < other.address

/-- The scan from the last row backwards finds the floor row. -/
theorem floorRow?_eq_some_iff :
    table.floorRow? address = some row ↔ table.IsFloor address row := by
  rw [floorRow?, List.find?_eq_some_iff_append]
  constructor
  · rintro ⟨notPast, passed, left, reversed, allPast⟩
    refine ⟨by simpa using notPast, left.reverse, passed.reverse, ?_, ?_⟩
    · rw [← List.reverse_reverse table.rows, reversed]
      simp
    · intro other member
      have past := allPast other (List.mem_reverse.mp member)
      simpa using past
  · rintro ⟨notPast, earlier, later, split, allPast⟩
    refine ⟨by simpa using notPast, later.reverse, earlier.reverse, ?_, ?_⟩
    · rw [split]
      simp
    · intro other member
      have past := allPast other (List.mem_reverse.mp member)
      simpa using past

/-- A table that covers an address has a row at its start that is not past the address. -/
theorem exists_isFloor_of_covers
    (covers : table.Covers address) :
    ∃ row, table.IsFloor address row := by
  cases found : table.floorRow? address with
  | some row =>
      exact ⟨row, floorRow?_eq_some_iff.mp found⟩
  | none =>
      rw [floorRow?, List.find?_eq_none] at found
      have firstPast :=
        found _ (List.mem_reverse.mpr (List.head_mem table.rows_ne_nil))
      have firstNotPast := covers.1
      simp [firstNotPast] at firstPast

/--
The path of the file that a row names, if rows are asked for their files and the
file is in the list; otherwise the path of the first file, or no text without files.
-/
def attributedPath
    (table : LineTable)
    (attribution : Attribution)
    (row : LineProgram.Row) :
    String :=
  if named :
      attribution = .perRow ∧ 1 ≤ row.file.toNat ∧ row.file.toNat ≤ table.files.length then
    have := named.2
    (table.files[row.file.toNat - 1]).path
  else
    (table.files.map (·.path)).headD ""

theorem primaryPath_eq (table : LineTable) :
    table.primaryPath = (table.files.map (·.path)).headD "" := by
  unfold primaryPath
  cases table.files <;> rfl

/-- A file that rows count from one is in the list exactly if the count reaches it. -/
theorem fileOf?_eq_some
    (counted : 1 ≤ row.file.toNat)
    (listed : row.file.toNat - 1 < table.files.length) :
    table.fileOf? row = some table.files[row.file.toNat - 1] := by
  have notZero : row.file ≠ 0 := by
    intro zero
    simp [zero] at counted
  rw [fileOf?, if_neg notZero, List.getElem?_eq_getElem listed]

theorem fileOf?_eq_none
    (notNamed : ¬ (1 ≤ row.file.toNat ∧ row.file.toNat ≤ table.files.length)) :
    table.fileOf? row = none := by
  unfold fileOf?
  split
  · rfl
  · next notZero =>
      have counted : row.file.toNat ≠ 0 := by
        intro zero
        exact notZero (UInt64.toNat_inj.mp zero)
      rw [List.getElem?_eq_none_iff]
      omega

theorem pathFor_eq
    (table : LineTable)
    (attribution : Attribution)
    (row : LineProgram.Row) :
    table.pathFor row attribution = table.attributedPath attribution row := by
  cases attribution with
  | firstFile =>
      simp [pathFor, attributedPath, primaryPath_eq]
  | perRow =>
      by_cases named : 1 ≤ row.file.toNat ∧ row.file.toNat ≤ table.files.length
      · have listed : row.file.toNat - 1 < table.files.length := by omega
        simp [pathFor, attributedPath, fileOf?_eq_some named.1 listed, named]
      · simp only [pathFor, attributedPath, fileOf?_eq_none named, primaryPath_eq]
        rw [dif_neg (by simpa using named)]

end LineTable

namespace LineStore

variable
  {store : LineStore}
  {address : UInt64}
  {table : LineTable}
  {row : LineProgram.Row}

/-- The table covers the address, and no table before it does. -/
def FirstCovering
    (store : LineStore)
    (address : UInt64)
    (table : LineTable) :
    Prop :=
  table.Covers address ∧
    ∃ earlier later,
      store.tables = earlier ++ table :: later ∧
        ∀ other ∈ earlier, ¬ other.Covers address

/-- Where a table covers an address, there is a first one that does. -/
theorem exists_firstCovering
    (covered : ∃ table ∈ store.tables, table.Covers address) :
    ∃ table, store.FirstCovering address table := by
  have found : (store.tables.find? fun table => table.brackets address).isSome = true := by
    obtain ⟨table, member, covers⟩ := covered
    exact List.find?_isSome.mpr ⟨table, member, LineTable.brackets_iff_covers.mpr covers⟩
  obtain ⟨table, first⟩ := Option.isSome_iff_exists.mp found
  obtain ⟨brackets, earlier, later, split, noneEarlier⟩ :=
    List.find?_eq_some_iff_append.mp first
  refine ⟨table, LineTable.brackets_iff_covers.mp brackets, earlier, later, split, ?_⟩
  intro other member covers
  have notBracketed := noneEarlier other member
  rw [LineTable.brackets_iff_covers.mpr covers] at notBracketed
  cases notBracketed

theorem hitIn?_of_not_covers
    {index : Nat}
    (outside : ¬ table.Covers address) :
    hitIn? address index table = none := by
  rw [hitIn?, if_neg (mt LineTable.brackets_iff_covers.mp outside)]

theorem hitIn?_of_isFloor
    {index : Nat}
    (covers : table.Covers address)
    (isFloor : table.IsFloor address row) :
    hitIn? address index table = some { index := index, table := table, row := row } := by
  rw [hitIn?, if_pos (LineTable.brackets_iff_covers.mpr covers),
    LineTable.floorRow?_eq_some_iff.mpr isFloor]
  rfl

/-- Tables that do not cover the address are passed over, wherever they start. -/
theorem findSome?_hitIn?_eq_none
    {tables : List LineTable}
    (start : Nat)
    (outside : ∀ table ∈ tables, ¬ table.Covers address) :
    (tables.zipIdx start).findSome? (fun (table, index) => hitIn? address index table) =
      none := by
  rw [List.findSome?_eq_none_iff]
  rintro ⟨table, index⟩ member
  exact hitIn?_of_not_covers (outside table (List.fst_mem_of_mem_zipIdx member))

/-- The first covering table gives its floor row. -/
theorem find?_of_firstCovering
    (first : store.FirstCovering address table)
    (isFloor : table.IsFloor address row) :
    ∃ index, store.find? address = some { index := index, table := table, row := row } := by
  obtain ⟨covers, earlier, later, split, noneEarlier⟩ := first
  refine ⟨earlier.length, ?_⟩
  rw [find?, split, List.zipIdx_append, List.findSome?_append,
    findSome?_hitIn?_eq_none 0 noneEarlier, List.zipIdx_cons, List.findSome?_cons,
    Option.none_or]
  simp only [hitIn?_of_isFloor covers isFloor, Nat.zero_add]

theorem locate?_of_firstCovering
    (attribution : Attribution)
    (first : store.FirstCovering address table)
    (isFloor : table.IsFloor address row) :
    store.locate? attribution address =
      some (.ofPath row.line (table.attributedPath attribution row)) := by
  obtain ⟨index, found⟩ := find?_of_firstCovering first isFloor
  rw [locate?, found, Option.map_some, LineTable.pathFor_eq]

/-- What the first covering table says about an address, under each attribution. -/
theorem exists_location_of_covered
    (covered : ∃ table ∈ store.tables, table.Covers address) :
    ∃ table row,
      store.FirstCovering address table ∧
        table.IsFloor address row ∧
        ∀ attribution,
          store.locate? attribution address =
            some (.ofPath row.line (table.attributedPath attribution row)) := by
  obtain ⟨table, first⟩ := exists_firstCovering covered
  obtain ⟨row, isFloor⟩ := LineTable.exists_isFloor_of_covers first.1
  exact ⟨table, row, first, isFloor,
    fun attribution => locate?_of_firstCovering attribution first isFloor⟩

theorem locate?_eq_none_iff
    (attribution : Attribution) :
    store.locate? attribution address = none ↔
      ∀ table ∈ store.tables, ¬ table.Covers address := by
  constructor
  · intro missed table member covers
    obtain ⟨firstTable, row, -, -, answers⟩ :=
      exists_location_of_covered ⟨table, member, covers⟩
    rw [answers attribution] at missed
    cases missed
  · intro outside
    rw [locate?, find?, findSome?_hitIn?_eq_none 0 outside, Option.map_none]

/--
What a store has to answer for an address: nothing exactly where no table covers it,
and otherwise the line of the floor row of the first covering table, in the file that
the attribution picks, with its path in two parts. So both attributions hit together
and give the same line.
-/
structure Resolves
    (store : LineStore)
    (address : UInt64) :
    Prop where
  missed_iff :
    ∀ attribution,
      store.locate? attribution address = none ↔
        ∀ table ∈ store.tables, ¬ table.Covers address
  located :
    (∃ table ∈ store.tables, table.Covers address) →
      ∃ table row,
        store.FirstCovering address table ∧
          table.IsFloor address row ∧
          ∀ attribution,
            ∃ location,
              store.locate? attribution address = some location ∧
                location.line = row.line ∧
                location.Splits (table.attributedPath attribution row) ∧
                location = .ofPath row.line (table.attributedPath attribution row)
  sameLine :
    (store.locate? .firstFile address).map (·.line) =
      (store.locate? .perRow address).map (·.line)

/-- Every store answers for every address as it has to. -/
theorem locate?_resolves
    (store : LineStore)
    (address : UInt64) :
    store.Resolves address where
  missed_iff := locate?_eq_none_iff
  located := by
    intro covered
    obtain ⟨table, row, first, isFloor, answers⟩ := exists_location_of_covered covered
    refine ⟨table, row, first, isFloor, fun attribution => ?_⟩
    exact ⟨_, answers attribution, rfl, Location.splits_ofPath _ _, rfl⟩
  sameLine := by
    by_cases covered : ∃ table ∈ store.tables, table.Covers address
    · obtain ⟨table, row, -, -, answers⟩ := exists_location_of_covered covered
      rw [answers, answers]
      rfl
    · have outside : ∀ table ∈ store.tables, ¬ table.Covers address := by
        intro table member covers
        exact covered ⟨table, member, covers⟩
      rw [(locate?_eq_none_iff .firstFile).mpr outside, (locate?_eq_none_iff .perRow).mpr outside]

end LineStore

end LineAtlas
