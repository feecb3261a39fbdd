import LineAtlas.Proofs.LineProgram.History
import LineAtlas.Proofs.LineProgram.OnwardMotion
import LineAtlas.Proofs.Lookup.Resolution

namespace LineAtlas

open LineProgram

/-!
# Tables with ordered rows

A table whose rows are in the order of their addresses covers exactly the addresses
from its least to its greatest one, and its floor row for an address is the last of
the rows that come closest to it from below. Programs that run onward leave such
tables, whatever the directories and files of their unit are.
-/

namespace LineTable

variable
  {table : LineTable}
  {address : UInt64}

/-- The rows are in the order of their addresses. -/
def Ordered (table : LineTable) : Prop :=
  table.rows.Pairwise fun earlier later => earlier.address ≤ later.address

/-- Ordered rows, if there are any, make an ordered table. -/
theorem exists_ordered_ofRows?
    (directories : List String)
    (files : List SourceFile)
    {rows : List Row}
    (ordered : rows.Pairwise fun earlier later => earlier.address ≤ later.address)
    (present : rows ≠ []) :
    ∃ table,
      LineTable.ofRows? directories files rows = some table ∧
        table.rows = rows ∧
        table.Ordered :=
  ⟨_, dif_pos present, rfl, ordered⟩

/-- No row of an ordered table lies before the first one. -/
theorem Ordered.head_le
    (ordered : table.Ordered)
    {row : Row}
    (member : row ∈ table.rows) :
    (table.rows.head table.rows_ne_nil).address ≤ row.address := by
  obtain ⟨first, later, split⟩ := List.exists_cons_of_ne_nil table.rows_ne_nil
  unfold Ordered at ordered
  simp only [split, List.head_cons] at ordered member ⊢
  rcases List.mem_cons.mp member with isFirst | inLater
  · rw [isFirst]
    exact UInt64.le_refl _
  · exact List.rel_of_pairwise_cons ordered inLater

/-- No row of an ordered table lies past the last one. -/
theorem Ordered.le_getLast
    (ordered : table.Ordered)
    {row : Row}
    (member : row ∈ table.rows) :
    row.address ≤ (table.rows.getLast table.rows_ne_nil).address := by
  have split := List.dropLast_append_getLast table.rows_ne_nil
  unfold Ordered at ordered
  rw [← split] at ordered member
  rcases List.mem_append.mp member with earlier | isLast
  · exact (List.pairwise_append.mp ordered).2.2 row earlier _ (List.mem_singleton_self _)
  · rw [List.mem_singleton.mp isLast]
    exact UInt64.le_refl _

/-- Every row of an ordered table has an address that the table covers. -/
theorem Ordered.covers
    (ordered : table.Ordered)
    {row : Row}
    (member : row ∈ table.rows) :
    table.Covers row.address :=
  ⟨ordered.head_le member, ordered.le_getLast member⟩

/-- Of the rows that are not past an address, none has a greater address than the floor row. -/
theorem Ordered.le_floor
    (ordered : table.Ordered)
    {row other : Row}
    (isFloor : table.IsFloor address row)
    (member : other ∈ table.rows)
    (notPast : other.address ≤ address) :
    other.address ≤ row.address := by
  obtain ⟨-, earlier, later, split, laterPast⟩ := isFloor
  unfold Ordered at ordered
  rw [split] at ordered member
  rcases List.mem_append.mp member with inEarlier | inRest
  · exact (List.pairwise_append.mp ordered).2.2 other inEarlier row List.mem_cons_self
  · rcases List.mem_cons.mp inRest with isRow | inLater
    · rw [isRow]
      exact UInt64.le_refl _
    · have past := laterPast other inLater
      exact (UInt64.not_le.mpr past notPast).elim

/--
What looking up addresses in a table gives at best: it covers what lies between its
least and its greatest row, and answers with the last row that has the greatest
address up to the one asked for. So each row's own address is answered exactly.
-/
structure FloorsExactly (table : LineTable) : Prop where
  brackets_iff :
    ∃ least ∈ table.rows, ∃ greatest ∈ table.rows,
      (∀ row ∈ table.rows,
          least.address ≤ row.address ∧ row.address ≤ greatest.address) ∧
        ∀ address,
          table.brackets address = true ↔
            least.address ≤ address ∧ address ≤ greatest.address
  floor :
    ∀ address,
      table.brackets address = true →
        ∃ row,
          table.floorRow? address = some row ∧
            table.IsFloor address row ∧
            ∀ other ∈ table.rows, other.address ≤ address → other.address ≤ row.address
  own :
    ∀ row ∈ table.rows,
      table.brackets row.address = true ∧
        ∃ found,
          table.floorRow? row.address = some found ∧ found.address = row.address

theorem Ordered.floorsExactly
    (ordered : table.Ordered) :
    table.FloorsExactly where
  brackets_iff :=
    ⟨_, List.head_mem table.rows_ne_nil, _, List.getLast_mem table.rows_ne_nil,
      fun _ member => ⟨ordered.head_le member, ordered.le_getLast member⟩,
      fun _ => brackets_iff_covers⟩
  floor := by
    intro address brackets
    obtain ⟨row, isFloor⟩ := exists_isFloor_of_covers (brackets_iff_covers.mp brackets)
    exact ⟨row, floorRow?_eq_some_iff.mpr isFloor, isFloor,
      fun other => ordered.le_floor isFloor⟩
  own := by
    intro row member
    have covers := ordered.covers member
    obtain ⟨found, isFloor⟩ := exists_isFloor_of_covers covers
    refine ⟨brackets_iff_covers.mpr covers, found, floorRow?_eq_some_iff.mpr isFloor, ?_⟩
    exact UInt64.le_antisymm isFloor.1 (ordered.le_floor isFloor member (UInt64.le_refl _))

end LineTable

variable
  {header : Header}
  {constAddPc : ConstAddPc}

/--
A program that runs onward leaves rows in the order of their addresses, and if there
are any, the table of these rows answers exactly.
-/
theorem LineTable.floorsExactly_of_runsOnward
    {program after : Cursor}
    {rows : List Row}
    (ran : runSequence header constAddPc program = .ok rows after)
    (onward : RunsOnward header constAddPc program) :
    rows.Pairwise (fun earlier later => earlier.address ≤ later.address) ∧
      ∀ directories files,
        rows ≠ [] →
          ∃ table,
            LineTable.ofRows? directories files rows = some table ∧
              table.rows = rows ∧
              table.FloorsExactly := by
  have ordered := pairwise_of_runsOnward ran onward
  refine ⟨ordered, ?_⟩
  intro directories files present
  obtain ⟨table, ofRows, sameRows, tableOrdered⟩ :=
    exists_ordered_ofRows? directories files ordered present
  exact ⟨table, ofRows, sameRows, tableOrdered.floorsExactly⟩

/-- A program with every kind of advance, two rows at one address, and an address set twice at first. -/
def steppingProgram : List (AssemblyInstruction wideHeader) := [
  .setAddress [0x00, 0x60],
  .setAddress [0x00, 0x44],
  .copy,
  wideSpecial,
  .copy,
  .constAddPc,
  .advancePc 5,
  .copy,
  .setAddress [0x00, 0x50],
  .fixedAdvancePc 2,
  .copy
]

theorem LineTable.floorsExactly_of_runsOnward_steppingProgram :
    ∃ rows after,
      runSequence wideHeader .standard
          (.ofBytes .little (assemble .little steppingProgram)) = .ok rows after ∧
        RunsOnward wideHeader .standard
          (.ofBytes .little (assemble .little steppingProgram)) ∧
        rows.map (·.address) = [0x4400, 0x4404, 0x4404, 0x445C, 0x5002] ∧
        rows.Pairwise (fun earlier later => earlier.address ≤ later.address) ∧
        ∀ directories files,
          rows ≠ [] →
            ∃ table,
              LineTable.ofRows? directories files rows = some table ∧
                table.rows = rows ∧
                table.FloorsExactly := by
  have fits : (assemble .little steppingProgram).length < addressLimit := by
    decide +kernel
  have read :=
    reads_assemble .little steppingProgram fits (.ofBytes .little _) []
      (Cursor.placed_ofBytes fits) rfl (List.append_nil _).symm
  have ran := (reads_assemble .little steppingProgram fits).map
    ((Registers.initial wideHeader.defaultIsStatement).rows wideHeader .standard)
      (.ofBytes .little _) [] (Cursor.placed_ofBytes fits) rfl (List.append_nil _).symm
  rw [← runSequence_eq] at ran
  have onward :
      RunsOnward wideHeader .standard
        (.ofBytes .little (assemble .little steppingProgram)) := by
    intro instructions after success
    rw [read] at success
    cases success
    decide +kernel
  exact ⟨_, _, ran, onward, by decide +kernel, LineTable.floorsExactly_of_runsOnward ran onward⟩

end LineAtlas
