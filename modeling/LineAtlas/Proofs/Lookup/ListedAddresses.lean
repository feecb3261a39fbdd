import LineAtlas.Proofs.LineSection.BothPolicies
import LineAtlas.Proofs.Lookup.Gathering
import LineAtlas.Proofs.Lookup.OrderedRows

namespace LineAtlas

open LineProgram

/-!
# Addresses that an atlas lists

An atlas lists the address of every row that it has stored. It has a location for a
listed address exactly if some table covers it. A program can set its address back
before its last row, and then a row can lie outside of what its own table covers, so
not every listed address has a location. The rows of a sequence that moves onward do.
-/

/-- A sequence that moves onward leaves ordered rows, so its table covers all of them. -/
theorem Listing.covers_of_movesOnward
    {constAddPc : ConstAddPc}
    {listing : Listing}
    (onward :
      MovesOnward listing.prologue.header constAddPc
        (.initial listing.prologue.header.defaultIsStatement) listing.instructions)
    {row : Row}
    (member : row ∈ listing.rows constAddPc) :
    ∃ table,
      listing.table? constAddPc = some table ∧
        row ∈ table.rows ∧
        table.Covers row.address := by
  have ordered := (Registers.behind_of_movesOnward onward).ordered
  obtain ⟨table, ofListing, sameRows, tableOrdered⟩ :=
    LineTable.exists_ordered_ofRows? listing.prologue.directories listing.prologue.files
      ordered (List.ne_nil_of_mem member)
  have inTable : row ∈ table.rows := by
    rw [sameRows]
    exact member
  exact ⟨table, ofListing, inTable, tableOrdered.covers inTable⟩

namespace Atlas

/--
What an atlas has to answer for the addresses that it lists: a location exactly where
a table covers the address, and so for each row of a sequence that moves onward.
-/
structure AnswersListed (atlas : Atlas) : Prop where
  located_iff :
    ∀ address ∈ atlas.known.store.rowAddresses,
      (atlas.locate? address).isSome = true ↔
        ∃ table ∈ atlas.known.store.tables, table.Covers address
  onward :
    ∀ found ∈ atlas.source.lineSections,
      ∀ listing ∈ LineSection.listings atlas.source.order found.contents,
        MovesOnward listing.prologue.header atlas.options.constAddPc
            (.initial listing.prologue.header.defaultIsStatement) listing.instructions →
          ∀ row ∈ listing.rows atlas.options.constAddPc,
            row.address ∈ atlas.known.store.rowAddresses ∧
              (atlas.locate? row.address).isSome = true

theorem isSome_locate?_iff
    {atlas : Atlas}
    {address : UInt64} :
    (atlas.locate? address).isSome = true ↔
      ∃ table ∈ atlas.known.store.tables, table.Covers address := by
  rw [locate?, ← Option.ne_none_iff_isSome, Ne, LineStore.locate?_eq_none_iff]
  simp

/-- Once it is loaded, an atlas answers for the addresses that it lists as it has to. -/
theorem answersListed_load
    (options : Options)
    (source : SectionSource) :
    (Atlas.ofSource options source).load.AnswersListed where
  located_iff address _ := isSome_locate?_iff
  onward := by
    intro found isLine listing listed onward row member
    obtain ⟨table, ofListing, inTable, covers⟩ := listing.covers_of_movesOnward onward member
    have stored :
        table ∈ (Atlas.ofSource options source).load.known.store.tables := by
      show table ∈ (Knowledge.ofSource options.constAddPc source).store.tables
      rw [Knowledge.tables_ofSource]
      refine List.mem_flatMap.mpr ⟨found, isLine, ?_⟩
      rw [(LineSection.decode_eq_listings source.order options.constAddPc found.contents).1]
      exact List.mem_filterMap.mpr ⟨listing, listed, ofListing⟩
    refine ⟨?_, isSome_locate?_iff.mpr ⟨table, stored, covers⟩⟩
    exact List.mem_flatMap.mpr ⟨table, stored, List.mem_map_of_mem inTable⟩

/--
A unit with one sequence. Its rows have the addresses 256, 512 and 384, since the
program sets its address back before the last one.
-/
def backwardSource : SectionSource where
  order := .little
  sections := [
    some {
      name := ".debug_line"
      address := 0
      size := 47
      contents :=
        [43, 0, 0, 0, 2, 0, 12, 0, 0, 0, 1, 1, 0, 1, 1, 0, 97, 0, 0, 0, 0, 0]
          ++ [0, 3, 2, 0, 1, 1, 3, 1, 0, 3, 2, 0, 2, 1, 3, 1, 0, 3, 2, 128, 1, 1, 0, 1, 1]
    }
  ]

/-- What is known about this source once it has been loaded. -/
def backwardAtlas : Atlas :=
  (Atlas.ofSource { constAddPc := .ignore, attribution := .firstFile } backwardSource).load

/-- The second row of the sequence is listed, but it has no location. -/
theorem locate?_backwardAtlas :
    (512 : UInt64) ∈ backwardAtlas.known.store.rowAddresses ∧
      backwardAtlas.locate? 512 = none := by
  decide +kernel

end Atlas

end LineAtlas
