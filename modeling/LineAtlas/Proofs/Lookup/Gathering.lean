import LineAtlas.Atlas

namespace LineAtlas

/-!
# What is gathered from a source

What is known of a source is what its line sections and range sections say, section after
section: tables and range sets come from the one kind each, warnings from both. Sections
with other names say nothing, and of these two kinds it is only the names and the contents
that matter.
-/

/-- What a source lists of a section for those who read its contents. -/
def NamedSection.listing (found : NamedSection) : String × Bytes :=
  (found.name, found.contents)

namespace SectionSource

/-- The sections with line programs, in the order of the source. -/
def lineSections (source : SectionSource) : List NamedSection :=
  source.present.filter (·.name = lineSectionName)

/-- The sections with range sets, in the order of the source. -/
def rangeSections (source : SectionSource) : List NamedSection :=
  source.present.filter (·.name = rangeSectionName)

/-- The sections of both kinds, in the order of the source. -/
def debugSections (source : SectionSource) : List NamedSection :=
  source.present.filter fun found =>
    found.name = lineSectionName ∨ found.name = rangeSectionName

/-- The source without the sections that say nothing. -/
def debugOnly (source : SectionSource) : SectionSource where
  order := source.order
  sections := source.debugSections.map some

theorem present_debugOnly (source : SectionSource) :
    source.debugOnly.present = source.debugSections := by
  simp [present, debugOnly]

/-- What the sections of a source say, one section after the other. -/
def gathered
    (source : SectionSource)
    (constAddPc : ConstAddPc) :
    Knowledge where
  store.tables := source.lineSections.flatMap fun found =>
    (LineSection.decode source.order constAddPc found.contents).tables
  rangeSets := source.rangeSections.flatMap fun found =>
    (RangeSection.decode source.order found.contents).sets
  warnings := source.debugSections.flatMap fun found =>
    if found.name = lineSectionName then
      (LineSection.decode source.order constAddPc found.contents).warnings
    else
      (RangeSection.decode source.order found.contents).warnings

end SectionSource

namespace Knowledge

/-! ## One section -/

section

variable
  (order : ByteOrder)
  (constAddPc : ConstAddPc)
  (known : Knowledge)
  (found : NamedSection)

/-- Only a line section adds tables, and it adds them after the ones before. -/
theorem tables_addSection :
    (addSection order constAddPc known found).store.tables =
      known.store.tables ++
        if found.name = lineSectionName then
          (LineSection.decode order constAddPc found.contents).tables
        else
          [] := by
  by_cases isLine : found.name = lineSectionName
  · have notRange : found.name ≠ rangeSectionName := by
      rw [isLine]
      decide
    rw [addSection, if_neg notRange, if_pos isLine, if_pos isLine]
    rfl
  · rw [addSection, if_neg isLine, if_neg isLine, List.append_nil]
    split <;> rfl

/-- Only a range section adds range sets, and it adds them after the ones before. -/
theorem rangeSets_addSection :
    (addSection order constAddPc known found).rangeSets =
      known.rangeSets ++
        if found.name = rangeSectionName then
          (RangeSection.decode order found.contents).sets
        else
          [] := by
  by_cases isRange : found.name = rangeSectionName
  · rw [addSection, if_pos isRange, if_pos isRange]
  · rw [addSection, if_neg isRange, if_neg isRange, List.append_nil]
    split <;> rfl

/-- Sections of both kinds add warnings, and they add them after the ones before. -/
theorem warnings_addSection :
    (addSection order constAddPc known found).warnings =
      known.warnings ++
        if found.name = lineSectionName ∨ found.name = rangeSectionName then
          if found.name = lineSectionName then
            (LineSection.decode order constAddPc found.contents).warnings
          else
            (RangeSection.decode order found.contents).warnings
        else
          [] := by
  by_cases isRange : found.name = rangeSectionName
  · have notLine : found.name ≠ lineSectionName := by
      rw [isRange]
      decide
    rw [addSection, if_pos isRange, if_pos (.inr isRange), if_neg notLine]
  · by_cases isLine : found.name = lineSectionName
    · rw [addSection, if_neg isRange, if_pos isLine, if_pos (.inl isLine), if_pos isLine]
    · rw [addSection, if_neg isRange, if_neg isLine, if_neg (by simp [isLine, isRange]),
        List.append_nil]

/-- A section of another name says nothing. -/
theorem addSection_of_other
    (other : ¬(found.name = lineSectionName ∨ found.name = rangeSectionName)) :
    addSection order constAddPc known found = known := by
  obtain ⟨notLine, notRange⟩ := not_or.mp other
  rw [addSection, if_neg notRange, if_neg notLine]

end

/-! ## All sections -/

variable
  {constAddPc : ConstAddPc}
  {source other : SectionSource}

/-- What each section of a kind adds at the end is there for all of them, in their order. -/
theorem foldl_addSection
    {α : Type}
    (order : ByteOrder)
    (constAddPc : ConstAddPc)
    (part : Knowledge → List α)
    {share : NamedSection → List α}
    {isKind : NamedSection → Prop}
    [DecidablePred isKind]
    (adds :
      ∀ known found,
        part (addSection order constAddPc known found) =
          part known ++ if isKind found then share found else [])
    (known : Knowledge)
    (sections : List NamedSection) :
    part (sections.foldl (addSection order constAddPc) known) =
      part known ++ (sections.filter isKind).flatMap share := by
  induction sections generalizing known with
  | nil =>
      simp
  | cons found later inductionHypothesis =>
      rw [List.foldl_cons, inductionHypothesis, adds]
      by_cases own : isKind found
      · simp [own, List.append_assoc]
      · simp [own]

/-- The tables of a source are those of its line sections, one section after the other. -/
theorem tables_ofSource
    (constAddPc : ConstAddPc)
    (source : SectionSource) :
    (ofSource constAddPc source).store.tables =
      source.lineSections.flatMap fun found =>
        (LineSection.decode source.order constAddPc found.contents).tables :=
  foldl_addSection source.order constAddPc (·.store.tables) (tables_addSection _ _) .empty
    source.present

/-- The range sets of a source are those of its range sections, one section after the other. -/
theorem rangeSets_ofSource
    (constAddPc : ConstAddPc)
    (source : SectionSource) :
    (ofSource constAddPc source).rangeSets = (source.gathered constAddPc).rangeSets :=
  foldl_addSection source.order constAddPc (·.rangeSets) (rangeSets_addSection _ _) .empty
    source.present

/-- The warnings of a source are those of both kinds of sections, one section after the other. -/
theorem warnings_ofSource
    (constAddPc : ConstAddPc)
    (source : SectionSource) :
    (ofSource constAddPc source).warnings = (source.gathered constAddPc).warnings :=
  foldl_addSection source.order constAddPc (·.warnings) (warnings_addSection _ _) .empty
    source.present

/-- What is known of a source is what its sections say, one section after the other. -/
theorem ofSource_eq_gathered
    (constAddPc : ConstAddPc)
    (source : SectionSource) :
    ofSource constAddPc source = source.gathered constAddPc := by
  have tables : (ofSource constAddPc source).store = (source.gathered constAddPc).store :=
    congrArg LineStore.mk (tables_ofSource constAddPc source)
  have rangeSets := rangeSets_ofSource constAddPc source
  have warnings := warnings_ofSource constAddPc source
  calc
    ofSource constAddPc source =
        .mk (ofSource constAddPc source).store (ofSource constAddPc source).rangeSets
          (ofSource constAddPc source).warnings := rfl
    _ = source.gathered constAddPc := by rw [tables, rangeSets, warnings]

/-- Sections of other names change nothing about what is known. -/
theorem ofSource_debugOnly
    (constAddPc : ConstAddPc)
    (source : SectionSource) :
    ofSource constAddPc source.debugOnly = ofSource constAddPc source := by
  rw [ofSource, ofSource, SectionSource.present_debugOnly, SectionSource.debugSections,
    List.foldl_filter]
  congr
  funext known found
  by_cases said : found.name = lineSectionName ∨ found.name = rangeSectionName
  · rw [if_pos (decide_eq_true said)]
    rfl
  · rw [if_neg (by simpa using said), addSection_of_other _ _ _ _ said]

/-- What is known of a source depends on its byte order and on the names and contents in it. -/
theorem ofSource_eq_of_listing
    (sameOrder : source.order = other.order)
    (sameListing : source.present.map (·.listing) = other.present.map (·.listing)) :
    ofSource constAddPc source = ofSource constAddPc other := by
  have each (order : ByteOrder) (sections : List NamedSection) :
      sections.foldl (addSection order constAddPc) .empty =
        (sections.map (·.listing)).foldl
          (fun known listing => addSection order constAddPc known {
            name := listing.1, address := 0, size := 0, contents := listing.2 }) .empty := by
    rw [List.foldl_map]
    rfl
  rw [ofSource, ofSource, each, each, sameOrder, sameListing]

/-- Only the sections of both kinds matter, and of these only the names and the contents. -/
theorem ofSource_eq_of_debugListing
    (sameOrder : source.order = other.order)
    (sameListing :
      source.debugSections.map (·.listing) = other.debugSections.map (·.listing)) :
    ofSource constAddPc source = ofSource constAddPc other := by
  rw [← ofSource_debugOnly _ source, ← ofSource_debugOnly _ other]
  have sameDebugOrder : source.debugOnly.order = other.debugOnly.order := sameOrder
  apply ofSource_eq_of_listing sameDebugOrder
  rwa [SectionSource.present_debugOnly, SectionSource.present_debugOnly]

end Knowledge

end LineAtlas
