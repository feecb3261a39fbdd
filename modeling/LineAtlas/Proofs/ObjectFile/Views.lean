import LineAtlas.Proofs.Lookup.Gathering
import LineAtlas.Proofs.ObjectFile.Fields

namespace LineAtlas

/-!
# Views of an object file

A section of an object file can be looked up by its name, by its place, by its contents,
or in the file as a source of sections. All of these find the first section of a name,
with the bytes that its header gives inside the image. What an atlas then knows depends
only on the names and the contents that the source lists, and on the byte order.
-/

namespace ObjectFile

/-- A section as a source of sections shows it. -/
def Section.shown (found : Section) : NamedSection where
  name := found.name
  address := found.header.address
  size := found.header.size
  contents := found.contents

/-- The section at `index` is the first one of the given name. -/
structure IsFirstNamed
    (file : ObjectFile)
    (name : String)
    (index : Nat)
    (found : Section) :
    Prop where
  listed : file.sections[index]? = some found
  named : found.name = name
  earlier : ∀ before < index, ∀ other, file.sections[before]? = some other → other.name ≠ name

/-- No section has the name and no lookup finds one, or all find the first one of the name. -/
inductive LookupsAgree
    (file : ObjectFile)
    (name : String) :
    Prop where
  | absent
      (unnamed : ∀ found ∈ file.sections, found.name ≠ name)
      (noSection : file.sectionNamed? name = none)
      (noIndex : file.indexOfName? name = none)
      (noContents : file.contentsNamed? name = none)
      (noShown : (SectionSource.ofObjectFile file).sectionNamed? name = none)
  | first
      (index : Nat)
      (found : Section)
      (isFirst : file.IsFirstNamed name index found)
      (isSection : file.sectionNamed? name = some found)
      (isIndex : file.indexOfName? name = some index)
      (isContents : file.contentsNamed? name = some found.contents)
      (isShown : (SectionSource.ofObjectFile file).sectionNamed? name = some found.shown)
      (shownAt : (SectionSource.ofObjectFile file).sections[index]? = some (some found.shown))

/-- A source lists the names and contents of an object file in order, with its byte order. -/
structure ListedBy
    (file : ObjectFile)
    (source : SectionSource) :
    Prop where
  order : source.order = file.header.order
  sections :
    source.present.map (·.listing) = file.sections.map fun found => (found.name, found.contents)

/-- The ways to look at an object file that is read from an image agree with one another. -/
structure ViewsAgree
    (image : Bytes)
    (file : ObjectFile) :
    Prop where
  /-- The sections are those of the table. -/
  table : readTable image file.header = .ok (file.sections.map (·.header))
  /-- A section with contents holds the bytes of the image that its header gives. -/
  contents :
    ∀ found ∈ file.sections,
      found.contents =
        if found.header.kind ≠ SectionHeader.noContents ∧ found.header.size ≠ 0 ∧
            found.header.offset.toNat + found.header.size.toNat ≤ image.length then
          (image.drop found.header.offset.toNat).take found.header.size.toNat
        else
          []
  lookups : ∀ name, file.LookupsAgree name
  /-- An atlas of any source that lists the sections knows what an atlas of the file knows. -/
  known :
    ∀ options source,
      file.ListedBy source →
        (Atlas.ofSource options source).load.known =
          (Atlas.ofSource options (.ofObjectFile file)).load.known

/-! ## Lookups -/

variable
  {image : Bytes}
  {file : ObjectFile}

theorem present_ofObjectFile (file : ObjectFile) :
    (SectionSource.ofObjectFile file).present = file.sections.map (·.shown) := by
  rw [SectionSource.present, SectionSource.ofObjectFile, List.filterMap_map]
  exact congrFun List.filterMap_eq_map' file.sections

theorem sectionNamed?_ofObjectFile
    (file : ObjectFile)
    (name : String) :
    (SectionSource.ofObjectFile file).sectionNamed? name =
      (file.sectionNamed? name).map (·.shown) := by
  rw [SectionSource.sectionNamed?, present_ofObjectFile, List.find?_map]
  rfl

/-- Lookups that go through the sections in order agree on the first one of a name. -/
theorem lookupsAgree_of_read
    (success : read image = .ok file)
    (name : String) :
    file.LookupsAgree name := by
  obtain ⟨sameImage, contents⟩ := contents_of_read success
  cases place : file.indexOfName? name with
  | none =>
      have unnamed : ∀ found ∈ file.sections, found.name ≠ name := by
        simpa using List.findIdx?_eq_none_iff.mp place
      have noSection : file.sectionNamed? name = none :=
        List.find?_eq_none.mpr (by simpa using unnamed)
      refine .absent unnamed noSection place ?_ ?_
      · rw [contentsNamed?, noSection, Option.map_none]
      · rw [sectionNamed?_ofObjectFile, noSection, Option.map_none]
  | some index =>
      obtain ⟨listed, named, earlier⟩ := List.findIdx?_eq_some_iff_getElem.mp place
      have isSection : file.sectionNamed? name = some file.sections[index] :=
        List.find?_eq_some_iff_getElem.mpr ⟨named, index, listed, rfl, by simpa using earlier⟩
      have isFirst : file.IsFirstNamed name index file.sections[index] := {
        listed := List.getElem?_eq_getElem listed
        named := by simpa using named
        earlier := by
          intro before isBefore other isOther
          obtain ⟨inside, rfl⟩ := List.getElem?_eq_some_iff.mp isOther
          simpa using earlier before isBefore
      }
      refine .first index _ isFirst isSection place ?_ ?_ ?_
      · rw [contentsNamed?, isSection, Option.map_some, sameImage,
          contents _ (List.getElem_mem listed)]
      · rw [sectionNamed?_ofObjectFile, isSection, Option.map_some]
      · rw [SectionSource.ofObjectFile, List.getElem?_map, isFirst.listed]
        rfl

/-! ## All views -/

/-- An object file that is read from an image looks the same in every way. -/
theorem viewsAgree_of_read
    (fits : image.length < addressLimit)
    (success : read image = .ok file) :
    ViewsAgree image file := by
  obtain ⟨-, contents⟩ := contents_of_read success
  exact {
    table := table_of_read success
    contents := fun found member => by rw [contents found member, SectionHeader.contents_eq fits]
    lookups := lookupsAgree_of_read success
    known := by
      intro options source listed
      apply Knowledge.ofSource_eq_of_listing listed.order
      show source.present.map (·.listing) = (SectionSource.ofObjectFile file).present.map _
      rw [listed.sections, present_ofObjectFile, List.map_map]
      rfl
  }

/--
An image of three sections: one named `a` that is not inside the image, another one of
that name, and the names, whose own name is not among them.
-/
def strayImage : Bytes :=
  [127, 69, 76, 70, 1, 2, 1, 0, 0, 0, 0, 0, 0, 0, 0, 0, 0, 2, 0, 105, 0, 0, 0, 1]
    ++ [0, 0, 0, 0, 0, 0, 0, 0, 0, 0, 0, 56, 0, 0, 0, 0, 0, 52, 0, 0, 0, 0, 0, 40, 0, 3, 0, 2]
    ++ [0, 97, 0, 255]
    ++ [0, 0, 0, 1, 0, 0, 0, 1, 0, 0, 0, 0, 0, 0, 0, 0, 255, 255, 255, 255, 0, 0, 0, 2]
    ++ List.replicate 16 0
    ++ [0, 0, 0, 1, 0, 0, 0, 1, 0, 0, 0, 0, 0, 0, 0, 0, 0, 0, 0, 52, 0, 0, 0, 2]
    ++ List.replicate 16 0
    ++ [0, 0, 0, 9, 0, 0, 0, 3, 0, 0, 0, 0, 0, 0, 0, 0, 0, 0, 0, 52, 0, 0, 0, 4]
    ++ List.replicate 16 0

/-- All views of this image agree, also on the section that has no contents. -/
theorem viewsAgree_of_read_strayImage :
    strayImage.length < addressLimit ∧
      ∃ file,
        read strayImage = .ok file ∧
          ViewsAgree strayImage file ∧
          (file.sections.map fun found => (found.name, found.contents)) =
            [("a", []), ("a", [0, 97]), ("", [0, 97, 0, 255])] ∧
          file.contentsNamed? "a" = some [] := by
  have short : strayImage.length < addressLimit := by decide +kernel
  cases isRead : read strayImage with
  | error cause =>
      have succeeds : (read strayImage).toOption.isSome := by decide +kernel
      rw [isRead] at succeeds
      cases succeeds
  | ok file =>
      have evaluated :
          ((read strayImage).toOption.map fun file =>
              ((file.sections.map fun found => (found.name, found.contents)),
                file.contentsNamed? "a")) =
            some ([("a", []), ("a", [0, 97]), ("", [0, 97, 0, 255])], some []) := by
        decide +kernel
      rw [isRead] at evaluated
      obtain ⟨sections, contents⟩ := Prod.mk.inj (Option.some.inj evaluated)
      exact ⟨short, file, rfl, viewsAgree_of_read short isRead, sections, contents⟩

end ObjectFile

end LineAtlas
