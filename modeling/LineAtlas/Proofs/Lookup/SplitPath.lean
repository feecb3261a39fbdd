import LineAtlas.LineSection.Prologue
import LineAtlas.Location
import Mathlib.Data.List.TakeWhile

namespace LineAtlas.Location

/-!
# Splitting a path and joining it again

A location keeps the two parts of its path around the last slash. Joining them gives
the path back, unless the only slash stands at the very start: the directory is then
no text, as it is for a path without any slash, and the slash is lost.
-/

/-- A path with a slash has a last one. -/
theorem exists_last_slash
    {path : List Char}
    (slash : '/' ∈ path) :
    ∃ front back, path = front ++ '/' :: back ∧ '/' ∉ back := by
  obtain ⟨passed, left, reversed, noSlash⟩ :=
    List.eq_append_cons_of_mem (List.mem_reverse.mpr slash)
  refine ⟨left.reverse, passed.reverse, ?_, by simpa using noSlash⟩
  rw [← List.reverse_reverse path, reversed]
  simp

/-- The scan from the end passes every character that is no slash. -/
theorem passes_of_noSlash
    {name : List Char}
    (noSlash : '/' ∉ name) :
    ∀ character ∈ name.reverse, decide (character ≠ '/') = true := by
  intro character member
  rw [decide_eq_true_iff]
  rintro rfl
  exact noSlash (List.mem_reverse.mp member)

/-- The last slash is what parts the parent from the last name. -/
theorem split_at_last_slash
    (front : List Char)
    {back : List Char}
    (noSlash : '/' ∉ back) :
    parent (front ++ '/' :: back) = front ∧ lastName (front ++ '/' :: back) = back := by
  have passed := passes_of_noSlash noSlash
  have reversed : (front ++ '/' :: back).reverse = back.reverse ++ '/' :: front.reverse := by
    simp
  constructor
  · rw [parent, reversed, List.dropWhile_append_of_pos passed]
    simp
  · rw [lastName, reversed, List.takeWhile_append_of_pos passed]
    simp

/-- Without a slash, the last name is the whole path. -/
theorem split_without_slash
    {path : List Char}
    (noSlash : '/' ∉ path) :
    parent path = [] ∧ lastName path = path := by
  have passed := passes_of_noSlash noSlash
  constructor
  · have nothingLeft := List.dropWhile_eq_nil_iff.mpr passed
    rw [parent, nothingLeft]
    rfl
  · rw [lastName, List.takeWhile_eq_self_iff.mpr passed, List.reverse_reverse]

/--
The location has the path in two parts: what stands before its last slash, and what
stands after it. A path without a slash is all file.
-/
structure Splits
    (location : Location)
    (path : String) :
    Prop where
  withoutSlash : '/' ∉ path.toList → location.directory = "" ∧ location.file = path
  atLastSlash :
    '/' ∈ path.toList →
      path = location.directory ++ "/" ++ location.file ∧ '/' ∉ location.file.toList

theorem splits_ofPath
    (line : Int64)
    (path : String) :
    (ofPath line path).Splits path where
  withoutSlash := by
    intro noSlash
    obtain ⟨noParent, wholeName⟩ := split_without_slash noSlash
    simp [ofPath, noParent, wholeName]
  atLastSlash := by
    intro slash
    obtain ⟨front, back, split, noSlash⟩ := exists_last_slash slash
    obtain ⟨sameParent, sameName⟩ := split_at_last_slash front noSlash
    rw [← String.toList_inj]
    simp [ofPath, split, sameParent, sameName, noSlash]

/-- A directory and a slash before a name are not cut down to no parent. -/
theorem parent_append_ne_nil
    {directory : List Char}
    (nonempty : directory ≠ [])
    (name : List Char) :
    parent (directory ++ '/' :: name) ≠ [] := by
  by_cases slash : '/' ∈ name
  · obtain ⟨front, back, split, noSlash⟩ := exists_last_slash slash
    have parted : directory ++ '/' :: name = (directory ++ '/' :: front) ++ '/' :: back := by
      rw [split]
      simp
    rw [parted, (split_at_last_slash _ noSlash).1]
    simp
  · rwa [(split_at_last_slash directory slash).1]

/-- The joined path in terms of the two parts. -/
theorem path_ofPath
    (line : Int64)
    (path : String) :
    (ofPath line path).path =
      if parent path.toList = [] then
        String.ofList (lastName path.toList)
      else
        String.ofList (parent path.toList) ++ "/" ++ String.ofList (lastName path.toList) := by
  simp [ofPath, Location.path]

/-- Splitting and joining give the path back, unless its last slash has no parent. -/
theorem path_ofPath_iff
    (line : Int64)
    (path : String) :
    (ofPath line path).path = path ↔ ('/' ∈ path.toList → parent path.toList ≠ []) := by
  rw [path_ofPath, ← String.toList_inj]
  by_cases slash : '/' ∈ path.toList
  · obtain ⟨front, back, split, noSlash⟩ := exists_last_slash slash
    obtain ⟨sameParent, sameName⟩ := split_at_last_slash front noSlash
    rw [split, sameParent, sameName]
    by_cases atRoot : front = []
    · simp [atRoot]
    · simp [atRoot]
  · obtain ⟨noParent, wholeName⟩ := split_without_slash slash
    simp [noParent, wholeName, slash]

/-- The path of a file in a directory that is some text is split and joined without loss. -/
theorem path_ofPath_joinPath
    (line : Int64)
    {directory : String}
    (nonempty : directory ≠ "")
    (name : String) :
    (ofPath line (Prologue.joinPath directory name)).path = Prologue.joinPath directory name := by
  rw [path_ofPath_iff]
  intro _
  have joined :
      (Prologue.joinPath directory name).toList = directory.toList ++ '/' :: name.toList := by
    simp [Prologue.joinPath]
  rw [joined]
  apply parent_append_ne_nil
  simpa using nonempty

/-- A slash and a name without one: what stands in the root directory. -/
def InRoot
    (path name : String) :
    Prop :=
  path = "/" ++ name ∧ '/' ∉ name.toList

/-- A path whose last slash has no parent stands in the root directory. -/
theorem inRoot_of_parent_eq_nil
    {path : String}
    (slash : '/' ∈ path.toList)
    (noParent : parent path.toList = []) :
    ∃ name, InRoot path name := by
  obtain ⟨front, back, split, noSlash⟩ := exists_last_slash slash
  rw [split, (split_at_last_slash front noSlash).1] at noParent
  subst noParent
  refine ⟨String.ofList back, String.toList_inj.mp ?_, by simpa using noSlash⟩
  rw [split]
  simp

/-- What stands in the root directory loses its slash. -/
theorem path_ofPath_of_inRoot
    (line : Int64)
    {path name : String}
    (inRoot : InRoot path name) :
    (ofPath line path).path = name := by
  obtain ⟨rfl, noSlash⟩ := inRoot
  have split : ("/" ++ name).toList = [] ++ '/' :: name.toList := by simp
  obtain ⟨noParent, sameName⟩ := split_at_last_slash [] noSlash
  rw [path_ofPath, split, if_pos noParent, sameName, String.ofList_toList]

/-- What a path reads as, once it has been split into a location of the line. -/
structure Rejoins
    (line : Int64)
    (path : String) :
    Prop where
  /-- A path comes back whole, and is shown with the line, unless it stands in the root directory. -/
  whole :
    (∀ name, ¬ InRoot path name) →
      (ofPath line path).path = path ∧
        (ofPath line path).text = path ++ ":" ++ toString line.toInt
  /-- What stands in the root directory comes back as its name alone. -/
  shortened :
    ∀ name,
      InRoot path name →
        (ofPath line path).path = name ∧
          (ofPath line path).text = name ++ ":" ++ toString line.toInt

theorem rejoins_ofPath
    (line : Int64)
    (path : String) :
    Rejoins line path := by
  constructor
  · intro elsewhere
    have same : (ofPath line path).path = path := by
      rw [path_ofPath_iff]
      intro slash noParent
      obtain ⟨name, inRoot⟩ := inRoot_of_parent_eq_nil slash noParent
      exact elsewhere name inRoot
    exact ⟨same, by rw [text, same]; rfl⟩
  · intro name inRoot
    have shorter := path_ofPath_of_inRoot line inRoot
    exact ⟨shorter, by rw [text, shorter]; rfl⟩

/-- A file in the root directory is shown as if it had no directory. -/
theorem path_ofPath_rootFile :
    (ofPath 1 "/x").path ≠ "/x" ∧ (ofPath 1 "/x").text ≠ "/x:1" := by
  decide

end LineAtlas.Location
