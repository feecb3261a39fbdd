import LineAtlas.LineSection.Decode
import LineAtlas.Proofs.LineSection.Shape

namespace LineAtlas

/-!
# Units are decoded apart from each other

Whatever is in whole units, decoding goes on after them as at the start of a
section: the tables of what follows are the same, and so are its warnings, up to
their offsets. Only the warning for a cut length field names positions of the
section in its cause, and those move too.
-/

/-- The cursor at the same place when `front` stands before its data. -/
def Cursor.behind
    (front : Bytes)
    (cursor : Cursor) :
    Cursor where
  data := front ++ cursor.data
  position := front.length + cursor.position
  order := cursor.order

/-- The frame with `count` more bytes before its section. -/
def Frame.behind
    (count : Nat)
    (frame : Frame) :
    Frame :=
  { frame with offset := count + frame.offset }

/-- The cause with `count` more bytes before the data that was too short. -/
def WarningCause.behind (count : Nat) : WarningCause → WarningCause
  | .failure (.truncated expected actual subject) =>
      .failure (.truncated (count + expected) (count + actual) subject)
  | other => other

/--
The warning with `front` before its section `back`.

The cause changes if the length field of the unit is cut.
-/
def Warning.behind
    (front back : Bytes)
    (warning : Warning) :
    Warning where
  sectionName := warning.sectionName
  offset := front.length + warning.offset
  kind := warning.kind
  cause :=
    if back.length < warning.offset + 4 then
      warning.cause.behind front.length
    else
      warning.cause

namespace Cursor

variable
  (front : Bytes)
  (cursor : Cursor)

@[simp] theorem position_behind :
    (cursor.behind front).position = front.length + cursor.position :=
  rfl

@[simp] theorem size_behind : (cursor.behind front).size = front.length + cursor.size := by
  simp [behind, size]

@[simp] theorem rest_behind : (cursor.behind front).rest = cursor.rest := by
  simp [behind, rest, List.drop_append]

@[simp] theorem advance_behind (count : Nat) :
    (cursor.behind front).advance count = (cursor.advance count).behind front := by
  simp [behind, advance, Nat.add_assoc]

variable {cursor} in
theorem Placed.behind
    (placed : cursor.Placed)
    (fits : front.length + cursor.size < addressLimit) :
    (cursor.behind front).Placed where
  position_le := by
    have := placed.position_le
    simp only [position_behind, size_behind]
    omega
  size_lt := by
    rwa [size_behind]

end Cursor

namespace Framing

/-- Bytes before a section move its frames, and change nothing else. -/
theorem ofCursor_behind
    {order : ByteOrder}
    {bytes : Bytes}
    (shape : Shape order bytes)
    (front : Bytes)
    {cursor : Cursor}
    (placed : cursor.Placed)
    (room : front.length + cursor.size + 4 ≤ addressLimit)
    (sameOrder : cursor.order = order)
    (split : cursor.rest = bytes) :
    ofCursor (cursor.behind front) =
      { frames := (ofCursor cursor).frames.map (·.behind front.length)
        stopped := (ofCursor cursor).stopped.map (·.behind front cursor.data) } := by
  -- The shape is that of what is left, which is the same for both cursors.
  induction shape generalizing cursor with
  | finished =>
      have movedSplit : (cursor.behind front).rest = [] := by
        rw [Cursor.rest_behind, split]
      rw [ofCursor_finished split, ofCursor_finished movedSplit]
      rfl
  | cutField nonempty short =>
      have cut : cursor.data.length < cursor.position + 4 := by
        rw [← split, Cursor.length_rest, Cursor.remaining, Cursor.size] at short
        omega
      subst split
      have here := ofCursor_cutField (by omega) nonempty short
      have there : ofCursor (cursor.behind front) = _ :=
        ofCursor_cutField
          (by simpa using room)
          (by simpa using nonempty)
          (by simpa using short)
      rw [here, there]
      simp [cutFieldWarning, Warning.ofError, Warning.behind, WarningCause.behind, cut,
        Nat.add_assoc, Warning.kindOfError, ReadError.isTruncation]
  | wide size marked =>
      have moved := placed.behind front (by omega)
      have whole : ¬ cursor.data.length < cursor.position + 4 := by
        have inside := placed.end_le_size split
        rw [size, Cursor.size] at inside
        omega
      rw [← sameOrder] at marked
      rw [ofCursor_wide placed split size marked,
        ofCursor_wide moved (by rw [Cursor.rest_behind, split]) size marked]
      simp [wideWarning, Warning.behind, whole]
  | cutUnit announced short =>
      have moved := placed.behind front (by omega)
      rw [← sameOrder] at announced
      rw [ofCursor_cutUnit placed split announced short,
        ofCursor_cutUnit moved (by rw [Cursor.rest_behind, split]) announced short]
      rfl
  | @unit field body rest announced later inductionHypothesis =>
      have moved := placed.behind front (by omega)
      rw [← sameOrder] at announced
      have laterFrames :=
        inductionHypothesis (placed.advance split) room sameOrder (Cursor.rest_advance split)
      rw [ofCursor_unit placed split announced,
        ofCursor_unit moved (by rw [Cursor.rest_behind, split]) announced,
        Cursor.advance_behind, laterFrames]
      rfl

/-- The length fields of all frames are complete. -/
theorem offset_of_mem_frames
    {order : ByteOrder}
    {bytes : Bytes}
    (shape : Shape order bytes)
    {cursor : Cursor}
    (placed : cursor.Placed)
    (room : cursor.size + 4 ≤ addressLimit)
    (sameOrder : cursor.order = order)
    (split : cursor.rest = bytes)
    {frame : Frame}
    (member : frame ∈ (ofCursor cursor).frames) :
    frame.offset + 4 ≤ cursor.size := by
  induction shape generalizing cursor with
  | finished =>
      simp [ofCursor_finished split] at member
  | cutField nonempty short =>
      subst split
      simp [ofCursor_cutField room nonempty short] at member
  | wide size marked =>
      rw [← sameOrder] at marked
      simp [ofCursor_wide placed split size marked] at member
  | cutUnit announced short =>
      have inside := placed.end_le_size split
      rw [← sameOrder] at announced
      rw [ofCursor_cutUnit placed split announced short, List.mem_singleton] at member
      subst member
      rwa [announced.size] at inside
  | @unit field body rest announced later inductionHypothesis =>
      have inside := placed.end_le_size split
      rw [← sameOrder] at announced
      rw [ofCursor_unit placed split announced] at member
      rcases List.mem_cons.mp member with rfl | laterMember
      · rw [List.length_append, announced.size] at inside
        show cursor.position + 4 ≤ cursor.size
        omega
      · have laterInside :=
          inductionHypothesis (placed.advance split) room sameOrder
            (Cursor.rest_advance split) laterMember
        exact laterInside

/-- Whole units give frames of their own, and what follows is cut as it would be alone. -/
theorem ofCursor_append
    {order : ByteOrder}
    {front back : Bytes}
    (framed : Framed order front)
    {alone together : Cursor}
    (alonePlaced : alone.Placed)
    (togetherPlaced : together.Placed)
    (aloneOrder : alone.order = order)
    (togetherOrder : together.order = order)
    (samePosition : together.position = alone.position)
    (aloneSplit : alone.rest = front)
    (togetherSplit : together.rest = front ++ back) :
    (ofCursor alone).stopped = none ∧
      ofCursor together =
        { frames :=
            (ofCursor alone).frames ++ (ofCursor (together.advance front.length)).frames
          stopped := (ofCursor (together.advance front.length)).stopped } := by
  induction framed generalizing alone together with
  | nil =>
      rw [ofCursor_finished aloneSplit]
      exact ⟨rfl, rfl⟩
  | @cons field body rest announced later inductionHypothesis =>
      rw [List.append_assoc] at togetherSplit
      have frameAlone := ofCursor_unit alonePlaced aloneSplit (aloneOrder ▸ announced)
      have frameTogether := ofCursor_unit togetherPlaced togetherSplit (togetherOrder ▸ announced)
      obtain ⟨noStop, laterFrames⟩ :=
        inductionHypothesis
          (alonePlaced.advance aloneSplit)
          (togetherPlaced.advance togetherSplit)
          aloneOrder
          togetherOrder
          (by simp [Cursor.advance, samePosition])
          (Cursor.rest_advance aloneSplit)
          (Cursor.rest_advance togetherSplit)
      rw [frameAlone, frameTogether, laterFrames, Cursor.advance_advance,
        ← List.length_append, samePosition]
      exact ⟨noStop, by simp⟩

end Framing

namespace LineSection

/-- What was decoded, with `front` before its section `back`. -/
def behind
    (front back : Bytes)
    (decoded : LineSection) :
    LineSection where
  tables := decoded.tables
  warnings := decoded.warnings.map (·.behind front back)

theorem unitWarning_behind
    (front : Bytes)
    {back : Bytes}
    {offset : Nat}
    (complete : offset + 4 ≤ back.length)
    (error : ReadError) :
    (unitWarning offset error).behind front back = unitWarning (front.length + offset) error := by
  have whole : ¬ back.length < offset + 4 := by omega
  simp [unitWarning, Warning.ofError, Warning.behind, whole]

/-- Where a frame stands shows in its warning only. -/
theorem ofFrame_behind
    (order : ByteOrder)
    (constAddPc : ConstAddPc)
    (front : Bytes)
    {back : Bytes}
    {frame : Frame}
    (complete : frame.offset + 4 ≤ back.length) :
    ofFrame order constAddPc (frame.behind front.length) =
      (ofFrame order constAddPc frame).behind front back := by
  have sameWarning := unitWarning_behind front complete
  have sameFailure : cutFailure? (frame.behind front.length) = cutFailure? frame :=
    rfl
  cases outcome : Prologue.read frame.claimed (.ofBytes order frame.body) with
  | error cause stopped =>
      have sameOutcome :
          Prologue.read (frame.behind front.length).claimed
              (.ofBytes order (frame.behind front.length).body) =
            .error cause stopped :=
        outcome
      simp [ofFrame, outcome, Frame.behind, behind, sameWarning]
  | ok prologue program =>
      have sameOutcome :
          Prologue.read (frame.behind front.length).claimed
              (.ofBytes order (frame.behind front.length).body) =
            .ok prologue program :=
        outcome
      simp only [ofFrame, outcome, sameOutcome, sameFailure]
      cases (Sequences.run prologue.header constAddPc program).failure.or (cutFailure? frame) <;>
        simp [Frame.behind, behind, sameWarning]

/--
Whole units before a section, whatever they hold, put their tables and warnings
before those of the section and move its warnings.

No memory is so full that a length field after the section would not fit into it.
-/
theorem decode_append
    (order : ByteOrder)
    (constAddPc : ConstAddPc)
    {front back : Bytes}
    (framed : Framing.Framed order front)
    (room : (front ++ back).length + 4 ≤ addressLimit) :
    (decode order constAddPc (front ++ back)).tables =
        (decode order constAddPc front).tables ++ (decode order constAddPc back).tables ∧
      (decode order constAddPc (front ++ back)).warnings =
        (decode order constAddPc front).warnings ++
          (decode order constAddPc back).warnings.map (·.behind front back) := by
  rw [List.length_append] at room
  have frontPlaced : (Cursor.ofBytes order front).Placed :=
    Cursor.placed_ofBytes (by omega)
  have bothPlaced : (Cursor.ofBytes order (front ++ back)).Placed :=
    Cursor.placed_ofBytes (by rw [List.length_append]; omega)
  have backPlaced : (Cursor.ofBytes order back).Placed :=
    Cursor.placed_ofBytes (by omega)
  have sameCursor :
      (Cursor.ofBytes order (front ++ back)).advance front.length =
        (Cursor.ofBytes order back).behind front := by
    simp [Cursor.ofBytes, Cursor.advance, Cursor.behind]
  obtain ⟨noStop, cut⟩ :=
    Framing.ofCursor_append framed frontPlaced bothPlaced rfl rfl rfl rfl rfl
  rw [sameCursor,
    Framing.ofCursor_behind (Framing.shape order back) front backPlaced
      (by simpa [Cursor.ofBytes, Cursor.size] using room) rfl rfl] at cut
  have moved (frame : Frame)
      (member : frame ∈ (Framing.ofCursor (.ofBytes order back)).frames) :
      (ofFrame order constAddPc ∘ (·.behind front.length)) frame =
        ((·.behind front back) ∘ ofFrame order constAddPc) frame :=
    ofFrame_behind order constAddPc front
      (Framing.offset_of_mem_frames (Framing.shape order back) backPlaced
        (by simp only [Cursor.ofBytes, Cursor.size]; omega) rfl rfl member)
  simp only [decode, Framing.ofBytes, cut, noStop, List.map_append, List.map_map,
    List.map_congr_left moved, List.flatMap_append]
  constructor
  · simp [List.flatMap_map, behind]
  · simp [List.flatMap_map, List.map_flatMap, behind, Option.toList_map, Cursor.ofBytes]

/-- A unit of an unknown version before a cut length field. -/
theorem decode_append_unknownVersion :
    Framing.Framed .little [3, 0, 0, 0, 9, 0, 7] ∧
      ([3, 0, 0, 0, 9, 0, 7] ++ [1, 2] : Bytes).length + 4 ≤ addressLimit ∧
      (decode .little .standard ([3, 0, 0, 0, 9, 0, 7] ++ [1, 2])).warnings =
        [{ sectionName := ".debug_line"
           offset := 0
           kind := .malformedHeader
           cause := .failure (.unsupportedVersion "line program" 9) },
          { sectionName := ".debug_line"
            offset := 7
            kind := .truncatedSection
            cause := .failure (.truncated 11 9 "u32") }] := by
  have announced : Framing.Announces .little [3, 0, 0, 0] ([9, 0, 7] : Bytes).length :=
    { size := rfl, number := rfl, narrow := by decide }
  have framed : Framing.Framed .little [3, 0, 0, 0, 9, 0, 7] :=
    .cons announced .nil
  have room : ([3, 0, 0, 0, 9, 0, 7] ++ [1, 2] : Bytes).length + 4 ≤ addressLimit := by
    decide
  refine ⟨framed, room, ?_⟩
  rw [(decode_append .little .standard framed room).2]
  decide +kernel

end LineSection

end LineAtlas
