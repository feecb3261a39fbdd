import LineAtlas.LineSection.Frame
import LineAtlas.Proofs.Locality

namespace LineAtlas.Framing

/-!
# The shape of a section

The length fields alone say how a section is cut into units. `Shape` lists the
five ways in which a run of bytes can go on from the start of a unit, and every
run of bytes has such a shape. For each way there is an equation for `ofCursor`,
so that statements about sections are proved by induction on the shape.
-/

/-- A length field that announces `length` bytes, and no unit with 64-bit lengths. -/
structure Announces
    (order : ByteOrder)
    (field : Bytes)
    (length : Nat) :
    Prop where
  size : field.length = 4
  number : order.number field = length
  narrow : length ≠ wideMark.toNat

/-- An announced length fits into the field that it is read from. -/
theorem Announces.toNat_ofNat
    {order : ByteOrder}
    {field : Bytes}
    {length : Nat}
    (announced : Announces order field length) :
    (UInt32.ofNat length).toNat = length := by
  have bound := order.number_lt field
  rw [announced.size, announced.number] at bound
  simpa using Nat.mod_eq_of_lt (show length < 2 ^ 32 by omega)

/-- A run of bytes starts with at most one length field. -/
theorem Announces.unique
    {order : ByteOrder}
    {field tail other otherTail : Bytes}
    {length otherLength : Nat}
    (announced : Announces order field length)
    (otherAnnounced : Announces order other otherLength)
    (same : other ++ otherTail = field ++ tail) :
    other = field ∧ otherTail = tail ∧ otherLength = length := by
  obtain ⟨rfl, rfl⟩ := List.append_inj same (otherAnnounced.size.trans announced.size.symm)
  exact ⟨rfl, rfl, otherAnnounced.number.symm.trans announced.number⟩

/-- A unit stands at the start of some bytes: what it claims, and what there is of its body. -/
def StartsUnit
    (order : ByteOrder)
    (bytes : Bytes)
    (claimed : Nat)
    (body : Bytes) :
    Prop :=
  ∃ field tail,
    bytes = field ++ tail ∧
      Announces order field claimed ∧
      body = tail.take claimed

namespace StartsUnit

variable
  {order : ByteOrder}
  {bytes body : Bytes}
  {claimed : Nat}

/-- At most one unit stands at the start of some bytes. -/
theorem unique
    {other : Nat}
    {otherBody : Bytes}
    (starts : StartsUnit order bytes claimed body)
    (otherStarts : StartsUnit order bytes other otherBody) :
    other = claimed ∧ otherBody = body := by
  obtain ⟨field, tail, rfl, announced, rfl⟩ := starts
  obtain ⟨otherField, otherTail, split, otherAnnounced, rfl⟩ := otherStarts
  obtain ⟨rfl, rfl, rfl⟩ := announced.unique otherAnnounced split.symm
  exact ⟨rfl, rfl⟩

theorem toNat_ofNat
    (starts : StartsUnit order bytes claimed body) :
    (UInt32.ofNat claimed).toNat = claimed := by
  obtain ⟨field, tail, rfl, announced, rfl⟩ := starts
  exact announced.toNat_ofNat

/-- A unit has no more bytes than a length field can announce. -/
theorem length_lt
    (starts : StartsUnit order bytes claimed body) :
    body.length < 2 ^ 32 := by
  have announced := starts.toNat_ofNat
  have bound := (UInt32.ofNat claimed).toNat_lt
  obtain ⟨field, tail, rfl, -, rfl⟩ := starts
  rw [List.length_take]
  omega

/-- The body of a unit is shorter than the bytes at whose start the unit stands. -/
theorem length_le
    (starts : StartsUnit order bytes claimed body) :
    body.length + 4 ≤ bytes.length := by
  obtain ⟨field, tail, rfl, announced, rfl⟩ := starts
  have size := announced.size
  rw [List.length_append, List.length_take]
  omega

end StartsUnit

/-- How a run of bytes goes on from the start of a unit. -/
inductive Shape (order : ByteOrder) : Bytes → Prop where
  /-- The section ends. -/
  | finished : Shape order []
  /-- The section ends in a length field. -/
  | cutField
      {bytes : Bytes}
      (nonempty : bytes ≠ [])
      (short : bytes.length < 4) :
      Shape order bytes
  /-- The length field announces a unit with 64-bit lengths. -/
  | wide
      {field tail : Bytes}
      (size : field.length = 4)
      (marked : order.number field = wideMark.toNat) :
      Shape order (field ++ tail)
  /-- The section ends in a unit. -/
  | cutUnit
      {field body : Bytes}
      {claimed : Nat}
      (announced : Announces order field claimed)
      (short : body.length < claimed) :
      Shape order (field ++ body)
  /-- A whole unit, and what comes after it. -/
  | unit
      {field body rest : Bytes}
      (announced : Announces order field body.length)
      (later : Shape order rest) :
      Shape order (field ++ body ++ rest)

/-- Every run of bytes has a shape. -/
theorem shape
    (order : ByteOrder)
    (bytes : Bytes) :
    Shape order bytes := by
  induction length : bytes.length using Nat.strongRecOn generalizing bytes with
  | ind _ inductionHypothesis =>
      subst length
      by_cases empty : bytes = []
      · exact empty ▸ .finished
      by_cases short : bytes.length < 4
      · exact .cutField empty short
      obtain ⟨field, tail, rfl, size⟩ := exists_append_of_le (Nat.le_of_not_lt short)
      by_cases marked : order.number field = wideMark.toNat
      · exact .wide size marked
      by_cases cut : tail.length < order.number field
      · exact .cutUnit { size := size, number := rfl, narrow := marked } cut
      obtain ⟨body, rest, rfl, length⟩ := exists_append_of_le (Nat.le_of_not_lt cut)
      have fewer : rest.length < (field ++ (body ++ rest)).length := by
        simp only [List.length_append]
        omega
      rw [← List.append_assoc]
      exact .unit
        { size := size, number := length.symm, narrow := length ▸ marked }
        (inductionHypothesis rest.length fewer rest rfl)

/-- A run of bytes that is cut into whole units. -/
inductive Framed (order : ByteOrder) : Bytes → Prop where
  | nil : Framed order []
  | cons
      {field body rest : Bytes}
      (announced : Announces order field body.length)
      (later : Framed order rest) :
      Framed order (field ++ body ++ rest)

/-! ## One equation for each way to go on -/

variable {cursor : Cursor}

theorem ofCursor_finished
    (split : cursor.rest = []) :
    ofCursor cursor = { frames := [], stopped := none } := by
  rw [ofCursor, if_pos (Cursor.atEnd_iff.mpr split)]

/-- The warning for a length field that is not complete. -/
def cutFieldWarning (offset size : Nat) : Warning :=
  .ofError lineSectionName offset .truncatedSection (.truncated (offset + 4) size "u32")

/-- The warning for a unit with 64-bit lengths. -/
def wideWarning (offset : Nat) : Warning where
  sectionName := lineSectionName
  offset := offset
  kind := .malformedHeader
  cause := .wideUnit

/-- A length field that is not complete cannot be read. -/
theorem uint32_of_short
    (room : cursor.size + 4 ≤ addressLimit)
    (nonempty : cursor.rest ≠ [])
    (short : cursor.rest.length < 4) :
    Reader.uint32 cursor =
      .error (.truncated (cursor.position + 4) cursor.size "u32") cursor := by
  have inside := Reader.position_lt_size_of_rest_ne_nil nonempty
  rw [Cursor.length_rest, Cursor.remaining] at short
  have look :
      cursor.bytesAt "u32" cursor.position 4 =
        .error (.truncated (cursor.position + 4) cursor.size "u32") := by
    rw [Cursor.bytesAt, if_neg (by omega), if_pos (by omega)]
  simp [Reader.uint32, Reader.consuming, Cursor.uint32At, Cursor.numberAt, look, Except.map]

theorem ofCursor_cutField
    (room : cursor.size + 4 ≤ addressLimit)
    (nonempty : cursor.rest ≠ [])
    (short : cursor.rest.length < 4) :
    ofCursor cursor =
      { frames := [], stopped := some (cutFieldWarning cursor.position cursor.size) } := by
  have failed := uint32_of_short room nonempty short
  rw [ofCursor, if_neg (by simpa [Cursor.atEnd_iff] using nonempty)]
  split <;> simp_all [cutFieldWarning]

/-- A complete length field is read. -/
theorem uint32_of_rest
    {field tail : Bytes}
    (placed : cursor.Placed)
    (split : cursor.rest = field ++ tail)
    (size : field.length = 4) :
    Reader.uint32 cursor =
      .ok (UInt32.ofNat (cursor.order.number field)) (cursor.advance field.length) :=
  Reader.reads_field cursor.order size "u32" UInt32.ofNat cursor tail placed rfl split

/-- A length field that is read is the number of the bytes that are left. -/
theorem exists_rest_of_uint32
    {claimed : UInt32}
    {body : Cursor}
    (read : Reader.uint32 cursor = .ok claimed body) :
    ∃ field,
      cursor.rest = field ++ body.rest ∧
        field.length = 4 ∧
        cursor.order.number field = claimed.toNat := by
  obtain ⟨field, tail, split, size, rfl, rfl⟩ := Reader.exists_rest_of_field read
  have bound := cursor.order.number_lt field
  rw [size] at bound
  refine ⟨field, ?_, size, ?_⟩
  · rw [← size, Cursor.rest_advance split]
    exact split
  · exact (Nat.mod_eq_of_lt bound).symm

/-- What is read as a length, and is no mark, announces a unit. -/
theorem startsUnit_of_uint32
    {claimed : UInt32}
    {body : Cursor}
    (read : Reader.uint32 cursor = .ok claimed body)
    (narrow : claimed ≠ wideMark) :
    StartsUnit cursor.order cursor.rest claimed.toNat (body.rest.take claimed.toNat) := by
  obtain ⟨field, split, size, number⟩ := exists_rest_of_uint32 read
  exact ⟨field, body.rest, split,
    { size := size, number := number, narrow := mt UInt32.toNat_inj.mp narrow }, rfl⟩

/-- Where the mark of 64-bit lengths is read, no unit stands. -/
theorem not_startsUnit_of_uint32
    {body : Cursor}
    (read : Reader.uint32 cursor = .ok wideMark body)
    (claimed : Nat)
    (other : Bytes) :
    ¬ StartsUnit cursor.order cursor.rest claimed other := by
  rintro ⟨otherField, tail, otherSplit, announced, -⟩
  obtain ⟨field, split, size, marked⟩ := exists_rest_of_uint32 read
  obtain ⟨rfl, -⟩ :=
    List.append_inj (split.symm.trans otherSplit) (size.trans announced.size.symm)
  exact announced.narrow (announced.number.symm.trans marked)

theorem ne_nil_of_field
    {field tail : Bytes}
    (size : field.length = 4) :
    field ++ tail ≠ [] := by
  rintro empty
  simp_all

theorem ofCursor_wide
    {field tail : Bytes}
    (placed : cursor.Placed)
    (split : cursor.rest = field ++ tail)
    (size : field.length = 4)
    (marked : cursor.order.number field = wideMark.toNat) :
    ofCursor cursor = { frames := [], stopped := some (wideWarning cursor.position) } := by
  have read := uint32_of_rest placed split size
  rw [marked, UInt32.ofNat_toNat] at read
  have started : ¬ cursor.atEnd = true := by
    rw [Cursor.atEnd_iff, split]
    exact ne_nil_of_field size
  rw [ofCursor, if_neg started]
  split <;> simp_all [wideWarning]

/-- After a length field comes the frame that it cuts out, and then the rest of the section. -/
theorem ofCursor_frame
    {field tail : Bytes}
    {claimed : Nat}
    (placed : cursor.Placed)
    (split : cursor.rest = field ++ tail)
    (announced : Announces cursor.order field claimed) :
    ofCursor cursor =
      { frames :=
          { offset := cursor.position
            claimed := UInt32.ofNat claimed
            body := tail.take claimed } ::
          (ofCursor (cursor.advance (field.length + (tail.take claimed).length))).frames
        stopped :=
          (ofCursor (cursor.advance (field.length + (tail.take claimed).length))).stopped } := by
  have sameNumber := announced.toNat_ofNat
  have narrow : UInt32.ofNat claimed ≠ wideMark := by
    intro marked
    exact announced.narrow (by rw [← marked, sameNumber])
  have read := uint32_of_rest placed split announced.size
  rw [announced.number] at read
  have started : ¬ cursor.atEnd = true := by
    rw [Cursor.atEnd_iff, split]
    exact ne_nil_of_field announced.size
  have frame :
      frameAt cursor.position (UInt32.ofNat claimed) (cursor.advance field.length) =
        { offset := cursor.position
          claimed := UInt32.ofNat claimed
          body := tail.take claimed } := by
    rw [frameAt, Cursor.rest_advance split, sameNumber]
  rw [ofCursor, if_neg started]
  split
  · simp_all
  · next found body outcome =>
      rw [read] at outcome
      cases outcome
      rw [if_neg narrow]
      simp only [frame, Cursor.advance_advance]

/-- A whole unit gives a frame that holds its bytes. -/
theorem ofCursor_unit
    {field body rest : Bytes}
    (placed : cursor.Placed)
    (split : cursor.rest = field ++ body ++ rest)
    (announced : Announces cursor.order field body.length) :
    ofCursor cursor =
      { frames :=
          { offset := cursor.position
            claimed := UInt32.ofNat body.length
            body := body } ::
          (ofCursor (cursor.advance (field ++ body).length)).frames
        stopped := (ofCursor (cursor.advance (field ++ body).length)).stopped } := by
  rw [List.append_assoc] at split
  have found := ofCursor_frame placed split announced
  rwa [List.take_left, ← List.length_append] at found

/-- The unit that the section ends in gives a frame that holds what there is of it. -/
theorem ofCursor_cutUnit
    {field body : Bytes}
    {claimed : Nat}
    (placed : cursor.Placed)
    (split : cursor.rest = field ++ body)
    (announced : Announces cursor.order field claimed)
    (short : body.length < claimed) :
    ofCursor cursor =
      { frames :=
          [{ offset := cursor.position
             claimed := UInt32.ofNat claimed
             body := body }]
        stopped := none } := by
  have found := ofCursor_frame placed split announced
  have last : (cursor.advance (field.length + body.length)).rest = [] := by
    rw [← List.length_append]
    exact Cursor.rest_advance (by rw [split, List.append_nil])
  rwa [List.take_of_length_le (by omega), ofCursor_finished last] at found

end LineAtlas.Framing
