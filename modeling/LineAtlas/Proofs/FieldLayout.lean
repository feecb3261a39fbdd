import LineAtlas.Proofs.Cursors.Requests
import LineAtlas.Proofs.Failures

namespace LineAtlas

/-!
# Fields that lie one after the other

A layout is a list of fields of fixed width, each with a check of the number in it.
`Cursor.firstFault?` goes through the fields in their order, and gives what is wrong with the
first one that the data is too short for or that its check refuses. A reader that `Follows`
a layout takes all of its fields where none is at fault, and fails with the first fault
otherwise.
-/

/-- A field of a layout. -/
structure LayoutField where
  width : FieldWidth
  /-- What is wrong with a number in a field that ends at the given position. -/
  refusal? (stop number : Nat) : Option ReadError

namespace LayoutField

/-- A field in which every number is allowed. -/
def any (width : FieldWidth) : LayoutField where
  width := width
  refusal? _ _ := none

variable
  (field : LayoutField)
  (cursor : Cursor)

/-- The position behind a field that starts at the cursor. -/
def stop : Nat :=
  cursor.position + field.width.size

/-- What the check says of the number that starts at the cursor. -/
def refusalAt? : Option ReadError :=
  field.refusal? (field.stop cursor) (cursor.order.number (cursor.rest.take field.width.size))

/-- What is wrong with a field that starts at the cursor. -/
def fault? : Option ReadError :=
  if cursor.size < field.stop cursor then
    some (.truncated (field.stop cursor) cursor.size field.width.subject)
  else
    field.refusalAt? cursor

@[simp] theorem width_any (width : FieldWidth) : (any width).width = width :=
  rfl

@[simp] theorem refusalAt?_any (width : FieldWidth) : (any width).refusalAt? cursor = none :=
  rfl

/-- The count of bytes of a layout. -/
def extent (fields : List LayoutField) : Nat :=
  (fields.map (·.width.size)).sum

@[simp] theorem extent_nil : extent [] = 0 :=
  rfl

@[simp] theorem extent_cons
    (later : List LayoutField) :
    extent (field :: later) = field.width.size + extent later := by
  simp [extent]

@[simp] theorem extent_append
    (near far : List LayoutField) :
    extent (near ++ far) = extent near + extent far := by
  simp [extent]

@[simp] theorem extent_replicate (count : Nat) :
    extent (List.replicate count field) = count * field.width.size := by
  simp [extent]

variable {field cursor}

/-- A field is sound if it lies inside the data and its check does not refuse it. -/
theorem fault?_eq_none_iff :
    field.fault? cursor = none ↔
      field.stop cursor ≤ cursor.size ∧ field.refusalAt? cursor = none := by
  unfold fault?
  split
  · next short =>
      simp [Nat.not_le_of_lt short]
  · next present =>
      simp [Nat.le_of_not_lt present]

/-- A field that cannot be read at all is at fault for the same cause with every check. -/
theorem fault?_of_any
    {cause : ReadError}
    (faulty : (any field.width).fault? cursor = some cause) :
    field.fault? cursor = some cause := by
  unfold fault? at faulty
  split at faulty
  · next short =>
      exact (if_pos short).trans faulty
  · cases faulty

end LayoutField

namespace Cursor

open LayoutField

/-- The bytes that are left further on. -/
theorem rest_advance_eq_drop
    (cursor : Cursor)
    (count : Nat) :
    (cursor.advance count).rest = cursor.rest.drop count := by
  simp [rest, advance, List.drop_drop]

/-- The number of a single byte further on. -/
theorem number_byte
    (cursor : Cursor)
    (place : Nat) :
    cursor.order.number ((cursor.advance place).rest.take 1) =
      (cursor.rest.getD place 0).toNat := by
  rw [rest_advance_eq_drop, List.getD_eq_getElem?_getD, ← List.head?_drop]
  cases cursor.rest.drop place with
  | nil =>
      cases cursor.order <;> rfl
  | cons byte tail =>
      cases cursor.order <;> simp [ByteOrder.number, littleNumber]

/-- The fault of the first field that has one; each field starts where the one before it ends. -/
def firstFault? (cursor : Cursor) : List LayoutField → Option ReadError
  | [] => none
  | field :: later => (field.fault? cursor).or ((cursor.advance field.width.size).firstFault? later)

variable {cursor : Cursor} {near far : List LayoutField}

theorem firstFault?_singleton
    {field : LayoutField} :
    cursor.firstFault? [field] = field.fault? cursor :=
  Option.or_none

theorem firstFault?_append :
    cursor.firstFault? (near ++ far) =
      (cursor.firstFault? near).or ((cursor.advance (extent near)).firstFault? far) := by
  induction near generalizing cursor with
  | nil =>
      rfl
  | cons field later inductionHypothesis =>
      simp only [List.cons_append, firstFault?, inductionHypothesis, Option.or_assoc,
        advance_advance, extent_cons]

/-- There is no fault where all fields are sound. -/
theorem firstFault?_cons_eq_none_iff
    {field : LayoutField} :
    cursor.firstFault? (field :: near) = none ↔
      (field.stop cursor ≤ cursor.size ∧ field.refusalAt? cursor = none) ∧
        (cursor.advance field.width.size).firstFault? near = none := by
  rw [firstFault?, Option.or_eq_none_iff, fault?_eq_none_iff]

theorem firstFault?_append_eq_none_iff :
    cursor.firstFault? (near ++ far) = none ↔
      cursor.firstFault? near = none ∧
        (cursor.advance (extent near)).firstFault? far = none := by
  rw [firstFault?_append, Option.or_eq_none_iff]

/-- No check of a layout refuses its number. -/
def Passes (cursor : Cursor) : List LayoutField → Prop
  | [] => True
  | field :: later =>
      field.refusalAt? cursor = none ∧ (cursor.advance field.width.size).Passes later

@[simp] theorem passes_append :
    cursor.Passes (near ++ far) ↔
      cursor.Passes near ∧ (cursor.advance (extent near)).Passes far := by
  induction near generalizing cursor with
  | nil =>
      simp [Passes, advance]
  | cons field later inductionHypothesis =>
      simp only [List.cons_append, Passes, inductionHypothesis, advance_advance, extent_cons,
        and_assoc]

@[simp] theorem passes_replicate_any
    {width : FieldWidth}
    {count : Nat} :
    cursor.Passes (.replicate count (.any width)) := by
  induction count generalizing cursor with
  | zero =>
      trivial
  | succ count inductionHypothesis =>
      exact ⟨rfl, inductionHypothesis⟩

/-- A layout is without a fault if it lies inside the data and its checks refuse nothing. -/
theorem firstFault?_eq_none_iff
    {fields : List LayoutField}
    (inside : cursor.position ≤ cursor.size) :
    cursor.firstFault? fields = none ↔
      cursor.position + extent fields ≤ cursor.size ∧ cursor.Passes fields := by
  induction fields generalizing cursor with
  | nil =>
      simpa [firstFault?, Passes] using inside
  | cons field later inductionHypothesis =>
      have next : (cursor.advance field.width.size).position = field.stop cursor :=
        rfl
      have sameSize : (cursor.advance field.width.size).size = cursor.size :=
        rfl
      have total : cursor.position + extent (field :: later) = field.stop cursor + extent later := by
        rw [extent_cons, LayoutField.stop, Nat.add_assoc]
      rw [firstFault?_cons_eq_none_iff, total, Passes]
      constructor
      · rintro ⟨⟨fieldInside, fieldPasses⟩, laterSound⟩
        obtain ⟨laterInside, laterPass⟩ := (inductionHypothesis fieldInside).mp laterSound
        exact ⟨laterInside, fieldPasses, laterPass⟩
      · rintro ⟨allInside, fieldPasses, laterPass⟩
        have fieldInside : field.stop cursor ≤ cursor.size :=
          Nat.le_of_add_right_le allInside
        exact ⟨⟨fieldInside, fieldPasses⟩,
          (inductionHypothesis fieldInside).mpr ⟨allInside, laterPass⟩⟩

/-- Moving on inside the data keeps the room. -/
theorem Roomy.advance
    {count : Nat}
    (roomy : cursor.Roomy)
    (inside : cursor.position + count ≤ cursor.size) :
    (cursor.advance count).Roomy where
  position_le := inside
  size_lt := roomy.size_lt
  room := roomy.room

end Cursor

namespace Reader

open LayoutField

variable {α β : Type}

/--
Where no field is at fault the reader takes all fields, and otherwise it fails with the first
fault.
-/
structure Follows
    (reader : Reader α)
    (cursor : Cursor)
    (fields : List LayoutField) :
    Prop where
  found :
    ∀ value after,
      reader cursor = .ok value after →
      cursor.firstFault? fields = none ∧ after = cursor.advance (extent fields)
  failed :
    ∀ cause stopped,
      reader cursor = .error cause stopped →
      cursor.firstFault? fields = some cause

variable
  {reader : Reader α}
  {cursor : Cursor}
  {fields near far : List LayoutField}

namespace Follows

/-- A reader succeeds exactly where no field of its layout is at fault. -/
theorem exists_eq_ok_iff (follows : reader.Follows cursor fields) :
    (∃ value after, reader cursor = .ok value after) ↔ cursor.firstFault? fields = none := by
  constructor
  · rintro ⟨value, after, success⟩
    exact (follows.found value after success).1
  · intro sound
    cases outcome : reader cursor with
    | ok value after =>
        exact ⟨value, after, rfl⟩
    | error cause stopped =>
        rw [follows.failed cause stopped outcome] at sound
        cases sound

/-- A reader fails exactly with the first fault of its layout. -/
theorem exists_eq_error_iff
    {cause : ReadError}
    (follows : reader.Follows cursor fields) :
    (∃ stopped, reader cursor = .error cause stopped) ↔
      cursor.firstFault? fields = some cause := by
  constructor
  · rintro ⟨stopped, failure⟩
    exact follows.failed cause stopped failure
  · intro faulty
    cases outcome : reader cursor with
    | ok value after =>
        rw [(follows.found value after outcome).1] at faulty
        cases faulty
    | error other stopped =>
        rw [follows.failed other stopped outcome] at faulty
        cases faulty
        exact ⟨stopped, rfl⟩

/-- The layout of readers in a row is the one of the first, and then the one of the second. -/
theorem bind
    {first : Reader α}
    {next : α → Reader β}
    (roomy : cursor.Roomy)
    (firstFollows : first.Follows cursor near)
    (nextFollows :
      ∀ value,
        first cursor = .ok value (cursor.advance (extent near)) →
        (cursor.advance (extent near)).Roomy →
        (next value).Follows (cursor.advance (extent near)) far) :
    (first >>= next).Follows cursor (near ++ far) where
  found value after success := by
    obtain ⟨passed, between, firstRead, nextRead⟩ := bind_eq_ok_iff.mp success
    obtain ⟨nearSound, rfl⟩ := firstFollows.found passed between firstRead
    have inside := ((Cursor.firstFault?_eq_none_iff roomy.position_le).mp nearSound).1
    obtain ⟨farSound, rfl⟩ :=
      (nextFollows passed firstRead (roomy.advance inside)).found value after nextRead
    rw [extent_append, Cursor.advance_advance]
    exact ⟨Cursor.firstFault?_append_eq_none_iff.mpr ⟨nearSound, farSound⟩, rfl⟩
  failed cause stopped failure := by
    rw [Cursor.firstFault?_append]
    rcases bind_eq_error_iff.mp failure with firstFails | ⟨passed, between, firstRead, nextFails⟩
    · rw [firstFollows.failed cause stopped firstFails]
      rfl
    · obtain ⟨nearSound, rfl⟩ := firstFollows.found passed between firstRead
      have inside := ((Cursor.firstFault?_eq_none_iff roomy.position_le).mp nearSound).1
      rw [nearSound,
        (nextFollows passed firstRead (roomy.advance inside)).failed cause stopped nextFails]
      rfl

/-- What is built from what was read has the same layout. -/
theorem bind_pure
    (follows : reader.Follows cursor fields)
    (build : α → β) :
    (reader >>= fun value => pure (build value)).Follows cursor fields where
  found value after success := by
    obtain ⟨passed, between, read, built⟩ := bind_eq_ok_iff.mp success
    cases built
    exact follows.found passed after read
  failed cause stopped failure := by
    rcases bind_eq_error_iff.mp failure with fails | ⟨passed, between, read, built⟩
    · exact follows.failed cause stopped fails
    · cases built

/-- A check after a field makes it a field with that check. -/
theorem refuse
    {first : Reader α}
    {next : α → Reader β}
    {field : LayoutField}
    (firstFollows : first.Follows cursor [.any field.width])
    (accepts :
      ∀ passed between value after,
        first cursor = .ok passed between →
        next passed between = .ok value after →
        field.refusalAt? cursor = none ∧ after = between)
    (refuses :
      ∀ passed between cause stopped,
        first cursor = .ok passed between →
        next passed between = .error cause stopped →
        field.refusalAt? cursor = some cause) :
    (first >>= next).Follows cursor [field] where
  found value after success := by
    obtain ⟨passed, between, firstRead, nextRead⟩ := bind_eq_ok_iff.mp success
    obtain ⟨sound, rfl⟩ := firstFollows.found passed between firstRead
    obtain ⟨⟨inside, -⟩, -⟩ := Cursor.firstFault?_cons_eq_none_iff.mp sound
    obtain ⟨accepted, rfl⟩ := accepts passed _ value after firstRead nextRead
    exact ⟨Cursor.firstFault?_cons_eq_none_iff.mpr ⟨⟨inside, accepted⟩, rfl⟩, rfl⟩
  failed cause stopped failure := by
    rcases bind_eq_error_iff.mp failure with firstFails | ⟨passed, between, firstRead, nextFails⟩
    · have faulty := firstFollows.failed cause stopped firstFails
      rw [Cursor.firstFault?_singleton] at faulty ⊢
      exact fault?_of_any faulty
    · obtain ⟨sound, rfl⟩ := firstFollows.found passed between firstRead
      obtain ⟨⟨inside, -⟩, -⟩ := Cursor.firstFault?_cons_eq_none_iff.mp sound
      have present : ¬ cursor.size < field.stop cursor :=
        Nat.not_lt_of_le inside
      rw [Cursor.firstFault?_singleton, fault?, if_neg present]
      exact refuses passed _ cause stopped firstRead nextFails

end Follows

theorem follows_pure (value : α) : (pure value : Reader α).Follows cursor [] where
  found other after success := by
    cases success
    exact ⟨rfl, rfl⟩
  failed cause stopped failure := by
    cases failure

/-! ## Fields -/

/-- A field is read where the data is long enough for it. -/
theorem follows_field
    (roomy : cursor.Roomy)
    (width : FieldWidth)
    (narrow : width.size ≤ 4)
    (ofNumber : Nat → α) :
    (consuming fun cursor =>
        ((cursor.numberAt width.subject width.size cursor.position).map ofNumber).map
          (·, width.size)).Follows cursor [.any width] where
  found value after success := by
    obtain ⟨used, tail, split, size, -, rfl⟩ := exists_rest_of_field success
    have inside := Cursor.end_le_size_of_split roomy.position_le split
    rw [size] at inside
    exact ⟨Cursor.firstFault?_cons_eq_none_iff.mpr ⟨⟨inside, rfl⟩, rfl⟩, rfl⟩
  failed cause stopped failure := by
    have missed := map_eq_error_iff.mp (map_eq_error_iff.mp (look_of_consuming_eq_error failure))
    have inRange : ¬ addressLimit ≤ cursor.position + width.size := by
      have := roomy.position_le
      have := roomy.room
      omega
    rw [Cursor.numberAt, map_eq_error_iff, Cursor.bytesAt, if_neg inRange] at missed
    split at missed
    · next short =>
        cases missed
        rw [Cursor.firstFault?_singleton]
        exact if_pos short
    · cases missed

theorem follows_uint8 (roomy : cursor.Roomy) : uint8.Follows cursor [.any .one] :=
  follows_field roomy .one (by decide) UInt8.ofNat

theorem follows_uint16 (roomy : cursor.Roomy) : uint16.Follows cursor [.any .two] :=
  follows_field roomy .two (by decide) UInt16.ofNat

theorem follows_uint32 (roomy : cursor.Roomy) : uint32.Follows cursor [.any .four] :=
  follows_field roomy .four (by decide) UInt32.ofNat

/-- A list of bytes is laid out as so many bytes. -/
theorem follows_times_uint8
    (roomy : cursor.Roomy)
    (count : Nat) :
    (uint8.times count).Follows cursor (.replicate count (.any .one)) := by
  induction count generalizing cursor with
  | zero =>
      exact follows_pure []
  | succ count inductionHypothesis =>
      exact (follows_uint8 roomy).bind roomy fun first _ afterFirst =>
        (inductionHypothesis afterFirst).bind_pure (first :: ·)

/-- A field that is read holds the number of the bytes at the cursor. -/
theorem number_of_field
    {subject : String}
    {width : Nat}
    {ofNumber : Nat → α}
    {toNumber : α → Nat}
    (exact : ∀ number < 256 ^ width, toNumber (ofNumber number) = number)
    {after : Cursor}
    {value : α}
    (success :
      consuming (fun cursor =>
          ((cursor.numberAt subject width cursor.position).map ofNumber).map (·, width)) cursor =
        .ok value after) :
    cursor.order.number (cursor.rest.take width) = toNumber value := by
  obtain ⟨used, tail, split, rfl, rfl, -⟩ := exists_rest_of_field success
  rw [split, List.take_left, exact _ (cursor.order.number_lt used)]

theorem number_of_uint8
    {byte : UInt8}
    {after : Cursor}
    (success : uint8 cursor = .ok byte after) :
    cursor.order.number (cursor.rest.take 1) = byte.toNat :=
  number_of_field (fun _ => UInt8.toNat_ofNat_of_lt') success

theorem number_of_uint16
    {value : UInt16}
    {after : Cursor}
    (success : uint16 cursor = .ok value after) :
    cursor.order.number (cursor.rest.take 2) = value.toNat :=
  number_of_field (fun _ => UInt16.toNat_ofNat_of_lt') success

/-- A byte that is read is the one at its place, counted from an earlier cursor. -/
theorem getD_of_uint8
    {place : Nat}
    {byte : UInt8}
    {after : Cursor}
    (success : uint8 (cursor.advance place) = .ok byte after) :
    cursor.rest.getD place 0 = byte := by
  obtain ⟨split, -⟩ := split_of_uint8 success
  rw [Cursor.rest_advance_eq_drop] at split
  have head := congrArg (·[0]?) split
  simp only [List.getElem?_drop, Nat.add_zero, List.getElem?_cons_zero] at head
  rw [List.getD_eq_getElem?_getD, head, Option.getD_some]

/-- Bytes that are read one after the other are those that were left. -/
theorem split_of_times_uint8
    {count : Nat}
    {values : Bytes}
    {after : Cursor}
    (success : uint8.times count cursor = .ok values after) :
    cursor.rest = values ++ after.rest ∧ values.length = count := by
  induction count generalizing cursor values with
  | zero =>
      cases success
      exact ⟨rfl, rfl⟩
  | succ count inductionHypothesis =>
      obtain ⟨first, between, firstRead, laterAndReturn⟩ := bind_eq_ok_iff.mp success
      obtain ⟨later, last, laterRead, returned⟩ := bind_eq_ok_iff.mp laterAndReturn
      cases returned
      obtain ⟨firstSplit, -⟩ := split_of_uint8 firstRead
      obtain ⟨laterSplit, counted⟩ := inductionHypothesis laterRead
      rw [firstSplit, laterSplit, List.length_cons, counted]
      exact ⟨rfl, rfl⟩

end Reader

end LineAtlas
