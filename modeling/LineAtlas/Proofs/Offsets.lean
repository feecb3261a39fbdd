import LineAtlas.Proofs.Locality

namespace LineAtlas

/-!
# Bytes at offsets

Range sets and object files are read by offset, and not from where a cursor stands.
`Holds` says which bytes stand at an offset. A field of fixed width can be read at an
offset exactly if the data holds the bytes there that the field is written with, so
reading by offset is a matter of the bytes alone.
-/

/-- Two looks in a row succeed exactly when both do. -/
theorem lookBind_eq_ok_iff
    {ε α β : Type}
    {first : Except ε α}
    {next : α → Except ε β}
    {value : β} :
    first >>= next = .ok value ↔ ∃ found, first = .ok found ∧ next found = .ok value := by
  cases first with
  | error cause =>
      constructor
      · intro success
        cases success
      · rintro ⟨_, same, -⟩
        cases same
  | ok found =>
      constructor
      · intro success
        exact ⟨found, rfl, success⟩
      · rintro ⟨_, same, success⟩
        cases same
        exact success

/-- Two looks in a row fail exactly when the first does, or it succeeds and the second fails. -/
theorem lookBind_eq_error_iff
    {ε α β : Type}
    {first : Except ε α}
    {next : α → Except ε β}
    {cause : ε} :
    first >>= next = .error cause ↔
      first = .error cause ∨ ∃ found, first = .ok found ∧ next found = .error cause := by
  cases first with
  | error other =>
      constructor
      · intro failure
        cases failure
        exact .inl rfl
      · rintro (same | ⟨_, same, -⟩)
        · cases same
          rfl
        · cases same
  | ok found =>
      constructor
      · intro failure
        exact .inr ⟨found, rfl, failure⟩
      · rintro (same | ⟨_, same, failure⟩)
        · cases same
        · cases same
          exact failure

namespace Cursor

/-- The data holds the bytes at the offset. -/
def Holds
    (cursor : Cursor)
    (offset : Nat)
    (bytes : Bytes) :
    Prop :=
  bytes <+: cursor.data.drop offset

variable
  {cursor : Cursor}
  {offset : Nat}
  {bytes : Bytes}

/-- One run of bytes after another stands where the first one ends. -/
theorem holds_append
    {near far : Bytes} :
    cursor.Holds offset (near ++ far) ↔
      cursor.Holds offset near ∧ cursor.Holds (offset + near.length) far := by
  constructor
  · rintro ⟨tail, split⟩
    rw [List.append_assoc] at split
    refine ⟨⟨far ++ tail, split⟩, ⟨tail, ?_⟩⟩
    rw [← List.drop_drop, ← split, List.drop_left]
  · rintro ⟨⟨rest, split⟩, ⟨tail, laterSplit⟩⟩
    rw [← List.drop_drop, ← split, List.drop_left] at laterSplit
    exact ⟨tail, by rw [List.append_assoc, laterSplit, split]⟩

theorem holds_nil : cursor.Holds offset [] :=
  List.nil_prefix

/-- Bytes at an offset end inside the data, if there are any. -/
theorem Holds.le_size
    (held : cursor.Holds offset bytes)
    (nonempty : bytes ≠ []) :
    offset + bytes.length ≤ cursor.size := by
  have short := held.length_le
  have some := List.length_pos_iff.mpr nonempty
  rw [List.length_drop] at short
  rw [size]
  omega

/-- The data holds as many bytes as there are before its end. -/
theorem exists_holds
    {stop : Nat}
    (forward : offset ≤ stop)
    (inside : stop ≤ cursor.size) :
    ∃ bytes, cursor.Holds offset bytes ∧ offset + bytes.length = stop := by
  refine ⟨(cursor.data.drop offset).take (stop - offset), List.take_prefix _ _, ?_⟩
  rw [size] at inside
  rw [List.length_take, List.length_drop]
  omega

/-! ## Fields -/

/-- Whatever bytes stand where a field fits are the field of a number. -/
theorem exists_field
    {width : Nat}
    (inside : offset + width ≤ cursor.size) :
    ∃ number < 256 ^ width, cursor.Holds offset (cursor.order.field width number) := by
  obtain ⟨found, held, stop⟩ := exists_holds (Nat.le_add_right offset width) inside
  obtain rfl : found.length = width := Nat.add_left_cancel stop
  exact ⟨_, cursor.order.number_lt found, by rwa [cursor.order.field_number]⟩

/-- Bytes that can be looked at stand at the offset. -/
theorem holds_of_bytesAt
    {subject : String}
    {count : Nat}
    (look : cursor.bytesAt subject offset count = .ok bytes) :
    cursor.Holds offset bytes ∧ bytes.length = count := by
  obtain ⟨tail, split, length⟩ := Reader.exists_drop_of_bytesAt look
  exact ⟨⟨tail, split.symm⟩, length⟩

/-- A look succeeds where the data holds as many bytes, and finds these. -/
theorem bytesAt_eq_ok_iff
    {subject : String}
    {count : Nat}
    (fits : cursor.size < addressLimit)
    (wide : 0 < count) :
    cursor.bytesAt subject offset count = .ok bytes ↔
      cursor.Holds offset bytes ∧ bytes.length = count := by
  constructor
  · exact holds_of_bytesAt
  · rintro ⟨held, rfl⟩
    have inside := held.le_size (List.length_pos_iff.mp wide)
    rw [bytesAt, if_neg (by omega), if_neg (by omega), ← List.prefix_iff_eq_take.mp held]

/-- A number is read where its field stands. -/
theorem numberAt_eq_ok_iff
    {subject : String}
    {width number : Nat}
    (fits : cursor.size < addressLimit)
    (wide : 0 < width) :
    cursor.numberAt subject width offset = .ok number ↔
      number < 256 ^ width ∧ cursor.Holds offset (cursor.order.field width number) := by
  rw [numberAt, Reader.map_eq_ok_iff]
  constructor
  · rintro ⟨field, look, rfl⟩
    obtain ⟨held, rfl⟩ := (bytesAt_eq_ok_iff fits wide).mp look
    exact ⟨cursor.order.number_lt field, by rwa [cursor.order.field_number]⟩
  · rintro ⟨small, held⟩
    exact ⟨_, (bytesAt_eq_ok_iff fits wide).mpr ⟨held, cursor.order.length_field width number⟩,
      cursor.order.number_field small⟩

/-- A byte is read where it stands. -/
theorem uint8At_eq_ok_iff
    {value : UInt8}
    (fits : cursor.size < addressLimit) :
    cursor.uint8At offset = .ok value ↔ cursor.Holds offset [value] := by
  simp only [uint8At, Reader.map_eq_ok_iff, numberAt_eq_ok_iff fits Nat.one_pos,
    ByteOrder.field_one]
  constructor
  · rintro ⟨number, ⟨-, held⟩, rfl⟩
    exact held
  · intro held
    exact ⟨value.toNat, ⟨value.toNat_lt, by rwa [UInt8.ofNat_toNat]⟩, UInt8.ofNat_toNat⟩

/-- A 16-bit field is read where its bytes stand. -/
theorem uint16At_eq_ok_iff
    {value : UInt16}
    (fits : cursor.size < addressLimit) :
    cursor.uint16At offset = .ok value ↔
      cursor.Holds offset (cursor.order.field 2 value.toNat) := by
  simp only [uint16At, Reader.map_eq_ok_iff, numberAt_eq_ok_iff fits (show 0 < 2 by decide)]
  constructor
  · rintro ⟨number, ⟨small, held⟩, rfl⟩
    rwa [UInt16.toNat_ofNat_of_lt' small]
  · intro held
    exact ⟨value.toNat, ⟨value.toNat_lt, held⟩, UInt16.ofNat_toNat⟩

/-- A 32-bit field is read where its bytes stand. -/
theorem uint32At_eq_ok_iff
    {value : UInt32}
    (fits : cursor.size < addressLimit) :
    cursor.uint32At offset = .ok value ↔
      cursor.Holds offset (cursor.order.field 4 value.toNat) := by
  simp only [uint32At, Reader.map_eq_ok_iff, numberAt_eq_ok_iff fits (show 0 < 4 by decide)]
  constructor
  · rintro ⟨number, ⟨small, held⟩, rfl⟩
    rwa [UInt32.toNat_ofNat_of_lt' small]
  · intro held
    exact ⟨value.toNat, ⟨value.toNat_lt, held⟩, UInt32.ofNat_toNat⟩

end Cursor

end LineAtlas
