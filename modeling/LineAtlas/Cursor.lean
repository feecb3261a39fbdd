import LineAtlas.Base128

namespace LineAtlas

/-!
# Cursors over one run of bytes

A cursor is a run of bytes, a position in it and the byte order of its
fields. The functions here look without moving; positions are bounded by
`addressLimit`, the number of positions that a 64-bit machine can name.
-/

/-- One more than the greatest position that fits into 64 bits. -/
def addressLimit : Nat :=
  UInt64.size

/-- A position in a run of bytes. -/
structure Cursor where
  data : Bytes
  position : Nat
  order : ByteOrder
  deriving Repr, DecidableEq

namespace Cursor

/-- A cursor at the start of `data`. -/
def ofBytes
    (order : ByteOrder)
    (data : Bytes) :
    Cursor :=
  { data := data, position := 0, order := order }

/-- The number of bytes that the cursor ranges over. -/
def size (cursor : Cursor) : Nat :=
  cursor.data.length

/-- The number of bytes from the position to the end. -/
def remaining (cursor : Cursor) : Nat :=
  cursor.size - cursor.position

/-- Whether no byte is left. -/
def atEnd (cursor : Cursor) : Bool :=
  cursor.size ≤ cursor.position

/-- The bytes from the position to the end. -/
def rest (cursor : Cursor) : Bytes :=
  cursor.data.drop cursor.position

/-- The cursor `count` bytes further on. -/
def advance
    (cursor : Cursor)
    (count : Nat) :
    Cursor :=
  { cursor with position := cursor.position + count }

/-- The `count` bytes at `offset`; `subject` names what they are for. -/
def bytesAt
    (cursor : Cursor)
    (subject : String)
    (offset count : Nat) :
    Except ReadError Bytes :=
  if addressLimit ≤ offset + count then
    .error (.overflow subject)
  else if cursor.size < offset + count then
    .error (.truncated (offset + count) cursor.size subject)
  else
    .ok ((cursor.data.drop offset).take count)

/-- The number in the field of `width` bytes at `offset`. -/
def numberAt
    (cursor : Cursor)
    (subject : String)
    (width offset : Nat) :
    Except ReadError Nat :=
  (cursor.bytesAt subject offset width).map cursor.order.number

/-- The byte at `offset`. -/
def uint8At
    (cursor : Cursor)
    (offset : Nat) :
    Except ReadError UInt8 :=
  (cursor.numberAt "u8" 1 offset).map UInt8.ofNat

/-- The 16-bit field at `offset`. -/
def uint16At
    (cursor : Cursor)
    (offset : Nat) :
    Except ReadError UInt16 :=
  (cursor.numberAt "u16" 2 offset).map UInt16.ofNat

/-- The 32-bit field at `offset`. -/
def uint32At
    (cursor : Cursor)
    (offset : Nat) :
    Except ReadError UInt32 :=
  (cursor.numberAt "u32" 4 offset).map UInt32.ofNat

/-- The 64-bit field at `offset`. -/
def uint64At
    (cursor : Cursor)
    (offset : Nat) :
    Except ReadError UInt64 :=
  (cursor.numberAt "u64" 8 offset).map UInt64.ofNat

/-- The unsigned field of 1, 2, 4 or 8 bytes at `offset`. -/
def addressAt
    (cursor : Cursor)
    (width offset : Nat) :
    Except ReadError UInt64 :=
  match width with
  | 1 => (cursor.uint8At offset).map UInt8.toUInt64
  | 2 => (cursor.uint16At offset).map UInt16.toUInt64
  | 4 => (cursor.uint32At offset).map UInt32.toUInt64
  | 8 => cursor.uint64At offset
  | _ => .error (.invalidValue "unsupported address size")

/-- The bytes from the position to the next NUL, which has to be there. -/
def terminatedBytes (cursor : Cursor) : Except ReadError Bytes :=
  if cursor.rest.contains 0 then
    .ok (cursor.rest.takeWhile (· ≠ 0))
  else
    .error (.truncated (cursor.size + 1) cursor.size "string")

/-- A look that succeeds stays inside the data. -/
theorem le_size_of_bytesAt
    {cursor : Cursor}
    {subject : String}
    {offset count : Nat}
    {found : Bytes}
    (look : cursor.bytesAt subject offset count = .ok found) :
    offset + count ≤ cursor.size := by
  unfold bytesAt at look
  split at look
  · simp at look
  · split at look
    · simp at look
    · omega

/-- A field that can be read lies inside the data. -/
theorem le_size_of_numberAt
    {cursor : Cursor}
    {subject : String}
    {width offset value : Nat}
    (look : cursor.numberAt subject width offset = .ok value) :
    offset + width ≤ cursor.size := by
  unfold numberAt at look
  cases bytes : cursor.bytesAt subject offset width with
  | error cause =>
      simp [bytes, Except.map] at look
  | ok found =>
      exact le_size_of_bytesAt bytes

/-- A 16-bit field that can be read lies inside the data. -/
theorem le_size_of_uint16At
    {cursor : Cursor}
    {offset : Nat}
    {value : UInt16}
    (look : cursor.uint16At offset = .ok value) :
    offset + 2 ≤ cursor.size := by
  unfold uint16At at look
  cases number : cursor.numberAt "u16" 2 offset with
  | error cause =>
      simp [number, Except.map] at look
  | ok found =>
      exact le_size_of_numberAt number

end Cursor

end LineAtlas
