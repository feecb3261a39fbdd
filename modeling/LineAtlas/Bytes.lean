namespace LineAtlas

/-!
# Bytes and byte orders

A run of bytes is a list. A byte order says which end of a fixed-width field
is the least significant one; `ByteOrder.number` gives the number that a field
holds.
-/

/-- A run of bytes. -/
abbrev Bytes := List UInt8

/-- Which byte of a multi-byte field comes first. -/
inductive ByteOrder where
  /-- The least significant byte comes first. -/
  | little
  /-- The most significant byte comes first. -/
  | big
  deriving Repr, DecidableEq, Inhabited

/-- The number whose least significant byte is the first one. -/
def littleNumber : Bytes → Nat
  | [] => 0
  | byte :: rest => byte.toNat + 256 * littleNumber rest

/-- The number that the bytes of a field hold in the given order. -/
def ByteOrder.number
    (order : ByteOrder)
    (field : Bytes) :
    Nat :=
  match order with
  | .little => littleNumber field
  | .big => littleNumber field.reverse

end LineAtlas
