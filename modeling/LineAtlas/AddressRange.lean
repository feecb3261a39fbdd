import LineAtlas.Cursor
import LineAtlas.Warning

namespace LineAtlas

/-!
# Address ranges

The section of address ranges is a row of sets. A set is a header of twelve
bytes and, when addresses have two bytes, pairs of an address and a length up
to a pair of zeros. Sets with addresses of another size keep their header only,
and leave a warning; their length field says where the next set starts.

The section is read by offset. The first set that is not complete ends it.
-/

/-- The name of the section that holds address ranges. -/
def rangeSectionName : String :=
  ".debug_aranges"

/-- A run of addresses. -/
structure AddressRange where
  address : UInt64
  length : UInt64
  deriving Repr, DecidableEq

/-- One more than the last address, or the greatest address if that does not fit. -/
def AddressRange.stop (range : AddressRange) : UInt64 :=
  UInt64.ofNat (min (range.address.toNat + range.length.toNat) (addressLimit - 1))

/-- The header of a set of ranges. -/
structure RangeHeader where
  /-- The length of the set, without the length field itself. -/
  length : UInt32
  version : UInt16
  /-- The offset in the section of compilation units. -/
  infoOffset : UInt32
  addressSize : UInt8
  segmentSize : UInt8
  deriving Repr, DecidableEq

/-- A header and the ranges after it, without the pair of zeros. -/
structure RangeSet where
  /-- The offset of the set in its section. -/
  offset : Nat
  header : RangeHeader
  ranges : List AddressRange
  deriving Repr, DecidableEq

/-- The count of bytes of a header. -/
def RangeHeader.size : Nat :=
  12

/-- Reads the header at `offset`. -/
def RangeHeader.readAt
    (cursor : Cursor)
    (offset : Nat) :
    Except ReadError RangeHeader := do
  let length ← cursor.uint32At offset
  let version ← cursor.uint16At (offset + 4)
  let infoOffset ← cursor.uint32At (offset + 6)
  let addressSize ← cursor.uint8At (offset + 10)
  let segmentSize ← cursor.uint8At (offset + 11)
  return {
    length := length
    version := version
    infoOffset := infoOffset
    addressSize := addressSize
    segmentSize := segmentSize
  }

namespace RangeSet

/-- Whether the ranges of sets with this header are read. -/
def hasNarrowAddresses (header : RangeHeader) : Bool :=
  header.addressSize = 2

/--
Reads pairs from `offset` up to the pair of zeros; gives the ranges and the
offset after that pair.
-/
def rangesAt
    (cursor : Cursor)
    (offset : Nat) :
    Except ReadError (List AddressRange × Nat) :=
  match cursor.uint16At offset with
  | .error cause => .error cause
  | .ok address =>
      match _lengthRead : cursor.uint16At (offset + 2) with
      | .error cause => .error cause
      | .ok length =>
          if address = 0 ∧ length = 0 then
            .ok ([], offset + 4)
          else
            match rangesAt cursor (offset + 4) with
            | .error cause => .error cause
            | .ok (later, stop) =>
                .ok
                  ({ address := address.toUInt64, length := length.toUInt64 } :: later,
                    stop)
termination_by cursor.size - offset
decreasing_by
  have inside := Cursor.le_size_of_uint16At _lengthRead
  omega

/-- The offset after a set whose ranges are not read. -/
def stopOfUnread
    (offset : Nat)
    (header : RangeHeader) :
    Nat :=
  max
    (offset + RangeHeader.size)
    (min (min (offset + 4) (addressLimit - 1) + header.length.toNat) (addressLimit - 1))

/-- Reads the set at `offset`; gives the set and the offset of the next one. -/
def readAt
    (cursor : Cursor)
    (offset : Nat) :
    Except ReadError (RangeSet × Nat) :=
  match RangeHeader.readAt cursor offset with
  | .error cause => .error cause
  | .ok header =>
      if hasNarrowAddresses header then
        (rangesAt cursor (offset + RangeHeader.size)).map fun (ranges, stop) =>
          ({ offset := offset, header := header, ranges := ranges }, stop)
      else
        .ok
          ({ offset := offset, header := header, ranges := [] },
            stopOfUnread offset header)

/-- The warning that a set leaves even if it can be read. -/
def warning? (set : RangeSet) : Option Warning :=
  if hasNarrowAddresses set.header then
    none
  else
    some {
      sectionName := rangeSectionName
      offset := set.offset
      kind := .unsupportedAddressSize
      cause := .undecodedAddressSize set.header.addressSize
    }

/-- The pairs of a set end after the offset where they start. -/
theorem lt_stop_of_rangesAt
    {cursor : Cursor}
    {offset stop : Nat}
    {ranges : List AddressRange}
    (read : rangesAt cursor offset = .ok (ranges, stop)) :
    offset < stop := by
  fun_induction rangesAt cursor offset generalizing ranges with
  | case1 offset cause missing =>
      cases read
  | case2 offset address addressRead cause missing =>
      cases read
  | case3 offset address addressRead length lengthRead zeros =>
      cases read
      omega
  | case4 offset address addressRead length lengthRead pair cause missing =>
      cases read
  | case5 offset address addressRead length lengthRead pair later last rest
      inductionHypothesis =>
      cases read
      have := inductionHypothesis rest
      omega

/-- The next set starts after the one that was read. -/
theorem lt_stop_of_readAt
    {cursor : Cursor}
    {offset stop : Nat}
    {set : RangeSet}
    (read : readAt cursor offset = .ok (set, stop)) :
    offset < stop := by
  unfold readAt at read
  split at read
  · cases read
  · split at read
    · next header _ _ =>
        cases pairs : rangesAt cursor (offset + RangeHeader.size) with
        | error cause =>
            rw [pairs] at read
            cases read
        | ok found =>
            rw [pairs] at read
            cases read
            have := lt_stop_of_rangesAt pairs
            omega
    · cases read
      simp only [stopOfUnread, RangeHeader.size]
      omega

end RangeSet

/-- What decoding a section of address ranges gave. -/
structure RangeSection where
  sets : List RangeSet
  warnings : List Warning
  deriving Repr, DecidableEq

namespace RangeSection

/-- Decodes the sets from `offset` on. -/
def ofOffset
    (cursor : Cursor)
    (offset : Nat) :
    RangeSection :=
  if cursor.size ≤ offset then
    { sets := [], warnings := [] }
  else
    match _outcome : RangeSet.readAt cursor offset with
    | .error cause =>
        { sets := []
          warnings := [.ofError rangeSectionName offset .malformedHeader cause] }
    | .ok (set, stop) =>
        let later := ofOffset cursor stop
        { sets := set :: later.sets
          warnings := set.warning?.toList ++ later.warnings }
termination_by cursor.size - offset
decreasing_by
  have := RangeSet.lt_stop_of_readAt _outcome
  omega

/-- Decodes a whole section. -/
def decode
    (order : ByteOrder)
    (data : Bytes) :
    RangeSection :=
  ofOffset (.ofBytes order data) 0

end RangeSection

end LineAtlas
