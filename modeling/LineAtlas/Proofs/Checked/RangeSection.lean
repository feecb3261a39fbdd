import LineAtlas.AddressRange
import LineAtlas.Proofs.Checked.Reading

namespace LineAtlas.Checked

/-!
# Range sections on a processor

The fields of a set are found by sums of offsets. A set is only read from an offset
inside the section, so these sums fit; the end of a set whose ranges are not read is
a sum that stops at the greatest position instead.
-/

variable (cursor : Cursor)

/-- Reads the header at `offset`. -/
def readRangeHeader (offset : Nat) : Except Stop RangeHeader := do
  let length ← uint32At cursor offset
  let version ← uint16At cursor (← sum offset 4)
  let infoOffset ← uint32At cursor (← sum offset 6)
  let addressSize ← uint8At cursor (← sum offset 10)
  let segmentSize ← uint8At cursor (← sum offset 11)
  return {
    length := length
    version := version
    infoOffset := infoOffset
    addressSize := addressSize
    segmentSize := segmentSize
  }

/-- Reads pairs from `offset` up to the pair of zeros. -/
def rangesFrom (offset : Nat) : Except Stop (List AddressRange × Nat) := do
  let address ← uint16At cursor offset
  let length ← uint16At cursor (← sum offset 2)
  let next ← sum offset 4
  if address = 0 ∧ length = 0 then
    return ([], next)
  if cursor.size - next < cursor.size - offset then
    let (later, stop) ← rangesFrom next
    return ({ address := address.toUInt64, length := length.toUInt64 } :: later, stop)
  else
    throw (.trap .endless)
termination_by cursor.size - offset

/-- Reads the set at `offset`; gives the set and the offset of the next one. -/
def readSet (offset : Nat) : Except Stop (RangeSet × Nat) := do
  let header ← readRangeHeader cursor offset
  let start ← sum offset RangeHeader.size
  if RangeSet.hasNarrowAddresses header then
    let (ranges, stop) ← rangesFrom cursor start
    return ({ offset := offset, header := header, ranges := ranges }, stop)
  else
    let stop := max start (boundedSum (boundedSum offset 4) header.length.toNat)
    return ({ offset := offset, header := header, ranges := [] }, stop)

/-- Decodes the sets from `offset` on. -/
def setsFrom (offset : Nat) : Except Stop RangeSection := do
  if cursor.size ≤ offset then
    return { sets := [], warnings := [] }
  match ← attempted (readSet cursor offset) with
  | .error cause =>
      return {
        sets := []
        warnings := [.ofError rangeSectionName offset .malformedHeader cause]
      }
  | .ok (set, stop) =>
      if cursor.size - stop < cursor.size - offset then
        let later ← setsFrom stop
        return {
          sets := set :: later.sets
          warnings := set.warning?.toList ++ later.warnings
        }
      else
        throw (.trap .endless)
termination_by cursor.size - offset

/-- Decodes a whole section. -/
def decodeRanges
    (order : ByteOrder)
    (data : Bytes) :
    Except Stop RangeSection :=
  setsFrom (.ofBytes order data) 0

/-! ## Agreement -/

section

variable
  {cursor : Cursor}
  {offset : Nat}

/-- A small number can be added to an offset inside the data. -/
theorem add_lt_addressLimit
    {count : Nat}
    (inside : offset < sizeLimit)
    (small : count ≤ 12) :
    offset + count < addressLimit := by
  have bounds := sizeLimit_bounds
  omega

theorem readRangeHeader_eq (inside : offset < sizeLimit) :
    readRangeHeader cursor offset = look (RangeHeader.readAt cursor offset) := by
  simp only [readRangeHeader, RangeHeader.readAt, look_bind, uint32At_eq, uint16At_eq, uint8At_eq,
    sum_of_lt (add_lt_addressLimit inside (show 4 ≤ 12 by decide)),
    sum_of_lt (add_lt_addressLimit inside (show 6 ≤ 12 by decide)),
    sum_of_lt (add_lt_addressLimit inside (show 10 ≤ 12 by decide)),
    sum_of_lt (add_lt_addressLimit inside (show 11 ≤ 12 by decide)), ok_bind]
  rfl

/-- A pair that can be read is inside the data, and so is what comes after it. -/
theorem rangesFrom_of_ok
    {address length : UInt16}
    (short : cursor.size < sizeLimit)
    (addressRead : cursor.uint16At offset = .ok address)
    (lengthRead : cursor.uint16At (offset + 2) = .ok length) :
    rangesFrom cursor offset =
      if address = 0 ∧ length = 0 then
        .ok ([], offset + 4)
      else
        (rangesFrom cursor (offset + 4)).map fun (later, stop) =>
          ({ address := address.toUInt64, length := length.toUInt64 } :: later, stop) := by
  have inside := Cursor.le_size_of_uint16At lengthRead
  have room : offset + 4 < addressLimit := add_lt_addressLimit (by omega) (by decide)
  rw [rangesFrom, uint16At_eq, addressRead, look_ok, ok_bind, sum_of_lt (by omega), ok_bind,
    uint16At_eq, lengthRead, look_ok, ok_bind, sum_of_lt room, ok_bind]
  split
  · rfl
  · rw [if_pos (by omega)]
    cases rangesFrom cursor (offset + 4) <;> rfl

theorem rangesFrom_eq (short : cursor.size < sizeLimit) :
    rangesFrom cursor offset = look (RangeSet.rangesAt cursor offset) := by
  fun_induction RangeSet.rangesAt cursor offset with
  | case1 offset cause missing =>
      rw [rangesFrom, uint16At_eq, missing]
      rfl
  | case2 offset address addressRead cause missing =>
      have inside := Cursor.le_size_of_uint16At addressRead
      have room : offset + 2 < addressLimit := add_lt_addressLimit (by omega) (by decide)
      rw [rangesFrom, uint16At_eq, addressRead, look_ok, ok_bind, sum_of_lt room, ok_bind,
        uint16At_eq, missing]
      rfl
  | case3 offset address addressRead length lengthRead zeros =>
      rw [rangesFrom_of_ok short addressRead lengthRead, if_pos zeros]
      rfl
  | case4 offset address addressRead length lengthRead pair cause failed inductionHypothesis =>
      rw [rangesFrom_of_ok short addressRead lengthRead, if_neg pair, inductionHypothesis, failed]
      rfl
  | case5 offset address addressRead length lengthRead pair later stop rest
      inductionHypothesis =>
      rw [rangesFrom_of_ok short addressRead lengthRead, if_neg pair, inductionHypothesis, rest]
      rfl

theorem readSet_eq
    (short : cursor.size < sizeLimit)
    (inside : offset < cursor.size) :
    readSet cursor offset = look (RangeSet.readAt cursor offset) := by
  have room := add_lt_addressLimit (Nat.lt_trans inside short) (show 12 ≤ 12 by decide)
  rw [readSet, readRangeHeader_eq (Nat.lt_trans inside short), RangeSet.readAt]
  cases RangeHeader.readAt cursor offset with
  | error cause =>
      rfl
  | ok header =>
      rw [look_ok, ok_bind, RangeHeader.size, sum_of_lt room, ok_bind]
      dsimp only
      split
      · rw [rangesFrom_eq short, look_map]
        cases look (RangeSet.rangesAt cursor (offset + 12)) <;> rfl
      · rfl

theorem setsFrom_eq (short : cursor.size < sizeLimit) :
    setsFrom cursor offset = .ok (RangeSection.ofOffset cursor offset) := by
  fun_induction RangeSection.ofOffset cursor offset with
  | case1 offset ended =>
      rw [setsFrom, if_pos ended]
      rfl
  | case2 offset goesOn cause failed =>
      rw [setsFrom, if_neg goesOn, readSet_eq short (Nat.not_le.mp goesOn), attempted_look, failed]
      rfl
  | case3 offset goesOn set stop read later inductionHypothesis =>
      have further := RangeSet.lt_stop_of_readAt read
      rw [setsFrom, if_neg goesOn, readSet_eq short (Nat.not_le.mp goesOn), attempted_look, read,
        ok_bind]
      dsimp only
      rw [if_pos (by omega), inductionHypothesis]
      rfl

theorem decodeRanges_eq
    {order : ByteOrder}
    {data : Bytes}
    (short : data.length < sizeLimit) :
    decodeRanges order data = .ok (RangeSection.decode order data) :=
  setsFrom_eq short

end

end LineAtlas.Checked
