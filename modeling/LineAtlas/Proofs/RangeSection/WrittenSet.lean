import LineAtlas.AddressRange
import LineAtlas.Proofs.Offsets

namespace LineAtlas

/-!
# Range sets as they are written

A `WrittenRangeSet` is a header and what belongs to it: pairs up to a pair of zeros if
addresses have two bytes, and otherwise as many bytes as the header counts. Whatever
stands around these bytes, they are read as this set and the next set is looked for
right after them. Conversely, ranges that are read are those of pairs that stand there,
up to a pair of zeros.
-/

/-- A pair of an address and a length that does not end its set. -/
structure RangePair where
  address : UInt16
  length : UInt16
  notMark : ¬ (address = 0 ∧ length = 0)

namespace RangePair

def bytes
    (order : ByteOrder)
    (pair : RangePair) :
    Bytes :=
  order.field 2 pair.address.toNat ++ order.field 2 pair.length.toNat

/-- The range that is read from these bytes. -/
def range (pair : RangePair) : AddressRange where
  address := pair.address.toUInt64
  length := pair.length.toUInt64

@[simp] theorem length_bytes
    (order : ByteOrder)
    (pair : RangePair) :
    (pair.bytes order).length = 4 := by
  simp [bytes]

theorem length_listed
    (order : ByteOrder)
    (listed : List RangePair) :
    (listed.flatMap (·.bytes order)).length = 4 * listed.length := by
  simp [List.length_flatMap, List.map_const', Nat.mul_comm]

/-- The pair of zeros that ends a set. -/
def mark (order : ByteOrder) : Bytes :=
  order.field 2 0 ++ order.field 2 0

@[simp] theorem length_mark (order : ByteOrder) : (mark order).length = 4 := by
  simp [mark]

end RangePair

namespace RangeHeader

def bytes
    (order : ByteOrder)
    (header : RangeHeader) :
    Bytes :=
  order.field 4 header.length.toNat
    ++ (order.field 2 header.version.toNat
    ++ (order.field 4 header.infoOffset.toNat
    ++ ([header.addressSize] ++ [header.segmentSize])))

@[simp] theorem length_bytes
    (order : ByteOrder)
    (header : RangeHeader) :
    (header.bytes order).length = size := by
  simp [bytes, size]

end RangeHeader

theorem RangeSet.hasNarrowAddresses_iff {header : RangeHeader} :
    hasNarrowAddresses header = true ↔ header.addressSize = 2 := by
  simp [hasNarrowAddresses]

/-- What a set holds after its header. -/
inductive RangeContents (header : RangeHeader) where
  /-- Addresses have two bytes, and pairs stand up to a pair of zeros, whatever the header counts. -/
  | pairs
      (narrow : header.addressSize = 2)
      (listed : List RangePair)
  /-- Addresses have another size, and the header counts the bytes and eight bytes of itself. -/
  | unread
      (notNarrow : header.addressSize ≠ 2)
      (skipped : Bytes)
      (counted : max 8 header.length.toNat = 8 + skipped.length)

namespace RangeContents

variable {header : RangeHeader}

def bytes
    (order : ByteOrder) :
    RangeContents header → Bytes
  | pairs _ listed => listed.flatMap (·.bytes order) ++ RangePair.mark order
  | unread _ skipped _ => skipped

/-- The ranges that are read from these bytes. -/
def ranges : RangeContents header → List AddressRange
  | pairs _ listed => listed.map (·.range)
  | unread _ _ _ => []

end RangeContents

/-- A set as it is written. -/
structure WrittenRangeSet where
  header : RangeHeader
  contents : RangeContents header

namespace WrittenRangeSet

def bytes
    (order : ByteOrder)
    (set : WrittenRangeSet) :
    Bytes :=
  set.header.bytes order ++ set.contents.bytes order

/-- The set that is read where these bytes stand. -/
def setAt
    (set : WrittenRangeSet)
    (offset : Nat) :
    RangeSet where
  offset := offset
  header := set.header
  ranges := set.contents.ranges

/-- What is warned of where these bytes stand: an address size whose ranges are not read. -/
def warningsAt
    (set : WrittenRangeSet)
    (offset : Nat) :
    List Warning :=
  match set.contents with
  | .pairs _ _ => []
  | .unread _ _ _ =>
      [{ sectionName := ".debug_aranges"
         offset := offset
         kind := .unsupportedAddressSize
         cause := .undecodedAddressSize set.header.addressSize }]

@[simp] theorem length_bytes
    (order : ByteOrder)
    (set : WrittenRangeSet) :
    (set.bytes order).length = RangeHeader.size + (set.contents.bytes order).length := by
  rw [bytes, List.length_append, RangeHeader.length_bytes]

theorem warning?_setAt
    (set : WrittenRangeSet)
    (offset : Nat) :
    (set.setAt offset).warning?.toList = set.warningsAt offset := by
  obtain ⟨header, contents⟩ := set
  cases contents with
  | pairs narrow listed =>
      simp [RangeSet.warning?, RangeSet.hasNarrowAddresses, setAt, warningsAt, narrow]
  | unread notNarrow skipped counted =>
      simp [RangeSet.warning?, RangeSet.hasNarrowAddresses, setAt, warningsAt, notNarrow,
        rangeSectionName]

theorem bytes_ne_nil
    (order : ByteOrder)
    (set : WrittenRangeSet) :
    set.bytes order ≠ [] := by
  apply List.ne_nil_of_length_pos
  rw [length_bytes, RangeHeader.size]
  omega

end WrittenRangeSet

/-! ## Pairs -/

namespace RangeSet

variable
  {cursor : Cursor}
  {offset stop : Nat}

/-- Two fields decide whether the pairs go on. -/
theorem rangesAt_eq
    (cursor : Cursor)
    (offset : Nat) :
    rangesAt cursor offset =
      (cursor.uint16At offset >>= fun address =>
        cursor.uint16At (offset + 2) >>= fun length =>
          if address = 0 ∧ length = 0 then
            .ok ([], offset + 4)
          else
            (rangesAt cursor (offset + 4)).map fun (later, stop) =>
              ({ address := address.toUInt64, length := length.toUInt64 } :: later, stop)) := by
  rw [rangesAt]
  cases cursor.uint16At offset with
  | error cause =>
      rfl
  | ok address =>
      dsimp only
      split
      · next cause missing =>
          rw [missing]
          rfl
      · next length lengthRead =>
          rw [lengthRead]
          show _ = ite _ _ _
          split
          · rfl
          · cases rangesAt cursor (offset + 4) <;> rfl

/-- Two fields that are read decide whether the pairs go on. -/
theorem rangesAt_of_fields
    {address length : UInt16}
    (addressRead : cursor.uint16At offset = .ok address)
    (lengthRead : cursor.uint16At (offset + 2) = .ok length) :
    rangesAt cursor offset =
      if address = 0 ∧ length = 0 then
        .ok ([], offset + 4)
      else
        (rangesAt cursor (offset + 4)).map fun (later, stop) =>
          ({ address := address.toUInt64, length := length.toUInt64 } :: later, stop) := by
  rw [rangesAt_eq, addressRead, lengthRead]
  rfl

theorem rangesAt_of_mark
    (fits : cursor.size < addressLimit)
    (held : cursor.Holds offset (RangePair.mark cursor.order)) :
    rangesAt cursor offset = .ok ([], offset + 4) := by
  obtain ⟨first, second⟩ := Cursor.holds_append.mp held
  rw [ByteOrder.length_field] at second
  have addressRead : cursor.uint16At offset = .ok 0 :=
    (Cursor.uint16At_eq_ok_iff fits).mpr first
  have lengthRead : cursor.uint16At (offset + 2) = .ok 0 :=
    (Cursor.uint16At_eq_ok_iff fits).mpr second
  rw [rangesAt_of_fields addressRead lengthRead, if_pos ⟨rfl, rfl⟩]

theorem rangesAt_of_pair
    (fits : cursor.size < addressLimit)
    (pair : RangePair)
    (held : cursor.Holds offset (pair.bytes cursor.order)) :
    rangesAt cursor offset =
      (rangesAt cursor (offset + 4)).map fun (later, stop) => (pair.range :: later, stop) := by
  obtain ⟨first, second⟩ := Cursor.holds_append.mp held
  rw [ByteOrder.length_field] at second
  have addressRead := (Cursor.uint16At_eq_ok_iff fits).mpr first
  have lengthRead := (Cursor.uint16At_eq_ok_iff fits).mpr second
  rw [rangesAt_of_fields addressRead lengthRead, if_neg pair.notMark]
  rfl

/-- Pairs are read up to the pair of zeros. -/
theorem rangesAt_of_pairs
    (fits : cursor.size < addressLimit)
    (listed : List RangePair)
    (held :
      cursor.Holds offset
        (listed.flatMap (·.bytes cursor.order) ++ RangePair.mark cursor.order)) :
    rangesAt cursor offset =
      .ok (listed.map (·.range),
        offset + (listed.flatMap (·.bytes cursor.order) ++ RangePair.mark cursor.order).length) := by
  induction listed generalizing offset with
  | nil =>
      rw [rangesAt_of_mark fits held]
      simp
  | cons pair later inductionHypothesis =>
      rw [List.flatMap_cons, List.append_assoc] at held
      obtain ⟨first, rest⟩ := Cursor.holds_append.mp held
      rw [RangePair.length_bytes] at rest
      rw [rangesAt_of_pair fits pair first, inductionHypothesis rest]
      simp only [Except.map, List.map_cons, List.flatMap_cons, List.length_append,
        RangePair.length_bytes, Nat.add_assoc]

/-- Ranges that are read are those of pairs that stand there. -/
theorem exists_pairs_of_rangesAt
    (fits : cursor.size < addressLimit)
    {ranges : List AddressRange}
    (read : rangesAt cursor offset = .ok (ranges, stop)) :
    ∃ listed : List RangePair,
      cursor.Holds offset
          (listed.flatMap (·.bytes cursor.order) ++ RangePair.mark cursor.order) ∧
        ranges = listed.map (·.range) ∧
        stop =
          offset +
            (listed.flatMap (·.bytes cursor.order) ++ RangePair.mark cursor.order).length := by
  fun_induction rangesAt cursor offset generalizing ranges stop with
  | case1 offset cause missing =>
      cases read
  | case2 offset address addressRead cause missing =>
      cases read
  | case3 offset address addressRead length lengthRead zeros =>
      cases read
      obtain ⟨rfl, rfl⟩ := zeros
      have first := (Cursor.uint16At_eq_ok_iff fits).mp addressRead
      have second := (Cursor.uint16At_eq_ok_iff fits).mp lengthRead
      have held : cursor.Holds offset (RangePair.mark cursor.order) :=
        Cursor.holds_append.mpr ⟨first, by rwa [ByteOrder.length_field]⟩
      exact ⟨[], held, rfl, by simp⟩
  | case4 offset address addressRead length lengthRead pair cause missing =>
      cases read
  | case5 offset address addressRead length lengthRead notMark later last rest
      inductionHypothesis =>
      cases read
      obtain ⟨listed, held, rfl, rfl⟩ := inductionHypothesis rest
      have first := (Cursor.uint16At_eq_ok_iff fits).mp addressRead
      have second := (Cursor.uint16At_eq_ok_iff fits).mp lengthRead
      refine ⟨{ address := address, length := length, notMark := notMark } :: listed, ?_, rfl, ?_⟩
      · rw [List.flatMap_cons, List.append_assoc, Cursor.holds_append, RangePair.length_bytes]
        refine ⟨Cursor.holds_append.mpr ⟨first, ?_⟩, held⟩
        rwa [ByteOrder.length_field]
      · simp only [List.flatMap_cons, List.length_append, RangePair.length_bytes, Nat.add_assoc]

/-! ## Headers -/

/-- A header is read exactly where its bytes stand. -/
theorem headerAt_eq_ok_iff
    (fits : cursor.size < addressLimit)
    {header : RangeHeader} :
    RangeHeader.readAt cursor offset = .ok header ↔
      cursor.Holds offset (header.bytes cursor.order) := by
  simp only [RangeHeader.bytes, Cursor.holds_append, ByteOrder.length_field, List.length_singleton,
    Nat.add_assoc, Nat.reduceAdd, ← Cursor.uint32At_eq_ok_iff fits, ← Cursor.uint16At_eq_ok_iff fits,
    ← Cursor.uint8At_eq_ok_iff fits]
  constructor
  · intro read
    simp only [RangeHeader.readAt, lookBind_eq_ok_iff] at read
    obtain ⟨length, lengthRead, version, versionRead, infoOffset, infoOffsetRead, addressSize,
      addressSizeRead, segmentSize, segmentSizeRead, same⟩ := read
    cases same
    exact ⟨lengthRead, versionRead, infoOffsetRead, addressSizeRead, segmentSizeRead⟩
  · rintro ⟨length, version, infoOffset, addressSize, segmentSize⟩
    simp only [RangeHeader.readAt, length, version, infoOffset, addressSize, segmentSize]
    rfl

/-- Whatever bytes stand where a header fits are those of a header. -/
theorem exists_header
    (inside : offset + RangeHeader.size ≤ cursor.size) :
    ∃ header : RangeHeader, cursor.Holds offset (header.bytes cursor.order) := by
  rw [RangeHeader.size] at inside
  have field (start width : Nat) (fits : start + width ≤ 12) :
      ∃ number < 256 ^ width,
        cursor.Holds (offset + start) (cursor.order.field width number) :=
    Cursor.exists_field (by omega)
  obtain ⟨length, lengthSmall, lengthHeld⟩ := field 0 4 (by decide)
  obtain ⟨version, versionSmall, versionHeld⟩ := field 4 2 (by decide)
  obtain ⟨infoOffset, infoSmall, infoHeld⟩ := field 6 4 (by decide)
  obtain ⟨addressSize, -, addressHeld⟩ := field 10 1 (by decide)
  obtain ⟨segmentSize, -, segmentHeld⟩ := field 11 1 (by decide)
  rw [ByteOrder.field_one] at addressHeld segmentHeld
  refine ⟨⟨.ofNat length, .ofNat version, .ofNat infoOffset, .ofNat addressSize,
    .ofNat segmentSize⟩, ?_⟩
  simp only [RangeHeader.bytes, UInt32.toNat_ofNat_of_lt' lengthSmall,
    UInt16.toNat_ofNat_of_lt' versionSmall, UInt32.toNat_ofNat_of_lt' infoSmall,
    Cursor.holds_append, ByteOrder.length_field, List.length_singleton, Nat.add_assoc]
  exact ⟨lengthHeld, versionHeld, infoHeld, addressHeld, segmentHeld⟩

/-! ## Whole sets -/

theorem readAt_of_header
    (fits : cursor.size < addressLimit)
    {header : RangeHeader}
    (held : cursor.Holds offset (header.bytes cursor.order)) :
    readAt cursor offset =
      if hasNarrowAddresses header then
        (rangesAt cursor (offset + RangeHeader.size)).map fun (ranges, stop) =>
          ({ offset := offset, header := header, ranges := ranges }, stop)
      else
        .ok
          ({ offset := offset, header := header, ranges := [] },
            stopOfUnread offset header) := by
  rw [readAt, (headerAt_eq_ok_iff fits).mpr held]

/-- The next set after one whose ranges are not read starts after the bytes that it counts. -/
theorem stopOfUnread_of_counted
    {header : RangeHeader}
    {count : Nat}
    (counted : max 8 header.length.toNat = 8 + count)
    (inside : offset + RangeHeader.size + count < addressLimit) :
    stopOfUnread offset header = offset + RangeHeader.size + count := by
  rw [RangeHeader.size] at *
  simp only [stopOfUnread, RangeHeader.size]
  omega

/-- A set is read where its bytes stand, and the next one is looked for after them. -/
theorem readAt_of_written
    (fits : cursor.size < addressLimit)
    (set : WrittenRangeSet)
    (held : cursor.Holds offset (set.bytes cursor.order)) :
    readAt cursor offset = .ok (set.setAt offset, offset + (set.bytes cursor.order).length) := by
  have inside := held.le_size (set.bytes_ne_nil cursor.order)
  obtain ⟨headerHeld, contentsHeld⟩ := Cursor.holds_append.mp held
  rw [RangeHeader.length_bytes] at contentsHeld
  rw [WrittenRangeSet.length_bytes, ← Nat.add_assoc] at inside ⊢
  rw [readAt_of_header fits headerHeld]
  obtain ⟨header, contents⟩ := set
  cases contents with
  | pairs narrow listed =>
      rw [if_pos (hasNarrowAddresses_iff.mpr narrow), rangesAt_of_pairs fits listed contentsHeld]
      rfl
  | unread notNarrow skipped counted =>
      have stop : stopOfUnread offset header = offset + RangeHeader.size + skipped.length :=
        stopOfUnread_of_counted counted (Nat.lt_of_le_of_lt inside fits)
      rw [if_neg (mt hasNarrowAddresses_iff.mp notNarrow), stop]
      rfl

end RangeSet

end LineAtlas
