import LineAtlas.Proofs.Failures
import LineAtlas.Proofs.RangeSection.Boundaries
import Mathlib.Data.List.Chain

namespace LineAtlas

/-!
# How decoded sets are laid out

Whatever the bytes of a section are, the sets that are decoded follow one another from
its start, each as far after the one before as that one's ranges or length field say.
Decoding ends at the end of the section, or where no set can be read completely; only
that leaves a warning besides those of the address sizes, and it says that bytes are
missing. Headers and ranges are paid for with the bytes of the section.
-/

/-! ## Looks that fail for want of bytes -/

namespace Cursor

variable
  {cursor : Cursor}
  {α β : Type}

/-- If the look fails, then because the data would have to be longer. -/
def WantsBytes
    (cursor : Cursor)
    (look : Except ReadError α) :
    Prop :=
  ∀ cause,
    look = .error cause →
      ∃ expected subject,
        cause = .truncated expected cursor.size subject ∧ cursor.size < expected

theorem wantsBytes_ok (value : α) : cursor.WantsBytes (.ok value) := by
  intro cause failure
  cases failure

theorem WantsBytes.bind
    {first : Except ReadError α}
    {next : α → Except ReadError β}
    (firstWants : cursor.WantsBytes first)
    (nextWants : ∀ found, first = .ok found → cursor.WantsBytes (next found)) :
    cursor.WantsBytes (first >>= next) := by
  intro cause failure
  cases outcome : first with
  | error other =>
      rw [outcome] at failure
      cases failure
      exact firstWants cause outcome
  | ok found =>
      rw [outcome] at failure
      exact nextWants found outcome cause failure

/-- A failure that is passed on is for want of bytes if it was so before. -/
theorem WantsBytes.passOn
    {look : Except ReadError α}
    (wants : cursor.WantsBytes look)
    {cause : ReadError}
    (failed : look = .error cause) :
    cursor.WantsBytes (.error cause : Except ReadError β) := by
  intro other same
  cases same
  exact wants cause failed

theorem WantsBytes.map
    {look : Except ReadError α}
    (wants : cursor.WantsBytes look)
    (change : α → β) :
    cursor.WantsBytes (look.map change) := by
  intro cause failure
  exact wants cause (Reader.map_eq_error_iff.mp failure)

/-- A field whose end fits into 64 bits is missing only if the data ends before. -/
theorem wantsBytes_field
    {width offset : Nat}
    (room : offset + width < addressLimit)
    (subject : String)
    (ofNumber : Nat → α) :
    cursor.WantsBytes ((cursor.numberAt subject width offset).map ofNumber) := by
  refine WantsBytes.map ?_ ofNumber
  intro cause failure
  rw [numberAt, bytesAt, if_neg (Nat.not_le_of_lt room)] at failure
  split at failure
  · next short =>
      cases failure
      exact ⟨offset + width, subject, rfl, short⟩
  · cases failure

end Cursor

/-! ## Single sets -/

/-- The count of bytes from the start of a set to that of the next one. -/
def RangeSet.extent (set : RangeSet) : Nat :=
  if set.header.addressSize = 2 then
    12 + 4 * (set.ranges.length + 1)
  else
    max 12 (4 + set.header.length.toNat)

/-- What is warned of a set whose ranges are not read. -/
def RangeSet.unreadWarning (set : RangeSet) : Warning where
  sectionName := ".debug_aranges"
  offset := set.offset
  kind := .unsupportedAddressSize
  cause := .undecodedAddressSize set.header.addressSize

/-- A range of 16-bit numbers, of which one is not zero; its end fits into 64 bits. -/
structure AddressRange.Narrow (range : AddressRange) : Prop where
  notMark : ¬ (range.address = 0 ∧ range.length = 0)
  address_lt : range.address.toNat < 65536
  length_lt : range.length.toNat < 65536
  stop_eq : range.stop.toNat = range.address.toNat + range.length.toNat

/-- A pair is read as a range of 16-bit numbers. -/
theorem RangePair.narrow_range (pair : RangePair) : pair.range.Narrow := by
  have addressSmall : pair.address.toNat < 65536 := pair.address.toNat_lt
  have lengthSmall : pair.length.toNat < 65536 := pair.length.toNat_lt
  have unbounded :
      min (pair.address.toNat + pair.length.toNat) (addressLimit - 1) =
        pair.address.toNat + pair.length.toNat := by
    rw [addressLimit, UInt64.size]
    omega
  constructor
  · rintro ⟨addressZero, lengthZero⟩
    exact pair.notMark
      ⟨UInt16.toNat_inj.mp (congrArg UInt64.toNat addressZero),
        UInt16.toNat_inj.mp (congrArg UInt64.toNat lengthZero)⟩
  · exact addressSmall
  · exact lengthSmall
  · simp only [AddressRange.stop, range, UInt16.toNat_toUInt64, unbounded]
    apply UInt64.toNat_ofNat_of_lt'
    rw [UInt64.size]
    omega

namespace RangeSet

variable
  {cursor : Cursor}
  {offset stop : Nat}

/--
A set can be read completely: the section holds its header and, if addresses have two
bytes, pairs up to a pair of zeros.
-/
def StandsAt
    (cursor : Cursor)
    (offset : Nat) :
    Prop :=
  ∃ header : RangeHeader,
    cursor.Holds offset (header.bytes cursor.order) ∧
      (header.addressSize = 2 →
        ∃ listed : List RangePair,
          cursor.Holds (offset + RangeHeader.size)
            (listed.flatMap (·.bytes cursor.order) ++ RangePair.mark cursor.order))

/-- A set is read exactly where it can be read completely. -/
theorem exists_readAt_iff (fits : cursor.size < addressLimit) :
    (∃ found, readAt cursor offset = .ok found) ↔ StandsAt cursor offset := by
  constructor
  · rintro ⟨found, read⟩
    cases headerRead : RangeHeader.readAt cursor offset with
    | error cause =>
        rw [readAt, headerRead] at read
        cases read
    | ok header =>
        have headerHeld := (headerAt_eq_ok_iff fits).mp headerRead
        refine ⟨header, headerHeld, fun narrow => ?_⟩
        rw [readAt_of_header fits headerHeld, if_pos (hasNarrowAddresses_iff.mpr narrow)] at read
        obtain ⟨⟨ranges, stop⟩, pairsRead, -⟩ := Reader.map_eq_ok_iff.mp read
        obtain ⟨listed, held, -⟩ := exists_pairs_of_rangesAt fits pairsRead
        exact ⟨listed, held⟩
  · rintro ⟨header, headerHeld, pairsHeld⟩
    rw [readAt_of_header fits headerHeld]
    split
    · next narrow =>
        obtain ⟨listed, held⟩ := pairsHeld (hasNarrowAddresses_iff.mp narrow)
        rw [rangesAt_of_pairs fits listed held]
        exact ⟨_, rfl⟩
    · exact ⟨_, rfl⟩

/-- Pairs cannot be read only if the section ends before the pair of zeros. -/
theorem wantsBytes_rangesAt
    (room : cursor.size + 4 < addressLimit)
    (inside : offset ≤ cursor.size) :
    cursor.WantsBytes (rangesAt cursor offset) := by
  have field {start : Nat} (near : start ≤ cursor.size + 2) :
      cursor.WantsBytes (cursor.uint16At start) :=
    Cursor.wantsBytes_field (by omega) "u16" UInt16.ofNat
  fun_induction rangesAt cursor offset with
  | case1 offset cause failed =>
      exact (field (by omega)).passOn failed
  | case2 offset address addressRead cause failed =>
      exact (field (by omega)).passOn failed
  | case3 offset address addressRead length lengthRead zeros =>
      exact Cursor.wantsBytes_ok _
  | case4 offset address addressRead length lengthRead pair cause failed inductionHypothesis =>
      have within := Cursor.le_size_of_uint16At lengthRead
      exact (inductionHypothesis (by omega)).passOn failed
  | case5 offset address addressRead length lengthRead pair later last rest
      inductionHypothesis =>
      exact Cursor.wantsBytes_ok _

/-- A header that the section holds ends inside it. -/
theorem le_size_of_header
    {header : RangeHeader}
    (held : cursor.Holds offset (header.bytes cursor.order)) :
    offset + RangeHeader.size ≤ cursor.size := by
  have nonempty : header.bytes cursor.order ≠ [] := by
    apply List.ne_nil_of_length_pos
    rw [RangeHeader.length_bytes, RangeHeader.size]
    omega
  have inside := held.le_size nonempty
  rwa [RangeHeader.length_bytes] at inside

/-- A set cannot be read only if the section ends before it does. -/
theorem wantsBytes_readAt
    (room : cursor.size + RangeHeader.size ≤ addressLimit)
    (inside : offset < cursor.size) :
    cursor.WantsBytes (readAt cursor offset) := by
  rw [RangeHeader.size] at room
  have field {width start : Nat} (near : start + width ≤ offset + 12) {α : Type}
      (subject : String) (ofNumber : Nat → α) :
      cursor.WantsBytes ((cursor.numberAt subject width start).map ofNumber) :=
    Cursor.wantsBytes_field (by omega) subject ofNumber
  have headerWants : cursor.WantsBytes (RangeHeader.readAt cursor offset) :=
    (field (by omega) "u32" UInt32.ofNat).bind fun _ _ =>
      (field (by omega) "u16" UInt16.ofNat).bind fun _ _ =>
        (field (by omega) "u32" UInt32.ofNat).bind fun _ _ =>
          (field (by omega) "u8" UInt8.ofNat).bind fun _ _ =>
            (field (by omega) "u8" UInt8.ofNat).bind fun _ _ =>
              Cursor.wantsBytes_ok _
  cases headerRead : RangeHeader.readAt cursor offset with
  | error cause =>
      rw [readAt, headerRead]
      exact headerWants.passOn headerRead
  | ok header =>
      have fits : cursor.size < addressLimit := by omega
      have headerHeld := (headerAt_eq_ok_iff fits).mp headerRead
      rw [readAt_of_header fits headerHeld]
      split
      · exact (wantsBytes_rangesAt (by omega) (le_size_of_header headerHeld)).map _
      · exact Cursor.wantsBytes_ok _

/-- What is known of a set that was read, and of the offset where the next one is looked for. -/
structure ReadFrom
    (cursor : Cursor)
    (offset : Nat)
    (set : RangeSet)
    (stop : Nat) :
    Prop where
  start : set.offset = offset
  narrow : ∀ range ∈ set.ranges, range.Narrow
  unread : set.header.addressSize ≠ 2 → set.ranges = []
  inside : offset + 12 + 4 * set.ranges.length ≤ cursor.size
  /-- The next set is looked for where the extent of this one ends, unless both are past the end. -/
  next : stop = offset + set.extent ∨ cursor.size ≤ stop ∧ cursor.size ≤ offset + set.extent

/-- The next set starts behind the header and the ranges of this one. -/
theorem ReadFrom.le_extent
    {set : RangeSet}
    (here : ReadFrom cursor offset set stop) :
    12 + 4 * set.ranges.length ≤ set.extent := by
  rw [extent]
  split
  · omega
  · next notNarrow =>
      rw [here.unread notNarrow, List.length_nil]
      omega

theorem readFrom_of_readAt
    (room : cursor.size + RangeHeader.size ≤ addressLimit)
    {set : RangeSet}
    (read : readAt cursor offset = .ok (set, stop)) :
    ReadFrom cursor offset set stop := by
  rw [RangeHeader.size] at room
  have fits : cursor.size < addressLimit := by omega
  cases headerRead : RangeHeader.readAt cursor offset with
  | error cause =>
      rw [readAt, headerRead] at read
      cases read
  | ok header =>
      have headerHeld := (headerAt_eq_ok_iff fits).mp headerRead
      have headerInside := le_size_of_header headerHeld
      rw [RangeHeader.size] at headerInside
      rw [readAt_of_header fits headerHeld] at read
      split at read
      · next narrow =>
          rw [hasNarrowAddresses_iff] at narrow
          obtain ⟨⟨ranges, last⟩, pairsRead, same⟩ := Reader.map_eq_ok_iff.mp read
          cases same
          obtain ⟨listed, held, rfl, rfl⟩ := exists_pairs_of_rangesAt fits pairsRead
          have pairsLength :
              (listed.flatMap (·.bytes cursor.order) ++ RangePair.mark cursor.order).length =
                4 * (listed.length + 1) := by
            rw [List.length_append, RangePair.length_listed, RangePair.length_mark, Nat.mul_succ]
          have pairsInside := held.le_size (List.ne_nil_of_length_pos (by omega))
          rw [pairsLength, RangeHeader.size] at *
          constructor
          · rfl
          · intro range member
            obtain ⟨pair, -, rfl⟩ := List.mem_map.mp member
            exact pair.narrow_range
          · intro other
            exact absurd narrow other
          · rw [List.length_map]
            omega
          · left
            rw [extent, if_pos narrow, List.length_map]
            omega
      · next notNarrow =>
          rw [hasNarrowAddresses_iff] at notNarrow
          cases read
          constructor
          · rfl
          · simp
          · intro _
            rfl
          · exact headerInside
          · rw [extent, if_neg notNarrow, stopOfUnread, RangeHeader.size]
            dsimp only
            generalize addressLimit = limit at room fits
            omega

end RangeSet

/-! ## Sections -/

/-- An offset of a pair, and the offset of the pair before it. -/
def RangeSet.PairFollows
    (cursor : Cursor)
    (after before : Nat) :
    Prop :=
  ∃ address length,
    cursor.uint16At before = .ok address ∧
      cursor.uint16At (before + 2) = .ok length ∧
      after = before + 4

/-- Pairs come to an end. -/
theorem RangeSet.wellFounded_pairFollows (cursor : Cursor) :
    WellFounded (PairFollows cursor) := by
  refine Subrelation.wf ?_ (measure fun offset => cursor.size - offset).wf
  rintro after before ⟨address, length, -, lengthRead, rfl⟩
  have inside := Cursor.le_size_of_uint16At lengthRead
  show cursor.size - (before + 4) < cursor.size - before
  omega

namespace RangeSection

/-- An offset where a set is looked for, and the offset of the set before it. -/
def SetFollows
    (cursor : Cursor)
    (after before : Nat) :
    Prop :=
  before < cursor.size ∧ ∃ set, RangeSet.readAt cursor before = .ok (set, after)

/-- Sets come to an end. -/
theorem wellFounded_setFollows (cursor : Cursor) :
    WellFounded (SetFollows cursor) := by
  refine Subrelation.wf ?_ (measure fun offset => cursor.size - offset).wf
  rintro after before ⟨inside, set, read⟩
  have further := RangeSet.lt_stop_of_readAt read
  show cursor.size - after < cursor.size - before
  omega

/-- Where the set after these would start, if the first one starts at `offset`. -/
def stopFrom
    (offset : Nat)
    (sets : List RangeSet) :
    Nat :=
  (sets.getLast?.map fun last => last.offset + last.extent).getD offset

theorem stopFrom_cons
    (offset : Nat)
    (set : RangeSet)
    (later : List RangeSet) :
    stopFrom offset (set :: later) = stopFrom (set.offset + set.extent) later := by
  rw [stopFrom, stopFrom, List.getLast?_cons]
  cases later.getLast? <;> rfl

/-- What is warned of at the offset where decoding ends. -/
inductive EndsAt (cursor : Cursor) (stop : Nat) : List Warning → Prop where
  /-- The section ends there, too. -/
  | complete (ended : cursor.size ≤ stop) : EndsAt cursor stop []
  /-- The section goes on, but not for as long as it takes to read a set. -/
  | cut
      (inside : stop < cursor.size)
      (incomplete : ¬ RangeSet.StandsAt cursor stop)
      (expected : Nat)
      (subject : String)
      (short : cursor.size < expected) :
      EndsAt cursor stop
        [{ sectionName := ".debug_aranges"
           offset := stop
           kind := .truncatedSection
           cause := .failure (.truncated expected cursor.size subject) }]

/-- The sets and warnings of a section from `offset` on, in their places. -/
structure LaidOut
    (cursor : Cursor)
    (offset : Nat)
    (decoded : RangeSection) :
    Prop where
  first : ∀ set ∈ decoded.sets.head?, set.offset = offset
  next : decoded.sets.IsChain fun set later => later.offset = set.offset + set.extent
  narrow : ∀ set ∈ decoded.sets, ∀ range ∈ set.ranges, range.Narrow
  unread : ∀ set ∈ decoded.sets, set.header.addressSize ≠ 2 → set.ranges = []
  warned :
    ∃ last,
      EndsAt cursor (stopFrom offset decoded.sets) last ∧
        decoded.warnings =
          (decoded.sets.filter (·.header.addressSize ≠ 2)).map (·.unreadWarning) ++ last
  paid :
    12 * decoded.sets.length + 4 * (decoded.sets.map (·.ranges.length)).sum ≤
      cursor.size - offset

/-- The warning that a set leaves is that of its address size. -/
theorem toList_warning? (set : RangeSet) :
    set.warning?.toList = ([set].filter (·.header.addressSize ≠ 2)).map (·.unreadWarning) := by
  by_cases narrow : set.header.addressSize = 2
  · simp [RangeSet.warning?, RangeSet.hasNarrowAddresses, narrow]
  · simp [RangeSet.warning?, RangeSet.hasNarrowAddresses, narrow, RangeSet.unreadWarning,
      rangeSectionName]

/-- Past the end there is nothing. -/
theorem laidOut_of_size_le
    {cursor : Cursor}
    {offset : Nat}
    (ended : cursor.size ≤ offset) :
    LaidOut cursor offset { sets := [], warnings := [] } where
  first := by simp
  next := .nil
  narrow := by simp
  unread := by simp
  warned := ⟨[], .complete ended, rfl⟩
  paid := Nat.zero_le _

/-- Where no set can be read, that is warned of and nothing else. -/
theorem laidOut_of_error
    {cursor : Cursor}
    {offset : Nat}
    {cause : ReadError}
    (room : cursor.size + RangeHeader.size ≤ addressLimit)
    (inside : offset < cursor.size)
    (failed : RangeSet.readAt cursor offset = .error cause) :
    LaidOut cursor offset
      { sets := []
        warnings := [.ofError rangeSectionName offset .malformedHeader cause] } where
  first := by simp
  next := .nil
  narrow := by simp
  unread := by simp
  warned := by
    have fits : cursor.size < addressLimit := by
      rw [RangeHeader.size] at room
      omega
    have incomplete : ¬ RangeSet.StandsAt cursor offset := by
      rw [← RangeSet.exists_readAt_iff fits]
      rintro ⟨found, read⟩
      rw [failed] at read
      cases read
    obtain ⟨expected, subject, rfl, short⟩ := RangeSet.wantsBytes_readAt room inside cause failed
    exact ⟨_, .cut inside incomplete expected subject short, rfl⟩
  paid := Nat.zero_le _

/-- A set that is read goes before the sets from its end on. -/
theorem LaidOut.cons
    {cursor : Cursor}
    {offset stop : Nat}
    {set : RangeSet}
    {later : RangeSection}
    (here : RangeSet.ReadFrom cursor offset set stop)
    (rest : LaidOut cursor (offset + set.extent) later) :
    LaidOut cursor offset
      { sets := set :: later.sets
        warnings := set.warning?.toList ++ later.warnings } where
  first := by
    rintro other same
    cases same
    exact here.start
  next := by
    refine rest.next.cons fun other isNext => ?_
    rw [rest.first other isNext, here.start]
  narrow := List.forall_mem_cons.mpr ⟨here.narrow, rest.narrow⟩
  unread := List.forall_mem_cons.mpr ⟨here.unread, rest.unread⟩
  warned := by
    obtain ⟨last, ending, warnings⟩ := rest.warned
    refine ⟨last, ?_, ?_⟩
    · rwa [stopFrom_cons, here.start]
    · rw [warnings, toList_warning?, ← List.append_assoc, ← List.map_append, ← List.filter_append]
      rfl
  paid := by
    have laterPaid := rest.paid
    have inside := here.inside
    simp only [List.length_cons, List.map_cons, List.sum_cons]
    have long := here.le_extent
    omega

theorem laidOut_ofOffset
    {cursor : Cursor}
    {offset : Nat}
    (room : cursor.size + RangeHeader.size ≤ addressLimit) :
    LaidOut cursor offset (ofOffset cursor offset) := by
  fun_induction ofOffset cursor offset with
  | case1 offset ended =>
      exact laidOut_of_size_le ended
  | case2 offset goesOn cause failed =>
      exact laidOut_of_error room (Nat.not_le.mp goesOn) failed
  | case3 offset goesOn set stop read later inductionHypothesis =>
      have here := RangeSet.readFrom_of_readAt room read
      apply LaidOut.cons here
      rcases here.next with rfl | ⟨ended, extentEnds⟩
      · exact inductionHypothesis
      · -- The end of the set does not fit into 64 bits; but then there is nothing behind it.
        rw [show later = _ from ofOffset_of_size_le ended]
        exact laidOut_of_size_le extentEnds

/-- What holds of every section of address ranges that is decoded. -/
structure Accounted
    (order : ByteOrder)
    (data : Bytes)
    (decoded : RangeSection) :
    Prop extends LaidOut (.ofBytes order data) 0 decoded where
  /-- The pairs of a set come to an end, -/
  pairs_end : WellFounded (RangeSet.PairFollows (.ofBytes order data))
  /-- and so do the sets. -/
  sets_end : WellFounded (SetFollows (.ofBytes order data))

/--
Every section is decoded to sets that follow one another from its start, up to its end or
to a set that is cut short.

No memory is so full that a header after the section would not fit into it.
-/
theorem accounted_decode
    (order : ByteOrder)
    {data : Bytes}
    (room : data.length + RangeHeader.size ≤ addressLimit) :
    Accounted order data (decode order data) where
  toLaidOut := laidOut_ofOffset room
  pairs_end := RangeSet.wellFounded_pairFollows _
  sets_end := wellFounded_setFollows _

/-- A set with one pair, a set whose ranges are not read, and a header that is cut short. -/
def cutSets : Bytes :=
  [99, 0, 0, 0, 2, 0, 0, 0, 0, 0, 2, 0] ++ [0, 0, 5, 0, 0, 0, 0, 0]
    ++ [11, 0, 0, 0, 2, 0, 64, 0, 0, 0, 4, 0] ++ [0, 0, 0]
    ++ [1, 2]

/-- Both sets, and the place where the header is cut short. -/
theorem accounted_decode_cutSets :
    cutSets.length + RangeHeader.size ≤ addressLimit ∧
      Accounted .little cutSets
        { sets :=
            [{ offset := 0
               header :=
                 { length := 99, version := 2, infoOffset := 0, addressSize := 2,
                   segmentSize := 0 }
               ranges := [{ address := 0, length := 5 }] },
              { offset := 20
                header :=
                  { length := 11, version := 2, infoOffset := 64, addressSize := 4,
                    segmentSize := 0 }
                ranges := [] }]
          warnings :=
            [{ sectionName := ".debug_aranges"
               offset := 20
               kind := .unsupportedAddressSize
               cause := .undecodedAddressSize 4 },
              { sectionName := ".debug_aranges"
                offset := 35
                kind := .truncatedSection
                cause := .failure (.truncated 39 37 "u32") }] } := by
  have room : cutSets.length + RangeHeader.size ≤ addressLimit := by
    decide
  refine ⟨room, ?_⟩
  refine Eq.subst (motive := Accounted .little cutSets) ?_ (accounted_decode .little room)
  decide +kernel

end RangeSection

end LineAtlas
