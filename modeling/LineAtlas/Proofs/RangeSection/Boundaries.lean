import LineAtlas.Proofs.RangeSection.Continuation

namespace LineAtlas

/-!
# Where decoding resumes after a set

The header of a set says how many bytes belong to it. That decides where the next set
starts if addresses have another size than two bytes, since ranges are not read then.
The ranges of a set with two-byte addresses go on up to a pair of zeros, wherever the
header says that the set ends. So decoding resumes after the bytes that a header counts
if the set is of the first kind, and otherwise if these bytes are those of complete
sets: where complete sets cover them, it resumes after no other bytes. Sets that the
section cuts are not considered here.
-/

namespace RangeSection

/-- The bytes are those of complete sets, one after the other. -/
def IsWritten
    (order : ByteOrder)
    (front : Bytes) :
    Prop :=
  ∃ sets : List WrittenRangeSet, front = bytes order sets

/-- Complete sets stand at the start of the section and reach to the end of `front`, or past it. -/
def IsCovered
    (order : ByteOrder)
    (front back : Bytes) :
    Prop :=
  ∃ sets : List WrittenRangeSet,
    bytes order sets <+: front ++ back ∧ front.length ≤ (bytes order sets).length

/-- The sets in `front` and those in `back` are kept apart. -/
structure ResumesAfter
    (order : ByteOrder)
    (front back : Bytes) :
    Prop where
  /-- The sets after `front` are those of `back` alone. -/
  later :
    (decode order (front ++ back)).sets.filter (front.length ≤ ·.offset) =
      (decode order back).sets.map (·.behind front.length)
  /-- A pair of a set that starts in `front` ends there, too. -/
  within :
    ∀ set ∈ (decode order (front ++ back)).sets, set.offset < front.length →
      ∀ index < set.ranges.length,
        set.offset + RangeHeader.size + 4 * index + 4 ≤ front.length

/-! ## Written sets keep to their bytes -/

/-- The header and the pairs of a written set lie inside its bytes. -/
theorem length_ranges_le
    (order : ByteOrder)
    (set : WrittenRangeSet) :
    RangeHeader.size + 4 * set.contents.ranges.length ≤ (set.bytes order).length := by
  obtain ⟨header, contents⟩ := set
  rw [WrittenRangeSet.length_bytes]
  cases contents with
  | pairs narrow listed =>
      simp only [RangeContents.ranges, RangeContents.bytes, List.length_map, List.length_append,
        RangePair.length_listed]
      omega
  | unread notNarrow skipped counted =>
      simp [RangeContents.ranges]

/-- Written sets and their pairs lie inside the bytes of all sets. -/
theorem inside_of_mem_ofWritten
    {order : ByteOrder}
    {offset : Nat}
    {sets : List WrittenRangeSet}
    {set : RangeSet}
    (member : set ∈ (ofWritten order offset sets).sets) :
    offset ≤ set.offset ∧
      set.offset + RangeHeader.size + 4 * set.ranges.length ≤
        offset + (bytes order sets).length := by
  induction sets generalizing offset with
  | nil =>
      cases member
  | cons first rest inductionHypothesis =>
      rw [bytes_cons, List.length_append]
      rcases List.mem_cons.mp member with rfl | later
      · have inside := length_ranges_le order first
        simp only [WrittenRangeSet.setAt]
        omega
      · have inside := inductionHypothesis later
        omega

/-- Decoding resumes after written sets. -/
theorem resumesAfter_of_isWritten
    {order : ByteOrder}
    {front back : Bytes}
    (room : (front ++ back).length + RangeHeader.size ≤ addressLimit)
    (written : IsWritten order front) :
    ResumesAfter order front back := by
  obtain ⟨sets, rfl⟩ := written
  have decoded := decode_bytes order sets back room
  rw [ofOffset_length order room] at decoded
  have before {set : RangeSet} (member : set ∈ (ofWritten order 0 sets).sets) :=
    inside_of_mem_ofWritten member
  rw [RangeHeader.size] at before
  constructor
  · have noneBefore :
        (ofWritten order 0 sets).sets.filter ((bytes order sets).length ≤ ·.offset) = [] := by
      rw [List.filter_eq_nil_iff]
      intro set member
      have inside := before member
      simp only [decide_eq_true_eq]
      omega
    have allAfter :
        ((decode order back).behind (bytes order sets).length).sets.filter
            ((bytes order sets).length ≤ ·.offset) =
          ((decode order back).behind (bytes order sets).length).sets := by
      rw [List.filter_eq_self]
      intro set member
      obtain ⟨alone, -, rfl⟩ := List.mem_map.mp member
      simp [RangeSet.behind]
    rw [decoded, sets_append, List.filter_append, noneBefore, allAfter]
    rfl
  · intro set member starts index indexInside
    rw [decoded, sets_append, List.mem_append] at member
    rcases member with inFront | inBack
    · have inside := before inFront
      rw [RangeHeader.size]
      omega
    · obtain ⟨alone, -, rfl⟩ := List.mem_map.mp inBack
      simp only [RangeSet.behind] at starts
      omega

/-- Bytes that a header counts, with addresses of another size than two bytes, are a written set. -/
theorem isWritten_of_notNarrow
    {order : ByteOrder}
    {front : Bytes}
    (headerFits : RangeHeader.size ≤ front.length)
    (counted : order.number (front.take 4) + 4 = front.length)
    (notNarrow : front[10]? ≠ some 2) :
    IsWritten order front := by
  have headerInside : 0 + RangeHeader.size ≤ (Cursor.ofBytes order front).size := by
    simpa [Cursor.ofBytes, Cursor.size] using headerFits
  obtain ⟨header, skipped, split⟩ := RangeSet.exists_header headerInside
  replace split : header.bytes order ++ skipped = front := split
  subst split
  have lengthField :
      (header.bytes order ++ skipped).take 4 = order.field 4 header.length.toNat := by
    rw [RangeHeader.bytes, List.append_assoc, List.take_left' (ByteOrder.length_field _ _ _)]
  rw [lengthField, ByteOrder.number_field order header.length.toNat_lt, List.length_append,
    RangeHeader.length_bytes, RangeHeader.size] at counted
  have other : header.addressSize ≠ 2 := by
    intro narrow
    apply notNarrow
    simp [RangeHeader.bytes, List.getElem?_append, narrow]
  refine ⟨[⟨header, .unread other skipped (by omega)⟩], ?_⟩
  rw [bytes_cons]
  exact (List.append_nil _).symm

/-! ## A set at a boundary -/

/-- A set that is read stands at the offset where it was looked for. -/
theorem offset_of_readAt
    {cursor : Cursor}
    {offset stop : Nat}
    {set : RangeSet}
    (read : RangeSet.readAt cursor offset = .ok (set, stop)) :
    set.offset = offset := by
  rw [RangeSet.readAt] at read
  split at read
  · cases read
  · split at read
    · obtain ⟨_, -, same⟩ := Reader.map_eq_ok_iff.mp read
      cases same
      rfl
    · cases read
      rfl

/-- Sets that are decoded from an offset on start there or later. -/
theorem le_offset_of_mem_ofOffset
    {cursor : Cursor}
    {offset : Nat}
    {set : RangeSet}
    (member : set ∈ (ofOffset cursor offset).sets) :
    offset ≤ set.offset := by
  fun_induction ofOffset cursor offset with
  | case1 offset ended =>
      cases member
  | case2 offset goesOn cause failed =>
      cases member
  | case3 offset goesOn first stop read later inductionHypothesis =>
      rcases List.mem_cons.mp member with rfl | laterMember
      · exact (offset_of_readAt read).ge
      · exact (RangeSet.lt_stop_of_readAt read).le.trans (inductionHypothesis laterMember)

/-- The first set that is decoded from an offset on starts there. -/
theorem exists_set_at_start
    {cursor : Cursor}
    {offset : Nat}
    (found : (ofOffset cursor offset).sets ≠ []) :
    ∃ set ∈ (ofOffset cursor offset).sets, set.offset = offset := by
  fun_cases ofOffset cursor offset with
  | case1 ended =>
      simp_all [ofOffset_of_size_le]
  | case2 goesOn cause failed =>
      simp_all [ofOffset_of_error]
  | case3 goesOn first stop read later =>
      exact ⟨first, List.mem_cons_self, offset_of_readAt read⟩

/-- A written set starts where the bytes of those before it end. -/
theorem exists_before_of_mem_ofWritten
    {order : ByteOrder}
    {offset : Nat}
    {sets : List WrittenRangeSet}
    {set : RangeSet}
    (member : set ∈ (ofWritten order offset sets).sets) :
    ∃ before,
      before <+: sets ∧ set.offset = offset + (bytes order before).length := by
  induction sets generalizing offset with
  | nil =>
      cases member
  | cons first rest inductionHypothesis =>
      rcases List.mem_cons.mp member with rfl | later
      · exact ⟨[], List.nil_prefix, rfl⟩
      · obtain ⟨before, inRest, start⟩ := inductionHypothesis later
        refine ⟨first :: before, List.cons_prefix_cons.mpr ⟨rfl, inRest⟩, ?_⟩
        rw [start, bytes_cons, List.length_append, Nat.add_assoc]

/-- Up to the end of complete sets, a set starts where the bytes of the first few of them end. -/
theorem exists_before_of_mem_decode
    {order : ByteOrder}
    {sets : List WrittenRangeSet}
    {tail : Bytes}
    (room : (bytes order sets ++ tail).length + RangeHeader.size ≤ addressLimit)
    {set : RangeSet}
    (member : set ∈ (decode order (bytes order sets ++ tail)).sets)
    (starts : set.offset ≤ (bytes order sets).length) :
    ∃ before, before <+: sets ∧ set.offset = (bytes order before).length := by
  rw [decode_bytes order sets tail room, sets_append] at member
  rcases List.mem_append.mp member with written | after
  · obtain ⟨before, placed, start⟩ := exists_before_of_mem_ofWritten written
    exact ⟨before, placed, by rw [start, Nat.zero_add]⟩
  · exact ⟨sets, List.prefix_rfl, starts.antisymm (le_offset_of_mem_ofOffset after)⟩

/-- If complete sets cover some bytes and decoding resumes after these, they are complete sets. -/
theorem isWritten_of_resumesAfter
    {order : ByteOrder}
    {front back : Bytes}
    (room : (front ++ back).length + RangeHeader.size ≤ addressLimit)
    (covered : IsCovered order front back)
    (found : (decode order back).sets ≠ [])
    (resumes : ResumesAfter order front back) :
    IsWritten order front := by
  obtain ⟨sets, ⟨tail, split⟩, reaches⟩ := covered
  obtain ⟨first, member, start⟩ := exists_set_at_start found
  have moved : first.behind front.length ∈ (decode order back).sets.map (·.behind front.length) :=
    List.mem_map_of_mem member
  rw [← resumes.later, ← split] at moved
  have boundary : (first.behind front.length).offset = front.length := by
    rw [RangeSet.behind, start, Nat.add_zero]
  obtain ⟨before, placed, ending⟩ :=
    exists_before_of_mem_decode (split ▸ room) (List.mem_filter.mp moved).1
      (boundary.trans_le reaches)
  refine ⟨before, ?_⟩
  have whole : bytes order before <+: front ++ back := by
    obtain ⟨later, rfl⟩ := placed
    rw [← split, bytes, bytes, List.flatMap_append, List.append_assoc]
    exact List.prefix_append _ _
  rw [List.prefix_iff_eq_take.mp whole, ← ending, boundary, List.take_left]

/--
Decoding resumes after bytes that a header counts if addresses do not have two bytes,
and whenever these are the bytes of complete sets. Where complete sets cover them and
there is a set to resume at, it resumes after such bytes only.
-/
theorem resumesAfter_counted
    (order : ByteOrder)
    {front back : Bytes}
    (headerFits : RangeHeader.size ≤ front.length)
    (counted : order.number (front.take 4) + 4 = front.length)
    (room : (front ++ back).length + RangeHeader.size ≤ addressLimit) :
    (front[10]? ≠ some 2 → ResumesAfter order front back) ∧
      (IsWritten order front → ResumesAfter order front back) ∧
      (IsCovered order front back →
        (decode order back).sets ≠ [] →
        ResumesAfter order front back →
        IsWritten order front) := by
  refine ⟨?_, resumesAfter_of_isWritten room, isWritten_of_resumesAfter room⟩
  intro notNarrow
  exact resumesAfter_of_isWritten room (isWritten_of_notNarrow headerFits counted notNarrow)

/-- A set without ranges, which is written with two-byte addresses. -/
def emptySet : Bytes :=
  [12, 0, 0, 0, 2, 0, 0, 0, 0, 0, 2, 0, 0, 0, 0, 0]

/-- A set with four-byte addresses and three bytes, which are not read. -/
def unreadSet : Bytes :=
  [11, 0, 0, 0, 2, 0, 0, 0, 0, 0, 4, 0, 7, 7, 7]

/-- Decoding resumes after a set of either kind. -/
theorem resumesAfter_counted_bothKinds :
    RangeHeader.size ≤ unreadSet.length ∧
      ByteOrder.number .little (unreadSet.take 4) + 4 = unreadSet.length ∧
      ResumesAfter .little unreadSet emptySet ∧
      RangeHeader.size ≤ emptySet.length ∧
      ByteOrder.number .little (emptySet.take 4) + 4 = emptySet.length ∧
      IsWritten .little emptySet ∧
      ResumesAfter .little emptySet unreadSet := by
  have written : IsWritten .little emptySet := by
    refine ⟨[{
      header := {
        length := 12, version := 2, infoOffset := 0, addressSize := 2, segmentSize := 0 }
      contents := .pairs rfl [] }], ?_⟩
    decide
  have afterUnread : ResumesAfter .little unreadSet emptySet :=
    (resumesAfter_counted .little (by decide) (by decide) (by decide)).1 (by decide)
  have afterWritten : ResumesAfter .little emptySet unreadSet :=
    (resumesAfter_counted .little (by decide) (by decide) (by decide)).2.1 written
  exact ⟨by decide, by decide, afterUnread, by decide, by decide, written, afterWritten⟩

/-- A header that counts one pair, and that pair without a pair of zeros after it. -/
def unterminatedSet : Bytes :=
  [12, 0, 0, 0, 2, 0, 0, 0, 0, 0, 2, 0, 0, 68, 2, 0]

/--
With two-byte addresses, the count of a header does not decide where the next set starts:
pairs are read beyond it, up to a pair of zeros.
-/
theorem not_resumesAfter_unterminatedSet :
    ¬ ∀ (order : ByteOrder) (front back : Bytes),
      RangeHeader.size ≤ front.length →
      order.number (front.take 4) + 4 = front.length →
      (front ++ back).length + RangeHeader.size ≤ addressLimit →
      ResumesAfter order front back := by
  intro always
  have resumes :=
    always .little unterminatedSet emptySet (by decide) (by decide) (by decide)
  have lost :
      (decode .little (unterminatedSet ++ emptySet)).sets.filter
          (unterminatedSet.length ≤ ·.offset) ≠
        (decode .little emptySet).sets.map (·.behind unterminatedSet.length) := by
    decide +kernel
  exact lost resumes.later

end RangeSection

end LineAtlas
