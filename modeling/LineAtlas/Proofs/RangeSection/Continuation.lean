import LineAtlas.Proofs.RangeSection.Behind

namespace LineAtlas

/-!
# Written sets and what follows them

Whatever follows written sets, these are read as they were written, each at its
offset, and what follows is read as it would be alone. A pair ends its set only if
both of its numbers are zero. A set whose ranges are not read ends where its header
says.
-/

namespace RangeSection

/-- What two parts of a section gave, one after the other. -/
instance : Append RangeSection where
  append near far :=
    { sets := near.sets ++ far.sets
      warnings := near.warnings ++ far.warnings }

@[simp] theorem sets_append (near far : RangeSection) :
    (near ++ far).sets = near.sets ++ far.sets :=
  rfl

@[simp] theorem warnings_append (near far : RangeSection) :
    (near ++ far).warnings = near.warnings ++ far.warnings :=
  rfl

/-- The bytes of written sets, one after the other. -/
def bytes
    (order : ByteOrder)
    (sets : List WrittenRangeSet) :
    Bytes :=
  sets.flatMap (·.bytes order)

theorem bytes_cons
    (order : ByteOrder)
    (set : WrittenRangeSet)
    (rest : List WrittenRangeSet) :
    bytes order (set :: rest) = set.bytes order ++ bytes order rest :=
  List.flatMap_cons

/-- What written sets give whose bytes start at the offset. -/
def ofWritten
    (order : ByteOrder)
    (offset : Nat) :
    List WrittenRangeSet → RangeSection
  | [] => { sets := [], warnings := [] }
  | set :: rest =>
      let later := ofWritten order (offset + (set.bytes order).length) rest
      { sets := set.setAt offset :: later.sets
        warnings := set.warningsAt offset ++ later.warnings }

/-- Written sets are read one after the other, and reading goes on after them. -/
theorem ofOffset_of_written
    {cursor : Cursor}
    {offset : Nat}
    (fits : cursor.size < addressLimit)
    (sets : List WrittenRangeSet)
    (held : cursor.Holds offset (bytes cursor.order sets)) :
    ofOffset cursor offset =
      ofWritten cursor.order offset sets ++
        ofOffset cursor (offset + (bytes cursor.order sets).length) := by
  induction sets generalizing offset with
  | nil =>
      rfl
  | cons set rest inductionHypothesis =>
      rw [bytes_cons] at held
      obtain ⟨setHeld, restHeld⟩ := Cursor.holds_append.mp held
      have inside : offset < cursor.size := by
        have ending := setHeld.le_size (set.bytes_ne_nil cursor.order)
        have nonempty := List.length_pos_iff.mpr (set.bytes_ne_nil cursor.order)
        omega
      rw [ofOffset_of_set inside (RangeSet.readAt_of_written fits set setHeld),
        inductionHypothesis restHeld, bytes_cons, List.length_append, ← Nat.add_assoc,
        WrittenRangeSet.warning?_setAt]
      show _ = RangeSection.mk _ _
      simp [ofWritten]

/-- Bytes after the front of a section are decoded as they would be alone, and move. -/
theorem ofOffset_length
    (order : ByteOrder)
    {front back : Bytes}
    (room : (front ++ back).length + RangeHeader.size ≤ addressLimit) :
    ofOffset (.ofBytes order (front ++ back)) front.length =
      (decode order back).behind front.length := by
  have roomBehind :
      front.length + (Cursor.ofBytes order back).size + RangeHeader.size ≤ addressLimit := by
    rwa [Cursor.size, Cursor.ofBytes, ← List.length_append]
  have moved :
      ofOffset ((Cursor.ofBytes order back).withFront front) (front.length + 0) =
        (decode order back).behind front.length :=
    ofOffset_behind front roomBehind
  exact moved

/-- Written sets at the front of a section are decoded as they were written. -/
theorem decode_bytes
    (order : ByteOrder)
    (sets : List WrittenRangeSet)
    (back : Bytes)
    (room : (bytes order sets ++ back).length + RangeHeader.size ≤ addressLimit) :
    decode order (bytes order sets ++ back) =
      ofWritten order 0 sets ++
        ofOffset (.ofBytes order (bytes order sets ++ back)) (bytes order sets).length := by
  have fits : (Cursor.ofBytes order (bytes order sets ++ back)).size < addressLimit :=
    Nat.lt_of_lt_of_le (Nat.lt_add_of_pos_right (by decide)) room
  have held :
      (Cursor.ofBytes order (bytes order sets ++ back)).Holds 0 (bytes order sets) :=
    List.prefix_append _ _
  have written := ofOffset_of_written fits sets held
  rwa [Nat.zero_add] at written

/--
Written sets are decoded as they were written, whatever follows them, and what follows
is decoded as it would be alone.

No memory is so full that a header after the section would not fit into it.
-/
theorem decode_writtenSets
    (order : ByteOrder)
    (sets : List WrittenRangeSet)
    (back : Bytes)
    (room : (bytes order sets ++ back).length + RangeHeader.size ≤ addressLimit) :
    decode order (bytes order sets ++ back) =
      ofWritten order 0 sets ++
        (decode order back).behind (bytes order sets).length := by
  rw [decode_bytes order sets back room, ofOffset_length order room]

/-- Pairs of which one number is zero, and then a set whose ranges are not read. -/
def mixedSets : List WrittenRangeSet :=
  [{ header :=
       { length := 99, version := 2, infoOffset := 0, addressSize := 2, segmentSize := 0 }
     contents :=
       .pairs rfl
         [{ address := 0, length := 5, notMark := by decide },
           { address := 7, length := 0, notMark := by decide }] },
    { header :=
        { length := 11, version := 2, infoOffset := 64, addressSize := 4, segmentSize := 0 }
      contents := .unread (by decide) [0, 0, 0] rfl }]

/-- Both sets of `mixedSets` before a cut header. -/
theorem decode_writtenSets_mixedSets :
    (bytes .little mixedSets ++ [1, 2]).length + RangeHeader.size ≤ addressLimit ∧
      decode .little (bytes .little mixedSets ++ [1, 2]) =
        { sets :=
            [{ offset := 0
               header :=
                 { length := 99, version := 2, infoOffset := 0, addressSize := 2,
                   segmentSize := 0 }
               ranges := [{ address := 0, length := 5 }, { address := 7, length := 0 }] },
              { offset := 24
                header :=
                  { length := 11, version := 2, infoOffset := 64, addressSize := 4,
                    segmentSize := 0 }
                ranges := [] }]
          warnings :=
            [{ sectionName := ".debug_aranges"
               offset := 24
               kind := .unsupportedAddressSize
               cause := .undecodedAddressSize 4 },
              { sectionName := ".debug_aranges"
                offset := 39
                kind := .truncatedSection
                cause := .failure (.truncated 43 41 "u32") }] } := by
  have room :
      (bytes .little mixedSets ++ [1, 2]).length + RangeHeader.size ≤
        addressLimit := by
    decide
  refine ⟨room, ?_⟩
  rw [decode_writtenSets .little mixedSets [1, 2] room]
  decide +kernel

end RangeSection

end LineAtlas
