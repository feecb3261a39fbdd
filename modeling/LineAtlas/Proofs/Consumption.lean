import LineAtlas.Proofs.Locality

namespace LineAtlas

/-!
# How many bytes a reader takes

`Takes least reader` says that each success takes at least `least` bytes and stays
inside the data. Unlike locality, this needs no bound on the data: it is what loops
over readers are charged for.
-/

namespace Reader

variable {α β : Type}

/-- A success takes at least `least` bytes, all of which are there. -/
def Takes
    (least : Nat)
    (reader : Reader α) :
    Prop :=
  ∀ before value after,
    before.position ≤ before.size →
    reader before = .ok value after →
    after.size = before.size ∧
      before.position + least ≤ after.position ∧
      after.position ≤ after.size

/-- A reader that takes some bytes takes fewer, too. -/
theorem Takes.mono
    {reader : Reader α}
    {least fewer : Nat}
    (takes : reader.Takes least)
    (smaller : fewer ≤ least) :
    reader.Takes fewer := by
  intro before value after inside success
  obtain ⟨sameSize, forward, stillInside⟩ := takes before value after inside success
  exact ⟨sameSize, by omega, stillInside⟩

theorem takes_pure (value : α) : (pure value : Reader α).Takes 0 := by
  intro before found after inside success
  cases success
  exact ⟨rfl, Nat.le_refl _, inside⟩

/-- Two readers in a row take what both of them take. -/
theorem Takes.bind
    {first : Reader α}
    {next : α → Reader β}
    {near far : Nat}
    (firstTakes : first.Takes near)
    (nextTakes : ∀ found, (next found).Takes far) :
    (first >>= next).Takes (near + far) := by
  intro before value after inside success
  obtain ⟨found, between, firstRead, nextRead⟩ := bind_eq_ok_iff.mp success
  obtain ⟨nearSize, nearForward, nearInside⟩ :=
    firstTakes before found between inside firstRead
  obtain ⟨farSize, farForward, farInside⟩ :=
    nextTakes found between value after nearInside nextRead
  exact ⟨farSize.trans nearSize, by omega, farInside⟩

/-- A reader that looks first moves past what its look used. -/
theorem advance_of_consuming
    {look : Cursor → Except ReadError (α × Nat)}
    {before after : Cursor}
    {value : α}
    (success : consuming look before = .ok value after) :
    ∃ used, look before = .ok (value, used) ∧ after = before.advance used := by
  unfold consuming at success
  split at success
  · next found used seen =>
      cases success
      exact ⟨used, seen, rfl⟩
  · cases success

/-- A look that uses enough bytes, and no more than there are, makes a reader that takes them. -/
theorem takes_consuming
    {look : Cursor → Except ReadError (α × Nat)}
    {least : Nat}
    (uses :
      ∀ cursor value used,
        look cursor = .ok (value, used) →
          least ≤ used ∧ cursor.position + used ≤ cursor.size) :
    (consuming look).Takes least := by
  intro before value after inside success
  obtain ⟨used, seen, rfl⟩ := advance_of_consuming success
  obtain ⟨enough, there⟩ := uses before value used seen
  exact ⟨rfl, Nat.add_le_add_left enough _, there⟩

/-- A field takes its width. -/
theorem takes_field
    {subject : String}
    {width : Nat}
    (ofNumber : Nat → α) :
    (consuming fun cursor =>
        ((cursor.numberAt subject width cursor.position).map ofNumber).map (·, width)).Takes
      width := by
  apply takes_consuming
  intro cursor value used seen
  obtain ⟨found, look, same⟩ := map_eq_ok_iff.mp seen
  obtain ⟨number, numberSeen, -⟩ := map_eq_ok_iff.mp look
  cases same
  exact ⟨Nat.le_refl _, Cursor.le_size_of_numberAt numberSeen⟩

theorem takes_uint8 : uint8.Takes 1 :=
  takes_field UInt8.ofNat

theorem takes_uint16 : uint16.Takes 2 :=
  takes_field UInt16.ofNat

theorem takes_uint32 : uint32.Takes 4 :=
  takes_field UInt32.ofNat

/-- The bytes of an unsigned number are there. -/
theorem le_size_of_unsigned
    {cursor : Cursor}
    {value : UInt64}
    {used : Nat}
    (seen : Base128.unsigned cursor.rest = .ok (value, used)) :
    0 < used ∧ cursor.position + used ≤ cursor.size := by
  obtain ⟨some, left⟩ := Base128.used_pos_of_unsigned seen
  obtain ⟨taken, tail, split, -, -, rfl⟩ := Base128.unsigned_sound seen
  have inside := position_lt_size_of_rest_ne_nil left
  exact ⟨some, Cursor.end_le_size_of_split inside.le split⟩

theorem takes_unsigned : unsigned.Takes 1 :=
  takes_consuming fun _ _ _ seen => le_size_of_unsigned seen

theorem takes_signed : signed.Takes 1 := by
  apply takes_consuming
  intro cursor value used seen
  obtain ⟨some, left⟩ := Base128.used_pos_of_signed seen
  obtain ⟨taken, tail, wide, split, -, -, -, rfl⟩ := Base128.signed_sound seen
  have inside := position_lt_size_of_rest_ne_nil left
  exact ⟨some, Cursor.end_le_size_of_split inside.le split⟩

/-- Skipping moves exactly as far as it is told. -/
theorem advance_of_skip
    {before after : Cursor}
    {count : Nat}
    (success : skip count before = .ok () after) :
    after = before.advance count := by
  unfold skip seek at success
  split at success
  · cases success
  · split at success
    · cases success
    · cases success
      rfl

theorem takes_skip (count : Nat) : (skip count).Takes count := by
  intro before value after inside success
  have there := le_size_of_skip success
  cases advance_of_skip success
  exact ⟨rfl, Nat.le_refl _, there⟩

theorem Takes.times
    {item : Reader α}
    {least : Nat}
    (itemTakes : item.Takes least)
    (count : Nat) :
    (item.times count).Takes (count * least) := by
  induction count with
  | zero =>
      exact (takes_pure []).mono (by omega)
  | succ count inductionHypothesis =>
      have both :=
        itemTakes.bind fun first => inductionHypothesis.bind fun later => takes_pure (first :: later)
      exact both.mono (by rw [Nat.succ_mul]; omega)

end Reader

end LineAtlas
