import LineAtlas.Proofs.Cursors.Requests

namespace LineAtlas

/-!
# Where readers stop

A reader stops where it has found its value, or where it has failed. `Reader.StopsAhead`
says of both places that they lie in the same data, not before the start of the reading
and not behind the end. Readers in a row keep to this, although a failure of a later one
leaves what the earlier ones took.
-/

/-- The other cursor stands in the same data, as far on or further, and not behind its end. -/
def Cursor.Reaches (before after : Cursor) : Prop :=
  ∃ count, after = before.advance count ∧ before.position + count ≤ before.size

namespace Cursor.Reaches

variable {before between after : Cursor}

theorem refl (placed : before.Placed) : before.Reaches before :=
  ⟨0, rfl, placed.position_le⟩

theorem trans
    (near : before.Reaches between)
    (far : between.Reaches after) :
    before.Reaches after := by
  obtain ⟨nearCount, rfl, -⟩ := near
  obtain ⟨farCount, rfl, inside⟩ := far
  refine ⟨nearCount + farCount, Cursor.advance_advance _ _ _, ?_⟩
  rwa [← Nat.add_assoc]

theorem placed
    (reaches : before.Reaches after)
    (placed : before.Placed) :
    after.Placed := by
  obtain ⟨count, rfl, inside⟩ := reaches
  exact ⟨inside, placed.size_lt⟩

end Cursor.Reaches

namespace Reader

variable {α β : Type}

/-- Wherever the reader stops, it stands in the data and has not moved back. -/
structure StopsAhead (reader : Reader α) : Prop where
  found :
    ∀ before value after,
      before.Placed →
      reader before = .ok value after →
      before.Reaches after
  failed :
    ∀ before cause stopped,
      before.Placed →
      reader before = .error cause stopped →
      before.Reaches stopped

theorem stopsAhead_pure (value : α) : (pure value : Reader α).StopsAhead where
  found before other after placed success := by
    cases success
    exact .refl placed
  failed before cause stopped placed failure := by
    cases failure

theorem StopsAhead.bind
    {first : Reader α}
    {next : α → Reader β}
    (firstStops : first.StopsAhead)
    (nextStops : ∀ found, (next found).StopsAhead) :
    (first >>= next).StopsAhead where
  found before value after placed success := by
    obtain ⟨found, between, firstRead, nextRead⟩ := bind_eq_ok_iff.mp success
    have near := firstStops.found before found between placed firstRead
    exact near.trans ((nextStops found).found between value after (near.placed placed) nextRead)
  failed before cause stopped placed failure := by
    rcases bind_eq_error_iff.mp failure with firstFails | ⟨found, between, firstRead, nextFails⟩
    · exact firstStops.failed before cause stopped placed firstFails
    · have near := firstStops.found before found between placed firstRead
      exact near.trans
        ((nextStops found).failed between cause stopped (near.placed placed) nextFails)

/-- A local reader that fails where it starts stops behind what it took, or at its start. -/
theorem Local.stopsAhead
    {reader : Reader α}
    (isLocal : reader.Local)
    (stays : reader.Stays) :
    reader.StopsAhead where
  found before value after placed success := by
    obtain ⟨used, tail, split, rfl, -⟩ := isLocal before value after placed success
    exact ⟨used.length, rfl, placed.end_le_size split⟩
  failed before cause stopped placed failure := by
    rw [stays before cause stopped failure]
    exact .refl placed

theorem stopsAhead_uint8 : uint8.StopsAhead :=
  local_uint8.stopsAhead (stays_consuming _)

theorem stopsAhead_uint16 : uint16.StopsAhead :=
  local_uint16.stopsAhead (stays_consuming _)

theorem stopsAhead_address (width : Nat) : (address width).StopsAhead :=
  (local_address width).stopsAhead (stays_consuming _)

theorem stopsAhead_unsigned : unsigned.StopsAhead :=
  local_unsigned.stopsAhead (stays_consuming _)

theorem stopsAhead_signed : signed.StopsAhead :=
  local_signed.stopsAhead (stays_consuming _)

theorem stopsAhead_skip (count : Nat) : (skip count).StopsAhead :=
  (local_skip count).stopsAhead (stays_skip count)

/-- Bytes that cannot be skipped end behind the data, or behind all 64-bit positions. -/
theorem past_of_skip_error
    {before stopped : Cursor}
    {count : Nat}
    {cause : ReadError}
    (failure : skip count before = .error cause stopped) :
    addressLimit ≤ before.position + count ∨ before.size < before.position + count := by
  unfold skip seek at failure
  split at failure
  · next noRoom =>
      exact .inl noRoom
  · split at failure
    · next past =>
        exact .inr past
    · cases failure

theorem StopsAhead.times
    {item : Reader α}
    (itemStops : item.StopsAhead)
    (count : Nat) :
    (item.times count).StopsAhead := by
  induction count with
  | zero =>
      exact stopsAhead_pure []
  | succ count inductionHypothesis =>
      exact itemStops.bind fun first =>
        inductionHypothesis.bind fun later => stopsAhead_pure (first :: later)

end Reader

end LineAtlas
