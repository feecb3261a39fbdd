import LineAtlas.Proofs.Failures

namespace LineAtlas

/-!
# Failures that stay

A failure for want of bytes can turn into a success when more bytes come. Every other
failure of a reader that `Persists` stays: it has the same cause, and the cursor stops at
the same place, whatever comes after the data.

`SelfContained` puts this together with locality. What a reader finds at the start of some
bytes, and how it fails there, is decided by the bytes that it takes; without the last of
them it fails for want of bytes.
-/

namespace Cursor

variable
  {cursor : Cursor}
  {subject : String}
  {offset : Nat}

/-- Bytes that cannot be looked at, although there are enough, lie beyond 64-bit positions. -/
theorem numberAt_extend_of_error
    {width : Nat}
    {cause : ReadError}
    (more : Bytes)
    (failure : cursor.numberAt subject width offset = .error cause)
    (notShort : cause.isTruncation = false) :
    (cursor.extend more).numberAt subject width offset = .error cause := by
  simp only [numberAt, Reader.map_eq_error_iff, bytesAt] at failure ⊢
  split at failure
  · next noRoom =>
      rwa [if_pos noRoom]
  · split at failure
    · cases failure
      cases notShort
    · cases failure

end Cursor

namespace Reader

variable {α β : Type}

/-- A failure that is not for want of bytes is the same when the data goes on. -/
def Persists (reader : Reader α) : Prop :=
  ∀ cursor more cause stopped,
    cursor.Placed →
    cursor.size + more.length < addressLimit →
    reader cursor = .error cause stopped →
    cause.isTruncation = false →
    reader (cursor.extend more) = .error cause (stopped.extend more)

/-! ## Sequencing -/

theorem persists_pure (value : α) : (pure value : Reader α).Persists := by
  intro cursor more cause stopped placed fits failure notShort
  cases failure

theorem Persists.bind
    {first : Reader α}
    {next : α → Reader β}
    (firstPersists : first.Persists)
    (firstExtends : first.Extends)
    (nextPersists : ∀ found, (next found).Persists) :
    (first >>= next).Persists := by
  intro cursor more cause stopped placed fits failure notShort
  rcases bind_eq_error_iff.mp failure with firstFails | ⟨found, between, firstRead, nextFails⟩
  · have stays := firstPersists cursor more cause stopped placed fits firstFails notShort
    exact bind_eq_error_iff.mpr (.inl stays)
  · obtain ⟨betweenPlaced, sameSize, sameRead⟩ :=
      firstExtends cursor more found between placed fits firstRead
    rw [← sameSize] at fits
    have stays :=
      nextPersists found between more cause stopped betweenPlaced fits nextFails notShort
    exact bind_eq_error_iff.mpr (.inr ⟨found, between.extend more, sameRead, stays⟩)

theorem Persists.bind_local
    {first : Reader α}
    {next : α → Reader β}
    (firstPersists : first.Persists)
    (firstLocal : first.Local)
    (nextPersists : ∀ found, (next found).Persists) :
    (first >>= next).Persists :=
  firstPersists.bind firstLocal.extends nextPersists

theorem Persists.map
    {reader : Reader α}
    (persists : reader.Persists)
    (isLocal : reader.Local)
    (change : α → β) :
    (change <$> reader).Persists := by
  rw [← bind_pure_comp]
  exact persists.bind_local isLocal fun found => persists_pure (change found)

/-! ## Looks -/

variable {look : Cursor → Except ReadError (α × Nat)}

/-- The failures of a reader stay if those of its look do. -/
theorem persists_consuming
    (stays :
      ∀ cursor more cause,
        cursor.Placed →
        look cursor = .error cause →
        cause.isTruncation = false →
        look (cursor.extend more) = .error cause) :
    (consuming look).Persists := by
  intro cursor more cause stopped placed fits failure notShort
  have missed := look_of_consuming_eq_error failure
  obtain rfl : stopped = cursor := by
    rw [consuming, missed] at failure
    cases failure
    rfl
  rw [consuming, stays stopped more cause placed missed notShort]

theorem persists_field
    (subject : String)
    (width : Nat)
    (ofNumber : Nat → α) :
    (consuming fun cursor =>
        ((cursor.numberAt subject width cursor.position).map ofNumber).map (·, width)).Persists := by
  apply persists_consuming
  intro cursor more cause placed missed notShort
  simp only [map_eq_error_iff] at missed ⊢
  exact Cursor.numberAt_extend_of_error more missed notShort

theorem persists_uint8 : uint8.Persists :=
  persists_field "u8" 1 UInt8.ofNat

theorem persists_uint16 : uint16.Persists :=
  persists_field "u16" 2 UInt16.ofNat

theorem persists_address (width : Nat) : (address width).Persists := by
  apply persists_consuming
  intro cursor more cause placed missed notShort
  rw [map_eq_error_iff] at missed ⊢
  unfold Cursor.addressAt at missed ⊢
  split at missed
  · simp only [Cursor.uint8At, map_eq_error_iff] at missed ⊢
    exact Cursor.numberAt_extend_of_error more missed notShort
  · simp only [Cursor.uint16At, map_eq_error_iff] at missed ⊢
    exact Cursor.numberAt_extend_of_error more missed notShort
  · simp only [Cursor.uint32At, map_eq_error_iff] at missed ⊢
    exact Cursor.numberAt_extend_of_error more missed notShort
  · simp only [Cursor.uint64At, map_eq_error_iff] at missed ⊢
    exact Cursor.numberAt_extend_of_error more missed notShort
  · exact missed

theorem persists_unsigned : unsigned.Persists := by
  apply persists_consuming
  intro cursor more cause placed missed notShort
  obtain ⟨fault, faulty, rfl⟩ := Base128.unsigned_eq_error_iff.mp missed
  cases fault with
  | tooLarge =>
      rw [placed.rest_extend]
      exact Base128.unsigned_eq_error_iff.mpr
        ⟨.tooLarge, Base128.unsignedFrom_tooLarge_append faulty, rfl⟩
  | unterminated =>
      cases notShort

theorem persists_signed : signed.Persists := by
  apply persists_consuming
  intro cursor more cause placed missed notShort
  obtain ⟨fault, faulty, rfl⟩ := Base128.signed_eq_error_iff.mp missed
  cases fault with
  | tooLarge =>
      rw [placed.rest_extend]
      exact Base128.signed_eq_error_iff.mpr
        ⟨.tooLarge, Base128.signedFrom_tooLarge_append faulty, rfl⟩
  | unterminated =>
      cases notShort

theorem persists_skip (count : Nat) : (skip count).Persists := by
  intro cursor more cause stopped placed fits failure notShort
  unfold skip seek at failure ⊢
  split at failure
  · next noRoom =>
      cases failure
      exact if_pos noRoom
  · split at failure
    · cases failure
      cases notShort
    · cases failure

/-! ## Repetition -/

theorem Persists.times
    {item : Reader α}
    (itemPersists : item.Persists)
    (itemLocal : item.Local)
    (count : Nat) :
    (item.times count).Persists := by
  induction count with
  | zero =>
      exact persists_pure []
  | succ count inductionHypothesis =>
      exact itemPersists.bind_local itemLocal fun first =>
        inductionHypothesis.bind_local (itemLocal.times count) fun later =>
          persists_pure (first :: later)

section Collect

variable
  {item : Reader (Option α)}
  {consumes : item.Consuming}

/-- A list cannot be read where its first item cannot, or where it goes on after that. -/
theorem collect_eq_error_iff
    {before stopped : Cursor}
    {cause : ReadError} :
    collect item consumes before = .error cause stopped ↔
      item before = .error cause stopped ∨
        ∃ first between,
          item before = .ok (some first) between ∧
            collect item consumes between = .error cause stopped := by
  rw [collect]
  split
  · next other last outcome =>
      simp [outcome]
  · next last outcome =>
      simp [outcome]
  · next first between outcome =>
      cases later : collect item consumes between <;> simp [outcome, later]

theorem Persists.collect
    (itemPersists : item.Persists)
    (itemLocal : item.Local) :
    (collect item consumes).Persists := by
  intro cursor more cause stopped placed fits failure notShort
  fun_induction Reader.collect item consumes cursor with
  | case1 cursor other last outcome =>
      cases failure
      have stays := itemPersists cursor more cause stopped placed fits outcome notShort
      exact collect_eq_error_iff.mpr (.inl stays)
  | case2 cursor last outcome =>
      cases failure
  | case3 cursor first between outcome other last laterFails inductionHypothesis =>
      cases failure
      obtain ⟨betweenPlaced, sameSize, sameRead⟩ :=
        itemLocal.extends cursor more (some first) between placed fits outcome
      rw [← sameSize] at fits
      have stays := inductionHypothesis betweenPlaced fits laterFails
      exact collect_eq_error_iff.mpr (.inr ⟨first, between.extend more, sameRead, stays⟩)
  | case4 cursor first between outcome later last laterRead inductionHypothesis =>
      cases failure

end Collect

/-! ## What the bytes that are taken decide -/

/-- How reading at the start of `program` goes is decided by the bytes that are taken. -/
structure SelfContained
    (reader : Reader α)
    (order : ByteOrder)
    (program tail : Bytes) :
    Prop where
  /-- What is found is found, at the same place, whatever comes after it. -/
  found :
    ∀ value after,
      reader (.ofBytes order program) = .ok value after →
        reader (.ofBytes order (program ++ tail)) = .ok value (after.extend tail)
  /-- Without the last of the bytes that were taken, these are too few. -/
  cut :
    ∀ value after shorter,
      reader (.ofBytes order program) = .ok value after →
        shorter <+: program.take after.position →
          shorter.length < after.position →
            ∃ cause stopped,
              reader (.ofBytes order shorter) = .error cause stopped ∧
                cause.isTruncation = true
  /-- What fails otherwise than for want of bytes fails so, at the same place, whatever comes. -/
  failed :
    ∀ cause stopped,
      reader (.ofBytes order program) = .error cause stopped →
        cause.isTruncation = false →
          reader (.ofBytes order (program ++ tail)) = .error cause (stopped.extend tail)

theorem selfContained_of_local
    {reader : Reader α}
    {causes : ReadError → Prop}
    (isLocal : reader.Local)
    (fails : reader.FailsWith causes)
    (persists : reader.Persists)
    (order : ByteOrder)
    {program tail : Bytes}
    (fits : (program ++ tail).length < addressLimit) :
    reader.SelfContained order program tail := by
  rw [List.length_append] at fits
  have placed : (Cursor.ofBytes order program).Placed :=
    Cursor.placed_ofBytes (by omega)
  constructor
  · intro value after success
    exact (isLocal.extends _ tail value after placed fits success).2.2
  · rintro value after shorter success front fewer
    obtain ⟨dropped, rfl⟩ := front.trans (List.take_prefix _ program)
    rw [List.length_append] at fits
    have shortPlaced : (Cursor.ofBytes order shorter).Placed :=
      Cursor.placed_ofBytes (by omega)
    have shortFits : (Cursor.ofBytes order shorter).size + dropped.length < addressLimit := by
      show shorter.length + dropped.length < addressLimit
      omega
    cases outcome : reader (.ofBytes order shorter) with
    | ok found reached =>
        -- The same would be found in the whole, so the whole would be left no later.
        obtain ⟨reachedPlaced, sameSize, sameRead⟩ :=
          isLocal.extends _ dropped found reached shortPlaced shortFits outcome
        have same := success.symm.trans sameRead
        cases same
        have inside := reachedPlaced.position_le
        rw [sameSize] at inside
        exact absurd inside (Nat.not_le_of_lt fewer)
    | error cause stopped =>
        exact ⟨cause, stopped, rfl,
          fails.truncates _ dropped value after cause stopped shortPlaced shortFits success outcome⟩
  · intro cause stopped failure notShort
    exact persists _ tail cause stopped placed fits failure notShort

end Reader

end LineAtlas
