import LineAtlas.Cursor

namespace LineAtlas

/-!
# Readers

A reader takes a cursor to a value and the cursor after it, or to the cause of
a failure and the cursor where it stopped. Every reader that takes bytes is
built from `Reader.consuming`, which looks first and moves only when the look
succeeds; `Reader.seek`, `Reader.skip` and `Reader.rewind` move without a look.

`Reader.Forward` says that a reader keeps to its data and never moves back;
`Reader.Consuming` says that it takes at least one byte. They are what makes
the loops over a reader end.
-/

/-- A step of reading: it may fail, and it moves a cursor. -/
abbrev Reader :=
  EStateM ReadError Cursor

/-- Two steps in a row succeed exactly when both do. -/
theorem bind_eq_ok_iff
    {σ α β : Type}
    {first : EStateM ReadError σ α}
    {next : α → EStateM ReadError σ β}
    {before after : σ}
    {value : β} :
    (first >>= next) before = .ok value after ↔
      ∃ found between,
        first before = .ok found between ∧
          next found between = .ok value after := by
  show EStateM.bind first next before = _ ↔ _
  unfold EStateM.bind
  cases outcome : first before with
  | ok found between =>
      constructor
      · intro success
        exact ⟨found, between, rfl, success⟩
      · rintro ⟨_, _, same, success⟩
        cases same
        exact success
  | error cause stopped =>
      simp

/-- Two steps in a row fail exactly when the first does, or it succeeds and the second fails. -/
theorem bind_eq_error_iff
    {σ α β : Type}
    {first : EStateM ReadError σ α}
    {next : α → EStateM ReadError σ β}
    {before stopped : σ}
    {cause : ReadError} :
    (first >>= next) before = .error cause stopped ↔
      first before = .error cause stopped ∨
        ∃ found between,
          first before = .ok found between ∧
            next found between = .error cause stopped := by
  show EStateM.bind first next before = _ ↔ _
  unfold EStateM.bind
  cases outcome : first before with
  | ok found between =>
      constructor
      · intro failure
        exact .inr ⟨found, between, rfl, failure⟩
      · rintro (failure | ⟨_, _, same, failure⟩)
        · cases failure
        · cases same
          exact failure
  | error cause stopped =>
      simp

namespace Reader

/--
Looks at the cursor and moves past as many bytes as the look used.

A look that fails moves nothing.
-/
def consuming
    {α : Type}
    (look : Cursor → Except ReadError (α × Nat)) :
    Reader α := fun cursor =>
  match look cursor with
  | .ok (value, used) => .ok value (cursor.advance used)
  | .error cause => .error cause cursor

/-- Looks at the cursor and moves nothing. -/
def looking
    {α : Type}
    (look : Cursor → Except ReadError α) :
    Reader α := fun cursor =>
  match look cursor with
  | .ok value => .ok value cursor
  | .error cause => .error cause cursor

/-- The position that the next read starts at. -/
def position : Reader Nat := fun cursor =>
  .ok cursor.position cursor

/-- Reads a byte. -/
def uint8 : Reader UInt8 :=
  consuming fun cursor => (cursor.uint8At cursor.position).map (·, 1)

/-- Reads a 16-bit field. -/
def uint16 : Reader UInt16 :=
  consuming fun cursor => (cursor.uint16At cursor.position).map (·, 2)

/-- Reads a 32-bit field. -/
def uint32 : Reader UInt32 :=
  consuming fun cursor => (cursor.uint32At cursor.position).map (·, 4)

/-- Reads a 64-bit field. -/
def uint64 : Reader UInt64 :=
  consuming fun cursor => (cursor.uint64At cursor.position).map (·, 8)

/-- Reads an unsigned field of 1, 2, 4 or 8 bytes. -/
def address (width : Nat) : Reader UInt64 :=
  consuming fun cursor => (cursor.addressAt width cursor.position).map (·, width)

/-- Reads an unsigned base-128 number. -/
def unsigned : Reader UInt64 :=
  consuming fun cursor => Base128.unsigned cursor.rest

/-- Reads a signed base-128 number. -/
def signed : Reader Int64 :=
  consuming fun cursor => Base128.signed cursor.rest

/-- Reads the bytes up to a NUL, and the NUL. -/
def terminated : Reader Bytes :=
  consuming fun cursor =>
    cursor.terminatedBytes.map fun found => (found, found.length + 1)

/-- Takes the next `count` bytes as data of their own. -/
def splitOff (count : Nat) : Reader Cursor :=
  consuming fun cursor =>
    (cursor.bytesAt "sub-range" cursor.position count).map fun found =>
      (Cursor.ofBytes cursor.order found, count)

/-- Moves to `target`, which may be the end of the data but not beyond. -/
def seek (target : Nat) : Reader Unit := fun cursor =>
  if cursor.size < target then
    .error (.truncated target cursor.size "seek target") cursor
  else
    .ok () { cursor with position := target }

/-- Moves `count` bytes on. -/
def skip (count : Nat) : Reader Unit := fun cursor =>
  if addressLimit ≤ cursor.position + count then
    .error (.overflow "skip") cursor
  else
    seek (cursor.position + count) cursor

/-- Moves to the start of the data. -/
def rewind : Reader Unit := fun cursor =>
  .ok () { cursor with position := 0 }

/-- Runs a reader `count` times and lists what it read. -/
def times
    {α : Type}
    (item : Reader α) :
    Nat → Reader (List α)
  | 0 => pure []
  | count + 1 => do
      let first ← item
      let later ← times item count
      return first :: later

/-! ## Readers that only move forward -/

/-- A success keeps the data and the byte order, and does not move back. -/
def Forward
    {α : Type}
    (reader : Reader α) :
    Prop :=
  ∀ before value after,
    reader before = .ok value after →
      after.data = before.data ∧
        after.order = before.order ∧
        before.position ≤ after.position

/-- A success keeps the data and the byte order, and takes a byte that was there. -/
def Consuming
    {α : Type}
    (reader : Reader α) :
    Prop :=
  ∀ before value after,
    reader before = .ok value after →
      after.data = before.data ∧
        after.order = before.order ∧
        before.position < after.position ∧
        before.position < before.size

theorem Consuming.forward
    {α : Type}
    {reader : Reader α}
    (consumes : Consuming reader) :
    Forward reader := by
  intro before value after success
  have moved := consumes before value after success
  exact ⟨moved.1, moved.2.1, Nat.le_of_lt moved.2.2.1⟩

/-- A reader that takes a byte leaves fewer bytes behind it. -/
theorem Consuming.remaining_lt
    {α : Type}
    {reader : Reader α}
    (consumes : Consuming reader)
    {before after : Cursor}
    {value : α}
    (success : reader before = .ok value after) :
    after.remaining < before.remaining := by
  have moved := consumes before value after success
  have sameSize : after.size = before.size := by
    simp [Cursor.size, moved.1]
  simp only [Cursor.remaining, sameSize]
  omega

theorem forward_pure
    {α : Type}
    (value : α) :
    Forward (pure value) := by
  intro before found after success
  cases success
  exact ⟨rfl, rfl, Nat.le_refl _⟩

theorem forward_throw
    {α : Type}
    (cause : ReadError) :
    Forward (throw cause : Reader α) := by
  intro before found after success
  cases success

theorem forward_position : Forward position := by
  intro before found after success
  cases success
  exact ⟨rfl, rfl, Nat.le_refl _⟩

/-- Two readers in a row move forward if both do. -/
theorem Forward.bind
    {α β : Type}
    {first : Reader α}
    {next : α → Reader β}
    (firstForward : Forward first)
    (nextForward : ∀ found, Forward (next found)) :
    Forward (first >>= next) := by
  intro before value after success
  obtain ⟨found, between, firstRead, nextRead⟩ := bind_eq_ok_iff.mp success
  have near := firstForward before found between firstRead
  have far := nextForward found between value after nextRead
  exact ⟨far.1.trans near.1, far.2.1.trans near.2.1, Nat.le_trans near.2.2 far.2.2⟩

/-- Two readers in a row take a byte if the first one does and the second moves forward. -/
theorem Consuming.bind
    {α β : Type}
    {first : Reader α}
    {next : α → Reader β}
    (firstConsumes : Consuming first)
    (nextForward : ∀ found, Forward (next found)) :
    Consuming (first >>= next) := by
  intro before value after success
  obtain ⟨found, between, firstRead, nextRead⟩ := bind_eq_ok_iff.mp success
  have near := firstConsumes before found between firstRead
  have far := nextForward found between value after nextRead
  exact ⟨far.1.trans near.1, far.2.1.trans near.2.1,
    Nat.lt_of_lt_of_le near.2.2.1 far.2.2, near.2.2.2⟩

/-- Changing what was read takes the same bytes. -/
theorem Consuming.map
    {α β : Type}
    {reader : Reader α}
    (consumes : Consuming reader)
    (change : α → β) :
    Consuming (change <$> reader) := by
  rw [← bind_pure_comp]
  exact consumes.bind fun found => forward_pure (change found)

/-- A look takes a byte if it uses one that is there. -/
theorem consuming_of_look
    {α : Type}
    {look : Cursor → Except ReadError (α × Nat)}
    (uses :
      ∀ cursor value used,
        look cursor = .ok (value, used) →
          0 < used ∧ cursor.position < cursor.size) :
    Consuming (consuming look) := by
  intro before value after success
  unfold consuming at success
  split at success
  · next found used seen =>
      cases success
      have used_pos := uses before value used seen
      exact ⟨rfl, rfl, by simp only [Cursor.advance]; omega, used_pos.2⟩
  · cases success

/-- A field read at the position takes its bytes. -/
theorem consuming_field
    {α : Type}
    {subject : String}
    {width : Nat}
    (wide : 0 < width)
    (ofNumber : Nat → α) :
    Consuming
      (consuming fun cursor =>
        ((cursor.numberAt subject width cursor.position).map ofNumber).map (·, width)) := by
  apply consuming_of_look
  intro cursor value used seen
  cases number : cursor.numberAt subject width cursor.position with
  | error cause =>
      simp [number, Except.map] at seen
  | ok found =>
      have inside := Cursor.le_size_of_numberAt number
      simp only [number, Except.map, Except.ok.injEq, Prod.mk.injEq] at seen
      omega

theorem consuming_uint8 : Consuming uint8 :=
  consuming_field (by decide) UInt8.ofNat

theorem consuming_uint16 : Consuming uint16 :=
  consuming_field (by decide) UInt16.ofNat

theorem consuming_uint32 : Consuming uint32 :=
  consuming_field (by decide) UInt32.ofNat

theorem consuming_uint64 : Consuming uint64 :=
  consuming_field (by decide) UInt64.ofNat

/-- Bytes that are left mean that the position is inside the data. -/
theorem position_lt_size_of_rest_ne_nil
    {cursor : Cursor}
    (left : cursor.rest ≠ []) :
    cursor.position < cursor.size := by
  simpa [Cursor.rest, Cursor.size] using left

theorem consuming_unsigned : Consuming unsigned := by
  apply consuming_of_look
  intro cursor value used seen
  have taken := Base128.used_pos_of_unsigned seen
  exact ⟨taken.1, position_lt_size_of_rest_ne_nil taken.2⟩

theorem consuming_signed : Consuming signed := by
  apply consuming_of_look
  intro cursor value used seen
  have taken := Base128.used_pos_of_signed seen
  exact ⟨taken.1, position_lt_size_of_rest_ne_nil taken.2⟩

theorem consuming_terminated : Consuming terminated := by
  apply consuming_of_look
  intro cursor value used seen
  unfold Cursor.terminatedBytes at seen
  split at seen
  · next present =>
      simp only [Except.map, Except.ok.injEq, Prod.mk.injEq] at seen
      refine ⟨by omega, position_lt_size_of_rest_ne_nil ?_⟩
      intro nothingLeft
      simp [nothingLeft] at present
  · simp [Except.map] at seen

theorem forward_address (width : Nat) : Forward (address width) := by
  intro before value after success
  unfold address consuming at success
  split at success
  · cases success
    exact ⟨rfl, rfl, by simp [Cursor.advance]⟩
  · cases success

theorem forward_skip (count : Nat) : Forward (skip count) := by
  intro before value after success
  unfold skip seek at success
  split at success
  · cases success
  · split at success
    · cases success
    · cases success
      exact ⟨rfl, rfl, by simp⟩

/-- Any number of readers in a row move forward if each one does. -/
theorem Forward.times
    {α : Type}
    {item : Reader α}
    (itemForward : Forward item)
    (count : Nat) :
    Forward (item.times count) := by
  induction count with
  | zero =>
      exact forward_pure []
  | succ count inductionHypothesis =>
      exact itemForward.bind fun first =>
        inductionHypothesis.bind fun later =>
          forward_pure (first :: later)

/-! ## Lists that end with a mark -/

/--
Reads items for as long as `item` finds one, and lists them.

Every item takes at least one byte, so the list ends with the data at the
latest.
-/
def collect
    {α : Type}
    (item : Reader (Option α))
    (consumes : Consuming item) :
    Reader (List α) := fun cursor =>
  match _outcome : item cursor with
  | .error cause stopped => .error cause stopped
  | .ok none after => .ok [] after
  | .ok (some first) after =>
      match collect item consumes after with
      | .error cause stopped => .error cause stopped
      | .ok later last => .ok (first :: later) last
termination_by cursor => cursor.remaining
decreasing_by exact consumes.remaining_lt _outcome

end Reader

end LineAtlas
