import LineAtlas.Proofs.Checked.Base128
import LineAtlas.Proofs.Locality

namespace LineAtlas.Checked

/-!
# Readers on a processor

A cursor fits if it stands inside its data and the data is shorter than `sizeLimit`, as
all data in memory is. From such a cursor, the end of whatever the data still has can be
computed, and the offset after the end, too. Every reader agrees with the one without
traps on cursors that fit.
-/

/-- One more than the greatest size that data in memory has. -/
def sizeLimit : Nat :=
  2 ^ 63

theorem sizeLimit_bounds : addressLimit = sizeLimit + sizeLimit ∧ 2 ^ 62 < sizeLimit := by
  decide

/-- The cursor stands inside data that memory has room for. -/
structure Fits (cursor : Cursor) : Prop where
  position_le : cursor.position ≤ cursor.size
  size_lt : cursor.size < sizeLimit

theorem fits_ofBytes
    {order : ByteOrder}
    {data : Bytes}
    (short : data.length < sizeLimit) :
    Fits (.ofBytes order data) where
  position_le := Nat.zero_le _
  size_lt := short

theorem Fits.placed
    {cursor : Cursor}
    (fits : Fits cursor) :
    cursor.Placed where
  position_le := fits.position_le
  size_lt := by
    have bounds := sizeLimit_bounds
    have short := fits.size_lt
    omega

/-! ## The first NUL -/

section

variable {bytes : Bytes}

theorem absent_of_findIdx? (missing : bytes.findIdx? (· = 0) = none) : ¬ bytes.contains 0 := by
  rw [List.findIdx?_eq_none_iff] at missing
  intro present
  simpa using missing 0 (by simpa using present)

/-- The bytes before the first NUL are as many as its index says. -/
theorem present_of_findIdx?
    {index : Nat}
    (found : bytes.findIdx? (· = 0) = some index) :
    index < bytes.length ∧
      bytes.contains 0 = true ∧
      bytes.takeWhile (· ≠ 0) = bytes.take index := by
  obtain ⟨-, sameIndex⟩ := List.findIdx?_eq_some_iff_findIdx_eq.mp found
  obtain ⟨inside, isZero, -⟩ := List.findIdx?_eq_some_iff_getElem.mp found
  refine ⟨inside, ?_, ?_⟩
  · simp [← of_decide_eq_true isZero]
  · rw [List.takeWhile_eq_take_findIdx_not, ← sameIndex]
    simp

end

/-! ## Looks at offsets -/

section

variable
  (cursor : Cursor)
  (offset : Nat)

/-- The `count` bytes at `offset`; the end of them need not be a position. -/
def bytesAt
    (subject : String)
    (count : Nat) :
    Except Stop Bytes :=
  if addressLimit ≤ offset + count then
    throw (.failure (.overflow subject))
  else if cursor.size < offset + count then
    throw (.failure (.truncated (offset + count) cursor.size subject))
  else
    part cursor.data offset (offset + count)

/-- The number in the field of `width` bytes at `offset`, taken byte by byte. -/
def numberAt
    (subject : String)
    (width : Nat) :
    Except Stop Nat := do
  let found ← bytesAt cursor offset subject width
  let field ← (List.range width).mapM (item found)
  return cursor.order.number field

/-- The byte at `offset`. -/
def uint8At : Except Stop UInt8 :=
  (numberAt cursor offset "u8" 1).map UInt8.ofNat

/-- The 16-bit field at `offset`. -/
def uint16At : Except Stop UInt16 :=
  (numberAt cursor offset "u16" 2).map UInt16.ofNat

/-- The 32-bit field at `offset`. -/
def uint32At : Except Stop UInt32 :=
  (numberAt cursor offset "u32" 4).map UInt32.ofNat

/-- The 64-bit field at `offset`. -/
def uint64At : Except Stop UInt64 :=
  (numberAt cursor offset "u64" 8).map UInt64.ofNat

/-- The unsigned field of 1, 2, 4 or 8 bytes at `offset`. -/
def addressAt (width : Nat) : Except Stop UInt64 :=
  match width with
  | 1 => (uint8At cursor offset).map UInt8.toUInt64
  | 2 => (uint16At cursor offset).map UInt16.toUInt64
  | 4 => (uint32At cursor offset).map UInt32.toUInt64
  | 8 => uint64At cursor offset
  | _ => throw (.failure (.invalidValue "unsupported address size"))

/-- All items of a run of bytes, one by one, are its bytes. -/
theorem mapM_item
    {bytes : Bytes}
    {count : Nat}
    (there : count ≤ bytes.length) :
    (List.range count).mapM (item bytes) = .ok (bytes.take count) := by
  induction count with
  | zero =>
      rfl
  | succ count inductionHypothesis =>
      have found : item bytes count = .ok bytes[count] := by
        rw [item, List.getElem?_eq_getElem there]
      rw [List.range_succ, List.mapM_append, inductionHypothesis (Nat.le_of_succ_le there),
        List.mapM_cons, found, List.take_succ_eq_append_getElem there]
      rfl

theorem bytesAt_eq
    (subject : String)
    (count : Nat) :
    bytesAt cursor offset subject count = look (cursor.bytesAt subject offset count) := by
  rw [bytesAt, Cursor.bytesAt]
  split
  · rfl
  · split
    · rfl
    · next inside =>
        rw [part_of_le (Nat.le_add_right _ _) (by simpa [Cursor.size] using inside),
          Nat.add_sub_cancel_left]
        rfl

/-- A look that succeeds finds as many bytes as it asks for. -/
theorem length_of_bytesAt
    {cursor : Cursor}
    {offset count : Nat}
    {subject : String}
    {found : Bytes}
    (success : cursor.bytesAt subject offset count = .ok found) :
    found.length = count := by
  have inside := Cursor.le_size_of_bytesAt success
  unfold Cursor.bytesAt at success
  split at success
  · cases success
  · rw [if_neg (by omega)] at success
    cases success
    rw [Cursor.size] at inside
    rw [List.length_take, List.length_drop]
    omega

theorem numberAt_eq
    (subject : String)
    (width : Nat) :
    numberAt cursor offset subject width = look (cursor.numberAt subject width offset) := by
  rw [numberAt, Cursor.numberAt, bytesAt_eq, look_map]
  cases found : cursor.bytesAt subject offset width with
  | error cause =>
      rfl
  | ok field =>
      obtain rfl := length_of_bytesAt found
      rw [look_ok, ok_bind, mapM_item (Nat.le_refl _), List.take_length]
      rfl

theorem uint8At_eq : uint8At cursor offset = look (cursor.uint8At offset) := by
  rw [uint8At, Cursor.uint8At, numberAt_eq, look_map]

theorem uint16At_eq : uint16At cursor offset = look (cursor.uint16At offset) := by
  rw [uint16At, Cursor.uint16At, numberAt_eq, look_map]

theorem uint32At_eq : uint32At cursor offset = look (cursor.uint32At offset) := by
  rw [uint32At, Cursor.uint32At, numberAt_eq, look_map]

theorem uint64At_eq : uint64At cursor offset = look (cursor.uint64At offset) := by
  rw [uint64At, Cursor.uint64At, numberAt_eq, look_map]

theorem addressAt_eq (width : Nat) :
    addressAt cursor offset width = look (cursor.addressAt width offset) := by
  fun_cases Cursor.addressAt cursor width offset with
  | case1 =>
      rw [addressAt, uint8At_eq, look_map]
  | case2 =>
      rw [addressAt, uint16At_eq, look_map]
  | case3 =>
      rw [addressAt, uint32At_eq, look_map]
  | case4 =>
      rw [addressAt, uint64At_eq]
  | case5 no8 no16 no32 no64 =>
      rw [addressAt]
      · rfl
      all_goals assumption

end

/-! ## Readers -/

/-- A step of reading that can trap. -/
abbrev Reading :=
  EStateM Stop Cursor

namespace Reading

variable {α β : Type}

/-- Looks at the cursor, and moves on past the bytes that the look used. -/
def advancing (looked : Cursor → Except Stop (α × Nat)) : Reading α := do
  let cursor ← get
  let (value, used) ← looked cursor
  set { cursor with position := ← sum cursor.position used }
  return value

/-- The position that the next read starts at. -/
def position : Reading Nat := do
  return (← get).position

/-- Reads a byte. -/
def uint8 : Reading UInt8 :=
  advancing fun cursor => (uint8At cursor cursor.position).map (·, 1)

/-- Reads a 16-bit field. -/
def uint16 : Reading UInt16 :=
  advancing fun cursor => (uint16At cursor cursor.position).map (·, 2)

/-- Reads a 32-bit field. -/
def uint32 : Reading UInt32 :=
  advancing fun cursor => (uint32At cursor cursor.position).map (·, 4)

/-- Reads an unsigned field of 1, 2, 4 or 8 bytes. -/
def address (width : Nat) : Reading UInt64 :=
  advancing fun cursor => (addressAt cursor cursor.position width).map (·, width)

/-- Reads an unsigned base-128 number. -/
def unsigned : Reading UInt64 :=
  advancing fun cursor => unsignedOf cursor.rest

/-- Reads a signed base-128 number. -/
def signed : Reading Int64 :=
  advancing fun cursor => signedOf cursor.rest

/-- The bytes before the first NUL, and how many there are with it. -/
def terminatedBytes (cursor : Cursor) : Except Stop (Bytes × Nat) :=
  match cursor.rest.findIdx? (· = 0) with
  | none => do
      let expected ← sum cursor.size 1
      throw (.failure (.truncated expected cursor.size "string"))
  | some length => do
      let used ← sum length 1
      return (← part cursor.rest 0 length, used)

/-- Reads the bytes up to a NUL, and the NUL. -/
def terminated : Reading Bytes :=
  advancing terminatedBytes

/-- Takes the next `count` bytes as data of their own. -/
def splitOff (count : Nat) : Reading Cursor :=
  advancing fun cursor =>
    (bytesAt cursor cursor.position "sub-range" count).map fun found =>
      (.ofBytes cursor.order found, count)

/-- Moves to `target`, which may be the end of the data but not beyond. -/
def seek (target : Nat) : Reading Unit := do
  let cursor ← get
  if cursor.size < target then
    throw (.failure (.truncated target cursor.size "seek target"))
  set { cursor with position := target }

/-- Runs a reader `count` times and lists what it read. -/
def times (item : Reading α) : Nat → Reading (List α)
  | 0 => pure []
  | count + 1 => do
      let first ← item
      let later ← times item count
      return first :: later

/-- Reads items for as long as `item` finds one, and lists them. -/
def collect (item : Reading (Option α)) : Reading (List α) := fun cursor =>
  match item cursor with
  | .error stop stopped => .error stop stopped
  | .ok none after => .ok [] after
  | .ok (some first) after =>
      if after.remaining < cursor.remaining then
        match collect item after with
        | .error stop stopped => .error stop stopped
        | .ok later last => .ok (first :: later) last
      else
        .error (.trap .endless) after
termination_by cursor => cursor.remaining

/-! ## Agreement -/

theorem advancing_of_ok
    {looked : Cursor → Except Stop (α × Nat)}
    {cursor : Cursor}
    {value : α}
    {used : Nat}
    (found : looked cursor = .ok (value, used))
    (fits : cursor.position + used < addressLimit) :
    advancing looked cursor = .ok value (cursor.advance used) := by
  rw [advancing, get_bind, found, lift_ok_bind]
  dsimp only
  rw [sum_of_lt fits]
  rfl

theorem advancing_of_error
    {looked : Cursor → Except Stop (α × Nat)}
    {cursor : Cursor}
    {stop : Stop}
    (missing : looked cursor = .error stop) :
    advancing looked cursor = .error stop cursor := by
  rw [advancing, get_bind, missing]
  rfl

/-- A local reader leaves a cursor that fits. -/
theorem fits_of_local
    {reader : Reader α}
    (isLocal : reader.Local)
    {before after : Cursor}
    {value : α}
    (fits : Fits before)
    (success : reader before = .ok value after) :
    Fits after := by
  obtain ⟨placed, sameData, -⟩ := isLocal.keeps fits.placed success
  refine ⟨placed.position_le, ?_⟩
  rw [Cursor.size, sameData]
  exact fits.size_lt

/-- A look that agrees makes a reader that does. -/
theorem agrees_advancing
    {looked : Cursor → Except Stop (α × Nat)}
    {plainLook : Cursor → Except ReadError (α × Nat)}
    (same : ∀ cursor, Fits cursor → looked cursor = look (plainLook cursor))
    (isLocal : (Reader.consuming plainLook).Local) :
    Agrees Fits (advancing looked) (Reader.consuming plainLook) where
  same before fits := by
    have sameHere := same before fits
    cases seen : plainLook before with
    | error cause =>
        rw [seen] at sameHere
        rw [advancing_of_error sameHere, Reader.consuming, seen]
        rfl
    | ok found =>
        rw [seen] at sameHere
        have success : Reader.consuming plainLook before = .ok found.1 (before.advance found.2) := by
          rw [Reader.consuming, seen]
        have moved := fits_of_local isLocal fits success
        have room : before.position + found.2 < addressLimit :=
          Nat.lt_of_le_of_lt moved.position_le moved.placed.size_lt
        rw [advancing_of_ok sameHere room, success]
        rfl
  keeps before value after fits success := fits_of_local isLocal fits success

theorem agrees_uint8 : Agrees Fits uint8 Reader.uint8 :=
  agrees_advancing (fun _ _ => by rw [uint8At_eq, look_map]) Reader.local_uint8

theorem agrees_uint16 : Agrees Fits uint16 Reader.uint16 :=
  agrees_advancing (fun _ _ => by rw [uint16At_eq, look_map]) Reader.local_uint16

theorem agrees_uint32 : Agrees Fits uint32 Reader.uint32 :=
  agrees_advancing (fun _ _ => by rw [uint32At_eq, look_map]) Reader.local_uint32

theorem agrees_address (width : Nat) : Agrees Fits (address width) (Reader.address width) :=
  agrees_advancing (fun _ _ => by rw [addressAt_eq, look_map]) (Reader.local_address width)

/-- The offset after the end of what is left is a position. -/
theorem length_rest_lt
    {cursor : Cursor}
    (fits : Fits cursor) :
    cursor.rest.length + 1 < addressLimit := by
  have bounds := sizeLimit_bounds
  have short := fits.size_lt
  rw [Cursor.length_rest, Cursor.remaining]
  omega

theorem agrees_unsigned : Agrees Fits unsigned Reader.unsigned :=
  agrees_advancing (fun _ fits => unsignedOf_eq (length_rest_lt fits)) Reader.local_unsigned

theorem agrees_signed : Agrees Fits signed Reader.signed :=
  agrees_advancing (fun _ fits => signedOf_eq (length_rest_lt fits)) Reader.local_signed

theorem terminatedBytes_eq
    {cursor : Cursor}
    (fits : Fits cursor) :
    terminatedBytes cursor =
      look (cursor.terminatedBytes.map fun found => (found, found.length + 1)) := by
  have room := length_rest_lt fits
  rw [terminatedBytes, Cursor.terminatedBytes]
  cases found : cursor.rest.findIdx? (· = 0) with
  | none =>
      have bounds := sizeLimit_bounds
      have short := fits.size_lt
      rw [sum_of_lt (by omega), if_neg (absent_of_findIdx? found)]
      rfl
  | some length =>
      obtain ⟨inside, present, taken⟩ := present_of_findIdx? found
      have count : (cursor.rest.take length).length = length :=
        List.length_take_of_le (Nat.le_of_lt inside)
      dsimp only
      rw [sum_of_lt (by omega), if_pos present, taken, ok_bind,
        part_of_le (Nat.zero_le _) (Nat.le_of_lt inside)]
      simp [Except.map, count]

theorem agrees_terminated : Agrees Fits terminated Reader.terminated :=
  agrees_advancing (fun _ fits => terminatedBytes_eq fits) Reader.local_terminated

theorem agrees_seek (target : Nat) : Agrees Fits (seek target) (Reader.seek target) where
  same before fits := by
    rw [seek, get_bind, Reader.seek]
    split
    · rfl
    · rfl
  keeps before value after fits success := by
    unfold Reader.seek at success
    split at success
    · cases success
    · next inside =>
        cases success
        exact ⟨Nat.le_of_not_lt inside, fits.size_lt⟩

theorem agrees_times
    {item : Reading α}
    {plainItem : Reader α}
    (itemAgrees : Agrees Fits item plainItem)
    (count : Nat) :
    Agrees Fits (times item count) (Reader.times plainItem count) := by
  induction count with
  | zero =>
      exact agrees_pure []
  | succ count inductionHypothesis =>
      exact itemAgrees.bind fun first =>
        inductionHypothesis.bind fun later => agrees_pure (first :: later)

/-- A list agrees if its items do. -/
theorem agrees_collect
    {item : Reading (Option α)}
    {plainItem : Reader (Option α)}
    (consumes : plainItem.Consuming)
    (itemAgrees : Agrees Fits item plainItem) :
    Agrees Fits (collect item) (Reader.collect plainItem consumes) where
  same before fits := by
    fun_induction Reader.collect plainItem consumes before with
    | case1 cursor cause stopped failed =>
        rw [collect, itemAgrees.same cursor fits, failed]
        rfl
    | case2 cursor after ended =>
        rw [collect, itemAgrees.same cursor fits, ended]
        rfl
    | case3 cursor first after found cause stopped laterFails inductionHypothesis =>
        have laterFits := itemAgrees.keeps _ _ _ fits found
        have shorter := consumes.remaining_lt found
        rw [collect, itemAgrees.same cursor fits, found]
        simp only [outcome, if_pos shorter, inductionHypothesis laterFits, laterFails]
    | case4 cursor first after found later last laterRead inductionHypothesis =>
        have laterFits := itemAgrees.keeps _ _ _ fits found
        have shorter := consumes.remaining_lt found
        rw [collect, itemAgrees.same cursor fits, found]
        simp only [outcome, if_pos shorter, inductionHypothesis laterFits, laterRead]
  keeps before value after fits success := by
    fun_induction Reader.collect plainItem consumes before generalizing value after with
    | case1 cursor cause stopped failed =>
        cases success
    | case2 cursor last ended =>
        cases success
        exact itemAgrees.keeps _ _ _ fits ended
    | case3 cursor first last found cause stopped laterFails inductionHypothesis =>
        cases success
    | case4 cursor first between found later last laterRead inductionHypothesis =>
        cases success
        exact inductionHypothesis _ _ (itemAgrees.keeps _ _ _ fits found) laterRead

end Reading

end LineAtlas.Checked
