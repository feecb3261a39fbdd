import LineAtlas.CursorFamily
import LineAtlas.Proofs.Consumption
import LineAtlas.Proofs.Offsets

namespace LineAtlas

/-!
# What a request does to a cursor

A request either takes the bytes after the position, or looks at bytes elsewhere, or moves
the position to a target, or makes another cursor. `CursorRequest.Does` says for each of
these what the reply is, where the position is afterwards and which cursor is made; the
data and the byte order stay. A request that fails leaves the cursor as it is.
-/

/-- The widths of fields. -/
inductive FieldWidth where
  | one
  | two
  | four
  | eight
  deriving Repr, DecidableEq

namespace FieldWidth

/-- The count of bytes of a field. -/
def size : FieldWidth → Nat
  | one => 1
  | two => 2
  | four => 4
  | eight => 8

/-- What a field is called where it is missing. -/
def subject : FieldWidth → String
  | one => "u8"
  | two => "u16"
  | four => "u32"
  | eight => "u64"

/-- The request for the field at the position. -/
def next : FieldWidth → CursorRequest
  | one => .uint8
  | two => .uint16
  | four => .uint32
  | eight => .uint64

/-- The request for the field at an offset. -/
def look (offset : Nat) : FieldWidth → CursorRequest
  | one => .uint8At offset
  | two => .uint16At offset
  | four => .uint32At offset
  | eight => .uint64At offset

end FieldWidth

namespace CursorRequest

open Base128

/-- The request finds the reply in the bytes that it takes. -/
inductive Finds (order : ByteOrder) : CursorRequest → Bytes → CursorReply → Prop where
  | field
      (width : FieldWidth)
      {taken : Bytes}
      (count : taken.length = width.size) :
      Finds order width.next taken (.word (.ofNat (order.number taken)))
  | address
      (width : FieldWidth)
      {taken : Bytes}
      (count : taken.length = width.size) :
      Finds order (.address width.size) taken (.word (.ofNat (order.number taken)))
  | unsigned
      {taken : Bytes}
      {value : UInt64}
      (spelling : UnsignedSpelling taken value.toNat) :
      Finds order .unsigned taken (.word value)
  | signed
      {taken : Bytes}
      {wide : Int}
      (spelling : SignedSpelling taken wide) :
      Finds order .signed taken (.signedWord (.ofInt wide))
  | terminated
      {text : Bytes}
      (noNul : (0 : UInt8) ∉ text) :
      Finds order .terminated (text ++ [0]) (.bytes text)
  | skip
      (taken : Bytes) :
      Finds order (.skip taken.length) taken .done

/--
The request gives the reply, leaves the cursor at the position, and makes another cursor
where there is one.
-/
inductive Does
    (cursor : Cursor) :
    CursorRequest → CursorReply → Nat → Option Cursor → Prop where
  | takes
      {request : CursorRequest}
      {reply : CursorReply}
      {taken tail : Bytes}
      (split : cursor.rest = taken ++ tail)
      (finds : Finds cursor.order request taken reply) :
      Does cursor request reply (cursor.position + taken.length) none
  | splits
      {taken tail : Bytes}
      (split : cursor.rest = taken ++ tail) :
      Does cursor (.splitOff taken.length) (.size taken.length)
        (cursor.position + taken.length) (some (.ofBytes cursor.order taken))
  | looks
      (width : FieldWidth)
      {offset : Nat}
      {found : Bytes}
      (held : cursor.Holds offset found)
      (count : found.length = width.size) :
      Does cursor (width.look offset) (.word (.ofNat (cursor.order.number found)))
        cursor.position none
  | seeks
      {target : Nat}
      (inside : target ≤ cursor.size) :
      Does cursor (.seek target) .done target none
  | rewinds :
      Does cursor .rewind .done 0 none
  | copies :
      Does cursor .copy .done cursor.position (some cursor)
  | describes :
      Does cursor .describe (.description cursor.size cursor.data.isEmpty cursor.order)
        cursor.position none

end CursorRequest

/-! ## Readers that fail where they stand -/

namespace Reader

variable {α β : Type}

/-- A failure leaves the cursor as it was. -/
def Stays (reader : Reader α) : Prop :=
  ∀ before cause stopped, reader before = .error cause stopped → stopped = before

theorem stays_consuming (look : Cursor → Except ReadError (α × Nat)) : (consuming look).Stays := by
  intro before cause stopped failure
  unfold consuming at failure
  split at failure
  · cases failure
  · cases failure
    rfl

theorem stays_looking (look : Cursor → Except ReadError α) : (looking look).Stays := by
  intro before cause stopped failure
  unfold looking at failure
  split at failure
  · cases failure
  · cases failure
    rfl

theorem stays_seek (target : Nat) : (seek target).Stays := by
  intro before cause stopped failure
  unfold seek at failure
  split at failure
  · cases failure
    rfl
  · cases failure

theorem stays_skip (count : Nat) : (skip count).Stays := by
  intro before cause stopped failure
  unfold skip at failure
  split at failure
  · cases failure
    rfl
  · exact stays_seek _ before cause stopped failure

theorem stays_rewind : rewind.Stays := by
  intro before cause stopped failure
  cases failure

/-- Changing what is read succeeds where the reader does. -/
theorem change_eq_ok_iff
    {reader : Reader α}
    {change : α → β}
    {before after : Cursor}
    {value : β} :
    (change <$> reader) before = .ok value after ↔
      ∃ found, reader before = .ok found after ∧ change found = value := by
  rw [← bind_pure_comp, bind_eq_ok_iff]
  constructor
  · rintro ⟨found, between, success, changed⟩
    cases changed
    exact ⟨found, success, rfl⟩
  · rintro ⟨found, success, rfl⟩
    exact ⟨found, after, success, rfl⟩

theorem Stays.map
    {reader : Reader α}
    (stays : reader.Stays)
    (change : α → β) :
    (change <$> reader).Stays := by
  intro before cause stopped failure
  rw [← bind_pure_comp, bind_eq_error_iff] at failure
  obtain failure | ⟨_, _, -, impossible⟩ := failure
  · exact stays before cause stopped failure
  · cases impossible

end Reader

/-- A request that fails leaves the cursor as it was. -/
theorem CursorRequest.stays_perform (request : CursorRequest) : request.perform.Stays := by
  cases request with
  | uint8 | uint16 | uint32 | uint64 | unsigned | signed | address | terminated | splitOff =>
      exact (Reader.stays_consuming _).map _
  | uint8At | uint16At | uint32At | uint64At | copy | describe =>
      exact (Reader.stays_looking _).map _
  | seek target =>
      exact (Reader.stays_seek target).map _
  | skip count =>
      exact (Reader.stays_skip count).map _
  | rewind =>
      exact Reader.stays_rewind.map _

/-! ## Fields -/

/-- The number of a field that can be looked at is that of the bytes which stand there. -/
theorem Cursor.exists_holds_of_numberAt
    {cursor : Cursor}
    {subject : String}
    {width offset number : Nat}
    (look : cursor.numberAt subject width offset = .ok number) :
    ∃ found,
      cursor.Holds offset found ∧
        found.length = width ∧
        cursor.order.number found = number := by
  obtain ⟨found, seen, same⟩ := Reader.map_eq_ok_iff.mp look
  obtain ⟨held, count⟩ := holds_of_bytesAt seen
  exact ⟨found, held, count, same⟩

/-- A field that is kept in a word of its width is widened to the number that it holds. -/
theorem Cursor.widen_numberAt
    {α : Type}
    {ofNumber : Nat → α}
    {toWord : α → UInt64}
    {subject : String}
    {width : Nat}
    (exact : ∀ number < 256 ^ width, toWord (ofNumber number) = .ofNat number)
    (cursor : Cursor)
    (offset : Nat) :
    ((cursor.numberAt subject width offset).map ofNumber).map toWord =
      (cursor.numberAt subject width offset).map UInt64.ofNat := by
  cases look : cursor.numberAt subject width offset with
  | error cause =>
      rfl
  | ok number =>
      obtain ⟨found, -, rfl, rfl⟩ := exists_holds_of_numberAt look
      exact congrArg Except.ok (exact _ (cursor.order.number_lt found))

namespace FieldWidth

open CursorRequest

variable
  (width : FieldWidth)
  (cursor : Cursor)

section

variable
  {α : Type}
  {look : Cursor → Except ReadError α}
  {toWord : α → UInt64}

/-- Looking at a field answers with its number, and moves nothing. -/
theorem looking_apply
    {offset : Nat}
    (widened :
      (look cursor).map toWord =
        (cursor.numberAt width.subject width.size offset).map UInt64.ofNat) :
    ((fun value => plain (.word (toWord value))) <$> Reader.looking look) cursor =
      match cursor.numberAt width.subject width.size offset with
      | .ok number => .ok (plain (.word (.ofNat number))) cursor
      | .error cause => .error cause cursor := by
  show EStateM.map _ _ cursor = _
  unfold EStateM.map Reader.looking
  cases found : look cursor <;>
    cases number : cursor.numberAt width.subject width.size offset <;>
      simp_all [Except.map]

/-- Reading a field answers with its number, and moves past it. -/
theorem consuming_apply
    (widened :
      (look cursor).map toWord =
        (cursor.numberAt width.subject width.size cursor.position).map UInt64.ofNat) :
    ((fun value => plain (.word (toWord value))) <$>
        Reader.consuming fun cursor => (look cursor).map (·, width.size)) cursor =
      match cursor.numberAt width.subject width.size cursor.position with
      | .ok number => .ok (plain (.word (.ofNat number))) (cursor.advance width.size)
      | .error cause => .error cause cursor := by
  show EStateM.map _ _ cursor = _
  unfold EStateM.map Reader.consuming
  cases found : look cursor <;>
    cases number : cursor.numberAt width.subject width.size cursor.position <;>
      simp_all [Except.map]

end

/-- Whatever its width, a field at an offset is looked at as the number of its bytes. -/
theorem perform_look
    (offset : Nat) :
    (width.look offset).perform cursor =
      match cursor.numberAt width.subject width.size offset with
      | .ok number => .ok (plain (.word (.ofNat number))) cursor
      | .error cause => .error cause cursor := by
  cases width with
  | one =>
      exact looking_apply .one cursor
        (cursor.widen_numberAt (fun _ => UInt8.toUInt64_ofNat') offset)
  | two =>
      exact looking_apply .two cursor
        (cursor.widen_numberAt (fun _ => UInt16.toUInt64_ofNat') offset)
  | four =>
      exact looking_apply .four cursor
        (cursor.widen_numberAt (fun _ => UInt32.toUInt64_ofNat') offset)
  | eight =>
      exact looking_apply .eight cursor (cursor.widen_numberAt (fun _ _ => id_eq _) offset)

/-- Whatever its width, a field at the position is read as the number of its bytes. -/
theorem perform_next :
    width.next.perform cursor =
      match cursor.numberAt width.subject width.size cursor.position with
      | .ok number => .ok (plain (.word (.ofNat number))) (cursor.advance width.size)
      | .error cause => .error cause cursor := by
  cases width with
  | one =>
      exact consuming_apply .one cursor (cursor.widen_numberAt (fun _ => UInt8.toUInt64_ofNat') _)
  | two =>
      exact consuming_apply .two cursor (cursor.widen_numberAt (fun _ => UInt16.toUInt64_ofNat') _)
  | four =>
      exact consuming_apply .four cursor (cursor.widen_numberAt (fun _ => UInt32.toUInt64_ofNat') _)
  | eight =>
      exact consuming_apply .eight cursor (cursor.widen_numberAt (fun _ _ => id_eq _) _)

/-- An address of the width of a field is looked at as the number of the field. -/
theorem addressAt_size
    (offset : Nat) :
    cursor.addressAt width.size offset =
      (cursor.numberAt width.subject width.size offset).map UInt64.ofNat := by
  cases width with
  | one =>
      exact cursor.widen_numberAt (fun _ => UInt8.toUInt64_ofNat') offset
  | two =>
      exact cursor.widen_numberAt (fun _ => UInt16.toUInt64_ofNat') offset
  | four =>
      exact cursor.widen_numberAt (fun _ => UInt32.toUInt64_ofNat') offset
  | eight =>
      rfl

/-- An address of the width of a field is read as the field is. -/
theorem perform_address :
    (CursorRequest.address width.size).perform cursor = width.next.perform cursor := by
  have widened :
      (cursor.addressAt width.size cursor.position).map id =
        (cursor.numberAt width.subject width.size cursor.position).map UInt64.ofNat := by
    rw [Except.map_id, id, addressAt_size]
  rw [perform_next]
  exact consuming_apply width cursor widened

end FieldWidth

/-! ## What a success did -/

namespace CursorRequest

variable
  {request : CursorRequest}
  {before after : Cursor}
  {effect : CursorEffect}

/-- The effect is what the request does, and the cursor differs in no more than its position. -/
def Brings
    (request : CursorRequest)
    (before : Cursor)
    (effect : CursorEffect)
    (after : Cursor) :
    Prop :=
  ∃ position,
    request.Does before effect.reply position effect.made ∧
      after = { before with position := position }

/-- A request that finds its reply in the bytes at the position has moved past them. -/
theorem brings_of_holds
    {reply : CursorReply}
    {taken : Bytes}
    (held : before.Holds before.position taken)
    (finds : Finds before.order request taken reply) :
    request.Brings before (plain reply) (before.advance taken.length) := by
  obtain ⟨tail, split⟩ := held
  exact ⟨_, .takes split.symm finds, rfl⟩

/-- A field that was read is the one that stands at the position. -/
theorem brings_of_next
    {width : FieldWidth}
    (finds :
      ∀ taken,
        taken.length = width.size →
          Finds before.order request taken (.word (.ofNat (before.order.number taken))))
    (success : width.next.perform before = .ok effect after) :
    request.Brings before effect after := by
  rw [FieldWidth.perform_next] at success
  split at success
  · next number look =>
      obtain ⟨taken, held, count, rfl⟩ := Cursor.exists_holds_of_numberAt look
      cases success
      rw [← count]
      exact brings_of_holds held (finds taken count)
  · cases success

/-- A field that was looked at is the one that stands at the offset. -/
theorem brings_of_look
    (width : FieldWidth)
    {offset : Nat}
    (success : (width.look offset).perform before = .ok effect after) :
    (width.look offset).Brings before effect after := by
  rw [FieldWidth.perform_look] at success
  split at success
  · next number look =>
      obtain ⟨found, held, count, rfl⟩ := Cursor.exists_holds_of_numberAt look
      cases success
      exact ⟨_, .looks width held count, rfl⟩
  · cases success

/-- An address that was read has the width of a field, and is that field. -/
theorem brings_of_address
    {width : Nat}
    (success : (address width).perform before = .ok effect after) :
    (address width).Brings before effect after := by
  obtain ⟨field, rfl⟩ : ∃ field : FieldWidth, field.size = width := by
    obtain ⟨value, read, -⟩ := Reader.change_eq_ok_iff.mp success
    rcases Reader.usual_of_address read with rfl | rfl | rfl | rfl
    · exact ⟨.one, rfl⟩
    · exact ⟨.two, rfl⟩
    · exact ⟨.four, rfl⟩
    · exact ⟨.eight, rfl⟩
  rw [FieldWidth.perform_address] at success
  exact brings_of_next (fun _ => .address field) success

/-- An unsigned number that was read is spelled by the bytes at the position. -/
theorem brings_of_unsigned
    (success : unsigned.perform before = .ok effect after) :
    unsigned.Brings before effect after := by
  obtain ⟨value, read, rfl⟩ := Reader.change_eq_ok_iff.mp success
  obtain ⟨used, look, rfl⟩ := Reader.advance_of_consuming read
  obtain ⟨taken, tail, split, spelling, -, rfl⟩ := Base128.unsigned_sound look
  exact ⟨_, .takes split (.unsigned spelling), rfl⟩

/-- A signed number that was read is spelled by the bytes at the position. -/
theorem brings_of_signed
    (success : signed.perform before = .ok effect after) :
    signed.Brings before effect after := by
  obtain ⟨value, read, rfl⟩ := Reader.change_eq_ok_iff.mp success
  obtain ⟨used, look, rfl⟩ := Reader.advance_of_consuming read
  obtain ⟨taken, tail, wide, split, spelling, rfl, -, rfl⟩ := Base128.signed_sound look
  exact ⟨_, .takes split (.signed spelling), rfl⟩

/-- A text that was read ends before the first NUL. -/
theorem brings_of_terminated
    (success : terminated.perform before = .ok effect after) :
    terminated.Brings before effect after := by
  obtain ⟨text, read, rfl⟩ := Reader.change_eq_ok_iff.mp success
  obtain ⟨used, look, rfl⟩ := Reader.advance_of_consuming read
  obtain ⟨found, same, counted⟩ := Reader.map_eq_ok_iff.mp look
  cases counted
  unfold Cursor.terminatedBytes at same
  split at same
  · next present =>
      -- The first NUL splits what is left, and what stands before it is what was read.
      obtain ⟨front, tail, split, noNul⟩ :=
        List.eq_append_cons_of_mem (List.contains_iff_mem.mp present)
      rw [List.append_cons] at split
      rw [split, Reader.takeWhile_terminated noNul] at same
      cases same
      exact ⟨_, .takes split (.terminated noNul), by rw [List.length_append]; rfl⟩
  · cases same

/-- Bytes that were skipped are there. -/
theorem brings_of_skip
    {count : Nat}
    (success : (skip count).perform before = .ok effect after) :
    (skip count).Brings before effect after := by
  obtain ⟨_, skipped, rfl⟩ := Reader.change_eq_ok_iff.mp success
  obtain ⟨taken, tail, split, rfl⟩ :=
    Cursor.Placed.exists_split (Reader.le_size_of_skip skipped)
  exact ⟨_, .takes split (.skip taken), Reader.advance_of_skip skipped⟩

/-- A target that was moved to is inside the data. -/
theorem brings_of_seek
    {target : Nat}
    (success : (seek target).perform before = .ok effect after) :
    (seek target).Brings before effect after := by
  obtain ⟨_, sought, rfl⟩ := Reader.change_eq_ok_iff.mp success
  unfold Reader.seek at sought
  split at sought
  · cases sought
  · next inside =>
      cases sought
      exact ⟨target, .seeks (Nat.le_of_not_lt inside), rfl⟩

/-- A cursor can be split off over bytes that can be looked at. -/
theorem bytesAt_of_splitOff
    {count : Nat}
    (success : (splitOff count).perform before = .ok effect after) :
    ∃ taken,
      before.bytesAt "sub-range" before.position count = .ok taken ∧
        effect = split (.ofBytes before.order taken) ∧
        after = before.advance count := by
  obtain ⟨child, read, rfl⟩ := Reader.change_eq_ok_iff.mp success
  obtain ⟨used, look, rfl⟩ := Reader.advance_of_consuming read
  obtain ⟨taken, seen, made⟩ := Reader.map_eq_ok_iff.mp look
  cases made
  exact ⟨taken, seen, rfl, rfl⟩

/-- A cursor that was split off ranges over the bytes at the position. -/
theorem brings_of_splitOff
    {count : Nat}
    (success : (splitOff count).perform before = .ok effect after) :
    (splitOff count).Brings before effect after := by
  obtain ⟨taken, seen, rfl, rfl⟩ := bytesAt_of_splitOff success
  obtain ⟨⟨tail, split⟩, rfl⟩ := Cursor.holds_of_bytesAt seen
  exact ⟨_, .splits split.symm, rfl⟩

/-- A request that succeeds has done what it should. -/
theorem brings_of_perform
    (success : request.perform before = .ok effect after) :
    request.Brings before effect after := by
  cases request with
  | uint8 =>
      exact brings_of_next (fun _ => .field .one) success
  | uint16 =>
      exact brings_of_next (fun _ => .field .two) success
  | uint32 =>
      exact brings_of_next (fun _ => .field .four) success
  | uint64 =>
      exact brings_of_next (fun _ => .field .eight) success
  | uint8At offset =>
      exact brings_of_look .one success
  | uint16At offset =>
      exact brings_of_look .two success
  | uint32At offset =>
      exact brings_of_look .four success
  | uint64At offset =>
      exact brings_of_look .eight success
  | unsigned =>
      exact brings_of_unsigned success
  | signed =>
      exact brings_of_signed success
  | address width =>
      exact brings_of_address success
  | terminated =>
      exact brings_of_terminated success
  | seek target =>
      exact brings_of_seek success
  | skip count =>
      exact brings_of_skip success
  | rewind =>
      cases success
      exact ⟨0, .rewinds, rfl⟩
  | splitOff count =>
      exact brings_of_splitOff success
  | copy =>
      cases success
      exact ⟨_, .copies, rfl⟩
  | describe =>
      cases success
      exact ⟨_, .describes, rfl⟩

end CursorRequest

end LineAtlas
