import LineAtlas.Reader
import LineAtlas.Proofs.Writing.Base128
import LineAtlas.Proofs.Writing.FixedWidth

namespace LineAtlas

/-!
# Readers that see only what they take

`Reads reader order bytes value` says that the reader finds `value` in `bytes`
wherever they stand: whatever comes before and after them, it takes exactly these
bytes. A reader is `Local` when each of its successes is of this kind, so that
neither the position nor the bytes around it can change what it found.

For a local reader it is enough to look at bytes that stand alone: `TakesAll`
says that it takes all of them.
-/

/-- As many bytes as there are can be split off. -/
theorem exists_append_of_le
    {bytes : Bytes}
    {count : Nat}
    (enough : count ≤ bytes.length) :
    ∃ front back, bytes = front ++ back ∧ front.length = count :=
  ⟨bytes.take count, bytes.drop count, (List.take_append_drop count bytes).symm,
    List.length_take_of_le enough⟩

namespace Cursor

/-- The position lies in the data, and every position of the data fits into 64 bits. -/
structure Placed (cursor : Cursor) : Prop where
  position_le : cursor.position ≤ cursor.size
  size_lt : cursor.size < addressLimit

theorem placed_ofBytes
    {order : ByteOrder}
    {data : Bytes}
    (fits : data.length < addressLimit) :
    (ofBytes order data).Placed where
  position_le := Nat.zero_le _
  size_lt := fits

@[simp] theorem rest_ofBytes
    (order : ByteOrder)
    (data : Bytes) :
    (ofBytes order data).rest = data :=
  rfl

theorem length_rest (cursor : Cursor) :
    cursor.rest.length = cursor.remaining := by
  simp [rest, remaining, size]

theorem atEnd_iff {cursor : Cursor} :
    cursor.atEnd = true ↔ cursor.rest = [] := by
  rw [atEnd, decide_eq_true_iff, rest, List.drop_eq_nil_iff, size]

/-- Moving past bytes that are left leaves those after them. -/
theorem rest_advance
    {cursor : Cursor}
    {used tail : Bytes}
    (split : cursor.rest = used ++ tail) :
    (cursor.advance used.length).rest = tail := by
  have dropped : cursor.rest.drop used.length = tail := by
    simp [split]
  simpa [rest, advance, List.drop_drop] using dropped

/-- Bytes that are left end inside the data if they start there. -/
theorem end_le_size_of_split
    {cursor : Cursor}
    {used tail : Bytes}
    (inside : cursor.position ≤ cursor.size)
    (split : cursor.rest = used ++ tail) :
    cursor.position + used.length ≤ cursor.size := by
  have count := cursor.length_rest
  rw [split, List.length_append, remaining] at count
  omega

theorem advance_advance
    (cursor : Cursor)
    (near far : Nat) :
    (cursor.advance near).advance far = cursor.advance (near + far) := by
  simp [advance, Nat.add_assoc]

namespace Placed

variable {cursor : Cursor} {used tail : Bytes}

/-- Bytes that are left end inside the data. -/
theorem end_le_size
    (placed : cursor.Placed)
    (split : cursor.rest = used ++ tail) :
    cursor.position + used.length ≤ cursor.size :=
  end_le_size_of_split placed.position_le split

/-- Moving past bytes that are left stays inside the data. -/
theorem advance
    (placed : cursor.Placed)
    (split : cursor.rest = used ++ tail) :
    (cursor.advance used.length).Placed where
  position_le := placed.end_le_size split
  size_lt := placed.size_lt

/-- As many bytes as lie before the end can be split off. -/
theorem exists_split
    {count : Nat}
    (enough : cursor.position + count ≤ cursor.size) :
    ∃ used tail, cursor.rest = used ++ tail ∧ used.length = count := by
  apply exists_append_of_le
  rw [length_rest, remaining]
  omega

end Placed

end Cursor

namespace Reader

variable {α β : Type}

/-- The reader finds `value` in `bytes`, wherever they stand, and takes exactly them. -/
def Reads
    (reader : Reader α)
    (order : ByteOrder)
    (bytes : Bytes)
    (value : α) :
    Prop :=
  ∀ cursor tail,
    cursor.Placed →
    cursor.order = order →
    cursor.rest = bytes ++ tail →
    reader cursor = .ok value (cursor.advance bytes.length)

/-- The reader finds `value` in `bytes` that stand alone, and takes all of them. -/
def TakesAll
    (reader : Reader α)
    (order : ByteOrder)
    (bytes : Bytes)
    (value : α) :
    Prop :=
  reader (.ofBytes order bytes) =
    .ok value ((Cursor.ofBytes order bytes).advance bytes.length)

/-- Whatever the reader finds, it finds in the bytes that it takes. -/
def Local (reader : Reader α) : Prop :=
  ∀ cursor value after,
    cursor.Placed →
    reader cursor = .ok value after →
    ∃ used tail,
      cursor.rest = used ++ tail ∧
        after = cursor.advance used.length ∧
        reader.Reads cursor.order used value

/-- What is read anywhere is read at the start of some bytes, whatever comes after it. -/
theorem Reads.atStart
    {reader : Reader α}
    {order : ByteOrder}
    {bytes tail : Bytes}
    {value : α}
    (reads : reader.Reads order bytes value)
    (fits : (bytes ++ tail).length < addressLimit) :
    reader (.ofBytes order (bytes ++ tail)) =
      .ok value ((Cursor.ofBytes order (bytes ++ tail)).advance bytes.length) :=
  reads _ tail (Cursor.placed_ofBytes fits) rfl rfl

/-- What is read anywhere is read alone. -/
theorem Reads.takesAll
    {reader : Reader α}
    {order : ByteOrder}
    {bytes : Bytes}
    {value : α}
    (reads : reader.Reads order bytes value)
    (fits : bytes.length < addressLimit) :
    reader.TakesAll order bytes value :=
  reads _ [] (Cursor.placed_ofBytes fits) rfl (by simp)

/-- What a local reader reads alone, it reads anywhere. -/
theorem Local.reads
    {reader : Reader α}
    {order : ByteOrder}
    {bytes : Bytes}
    {value : α}
    (isLocal : reader.Local)
    (alone : reader.TakesAll order bytes value)
    (fits : bytes.length < addressLimit) :
    reader.Reads order bytes value := by
  obtain ⟨used, tail, split, stopped, reads⟩ :=
    isLocal _ _ _ (Cursor.placed_ofBytes fits) alone
  have sameLength : bytes.length = used.length := by
    simpa [Cursor.advance, Cursor.ofBytes] using stopped
  rw [Cursor.rest_ofBytes] at split
  have noTail : tail = [] := by
    apply List.eq_nil_of_length_eq_zero
    have := congrArg List.length split
    simp only [List.length_append] at this
    omega
  rw [split, noTail, List.append_nil]
  exact reads

/-- A local reader keeps to its data. -/
theorem Local.keeps
    {reader : Reader α}
    (isLocal : reader.Local)
    {before after : Cursor}
    {value : α}
    (placed : before.Placed)
    (success : reader before = .ok value after) :
    after.Placed ∧ after.data = before.data ∧ after.order = before.order := by
  obtain ⟨used, tail, split, rfl, -⟩ := isLocal before value after placed success
  exact ⟨placed.advance split, rfl, rfl⟩

/-- A reader is local if each success starts with bytes in which it finds something anywhere. -/
theorem local_of_reads
    {reader : Reader α}
    (found :
      ∀ cursor value after,
        cursor.Placed →
        reader cursor = .ok value after →
        ∃ used tail other,
          cursor.rest = used ++ tail ∧
            reader.Reads cursor.order used other) :
    reader.Local := by
  intro cursor value after placed success
  obtain ⟨used, tail, other, split, reads⟩ := found cursor value after placed success
  have again := reads cursor tail placed rfl split
  rw [success] at again
  cases again
  exact ⟨used, tail, split, rfl, reads⟩

/-! ## Sequencing -/

theorem reads_pure
    (order : ByteOrder)
    (value : α) :
    (pure value : Reader α).Reads order [] value := by
  intro cursor tail placed sameOrder split
  rfl

theorem local_pure (value : α) : (pure value : Reader α).Local := by
  intro cursor found after placed success
  cases success
  exact ⟨[], cursor.rest, rfl, rfl, reads_pure _ value⟩

theorem local_throw (cause : ReadError) : (throw cause : Reader α).Local := by
  intro cursor found after placed success
  cases success

/-- A reader after one that succeeds. -/
theorem bind_of_ok
    {first : Reader α}
    {next : α → Reader β}
    {before between : Cursor}
    {found : α}
    (success : first before = .ok found between) :
    (first >>= next) before = next found between := by
  show EStateM.bind first next before = _
  rw [EStateM.bind, success]

theorem Reads.bind
    {first : Reader α}
    {next : α → Reader β}
    {order : ByteOrder}
    {near far : Bytes}
    {found : α}
    {value : β}
    (firstReads : first.Reads order near found)
    (nextReads : (next found).Reads order far value) :
    (first >>= next).Reads order (near ++ far) value := by
  intro cursor tail placed sameOrder split
  rw [List.append_assoc] at split
  have nearRead := firstReads cursor (far ++ tail) placed sameOrder split
  have farRead :=
    nextReads _ tail (placed.advance split) sameOrder (Cursor.rest_advance split)
  rw [bind_of_ok nearRead, farRead, Cursor.advance_advance, List.length_append]

/-- A reader that takes nothing after another one. -/
theorem Reads.bind_nil
    {first : Reader α}
    {next : α → Reader β}
    {order : ByteOrder}
    {bytes : Bytes}
    {found : α}
    {value : β}
    (firstReads : first.Reads order bytes found)
    (nextReads : (next found).Reads order [] value) :
    (first >>= next).Reads order bytes value := by
  simpa using firstReads.bind nextReads

theorem Reads.map
    {reader : Reader α}
    {order : ByteOrder}
    {bytes : Bytes}
    {value : α}
    (reads : reader.Reads order bytes value)
    (change : α → β) :
    (change <$> reader).Reads order bytes (change value) := by
  rw [← bind_pure_comp]
  exact reads.bind_nil (reads_pure order (change value))

theorem Local.bind
    {first : Reader α}
    {next : α → Reader β}
    (firstLocal : first.Local)
    (nextLocal : ∀ found, (next found).Local) :
    (first >>= next).Local := by
  intro cursor value after placed success
  obtain ⟨found, between, firstRead, nextRead⟩ := bind_eq_ok_iff.mp success
  obtain ⟨near, rest, split, rfl, nearReads⟩ :=
    firstLocal cursor found between placed firstRead
  obtain ⟨far, tail, laterSplit, rfl, farReads⟩ :=
    nextLocal found _ value after (placed.advance split) nextRead
  rw [Cursor.rest_advance split] at laterSplit
  refine ⟨near ++ far, tail, ?_, ?_, nearReads.bind farReads⟩
  · rw [split, laterSplit, List.append_assoc]
  · rw [Cursor.advance_advance, List.length_append]

theorem Local.map
    {reader : Reader α}
    (isLocal : reader.Local)
    (change : α → β) :
    (change <$> reader).Local := by
  rw [← bind_pure_comp]
  exact isLocal.bind fun found => local_pure (change found)

/-- Where the position goes into a failure only, it does not matter. -/
theorem reads_position_bind
    {next : Nat → Reader α}
    {order : ByteOrder}
    {bytes : Bytes}
    {value : α}
    (reads : ∀ start, (next start).Reads order bytes value) :
    (position >>= next).Reads order bytes value := by
  intro cursor tail placed sameOrder split
  exact reads cursor.position cursor tail placed sameOrder split

/-- A reader that asks for the position is local if the position goes into failures only. -/
theorem local_position_bind
    {next : Nat → Reader α}
    (nextLocal : ∀ start, (next start).Local)
    (anywhere :
      ∀ start other cursor value after,
        next start cursor = .ok value after →
        next other cursor = .ok value after) :
    (position >>= next).Local := by
  intro cursor value after placed success
  obtain ⟨used, tail, split, stopped, reads⟩ :=
    nextLocal cursor.position cursor value after placed success
  refine ⟨used, tail, split, stopped, reads_position_bind fun start => ?_⟩
  intro other otherTail otherPlaced sameOrder otherSplit
  exact anywhere _ _ _ _ _ (reads other otherTail otherPlaced sameOrder otherSplit)

/-! ## Fields -/

/-- Bytes that are left can be looked at. -/
theorem bytesAt_of_rest
    {cursor : Cursor}
    {used tail : Bytes}
    (placed : cursor.Placed)
    (split : cursor.rest = used ++ tail)
    (subject : String) :
    cursor.bytesAt subject cursor.position used.length = .ok used := by
  have inside := placed.end_le_size split
  have room := placed.size_lt
  have found : (cursor.data.drop cursor.position).take used.length = used := by
    have := congrArg (List.take used.length) split
    simpa [Cursor.rest] using this
  rw [Cursor.bytesAt, if_neg (by omega), if_neg (by omega), found]

/-- A field that is left holds the number of its bytes. -/
theorem numberAt_of_rest
    {cursor : Cursor}
    {used tail : Bytes}
    {width : Nat}
    (placed : cursor.Placed)
    (split : cursor.rest = used ++ tail)
    (size : used.length = width)
    (subject : String) :
    cursor.numberAt subject width cursor.position = .ok (cursor.order.number used) := by
  rw [Cursor.numberAt, ← size, bytesAt_of_rest placed split subject]
  rfl

/-- A field is read from as many bytes as it has. -/
theorem reads_field
    (order : ByteOrder)
    {bytes : Bytes}
    {width : Nat}
    (size : bytes.length = width)
    (subject : String)
    (ofNumber : Nat → α) :
    (consuming fun cursor =>
        ((cursor.numberAt subject width cursor.position).map ofNumber).map (·, width)).Reads
      order bytes (ofNumber (order.number bytes)) := by
  rintro cursor tail placed rfl split
  have look := numberAt_of_rest placed split size subject
  simp [consuming, look, Except.map, size]

theorem local_field
    (subject : String)
    (width : Nat)
    (ofNumber : Nat → α) :
    (consuming fun cursor =>
        ((cursor.numberAt subject width cursor.position).map ofNumber).map (·, width)).Local := by
  apply local_of_reads
  intro cursor value after placed success
  cases number : cursor.numberAt subject width cursor.position with
  | error cause =>
      simp [consuming, number, Except.map] at success
  | ok found =>
      obtain ⟨used, tail, split, size⟩ :=
        Cursor.Placed.exists_split (Cursor.le_size_of_numberAt number)
      exact ⟨used, tail, _, split, reads_field cursor.order size subject ofNumber⟩

/-- Bytes that can be looked at are the ones at the offset. -/
theorem exists_drop_of_bytesAt
    {cursor : Cursor}
    {subject : String}
    {offset count : Nat}
    {found : Bytes}
    (look : cursor.bytesAt subject offset count = .ok found) :
    ∃ tail, cursor.data.drop offset = found ++ tail ∧ found.length = count := by
  have inside := Cursor.le_size_of_bytesAt look
  refine ⟨(cursor.data.drop offset).drop count, ?_⟩
  unfold Cursor.bytesAt at look
  split at look
  · cases look
  · rw [if_neg (Nat.not_lt_of_le inside)] at look
    cases look
    refine ⟨(List.take_append_drop count _).symm, ?_⟩
    rw [Cursor.size] at inside
    rw [List.length_take, List.length_drop]
    omega

/-- A field that is read holds the number of the bytes that are left. -/
theorem exists_rest_of_field
    {subject : String}
    {width : Nat}
    {ofNumber : Nat → α}
    {cursor after : Cursor}
    {value : α}
    (success :
      consuming (fun cursor =>
          ((cursor.numberAt subject width cursor.position).map ofNumber).map (·, width)) cursor =
        .ok value after) :
    ∃ used tail,
      cursor.rest = used ++ tail ∧
        used.length = width ∧
        ofNumber (cursor.order.number used) = value ∧
        after = cursor.advance width := by
  cases look : cursor.bytesAt subject cursor.position width with
  | error cause =>
      simp [consuming, Cursor.numberAt, look, Except.map] at success
  | ok used =>
      obtain ⟨tail, split, size⟩ := exists_drop_of_bytesAt look
      simp only [consuming, Cursor.numberAt, look, Except.map] at success
      cases success
      exact ⟨used, tail, split, size, rfl, rfl⟩

/-- A field that is read is what its number is written with, and the rest comes after it. -/
theorem split_of_field
    {subject : String}
    {width : Nat}
    {ofNumber : Nat → α}
    {toNumber : α → Nat}
    (exact : ∀ number < 256 ^ width, toNumber (ofNumber number) = number)
    {cursor after : Cursor}
    {value : α}
    (success :
      consuming (fun cursor =>
          ((cursor.numberAt subject width cursor.position).map ofNumber).map (·, width)) cursor =
        .ok value after) :
    cursor.rest = cursor.order.field width (toNumber value) ++ after.rest ∧
      after = cursor.advance width := by
  obtain ⟨used, tail, split, rfl, rfl, rfl⟩ := exists_rest_of_field success
  refine ⟨?_, rfl⟩
  rw [exact _ (cursor.order.number_lt used), cursor.order.field_number,
    Cursor.rest_advance split, split]

theorem split_of_uint8
    {cursor after : Cursor}
    {byte : UInt8}
    (success : uint8 cursor = .ok byte after) :
    cursor.rest = byte :: after.rest ∧ after = cursor.advance 1 := by
  have split := split_of_field (fun _ => UInt8.toNat_ofNat_of_lt') success
  rwa [ByteOrder.field_one, UInt8.ofNat_toNat] at split

theorem split_of_uint16
    {cursor after : Cursor}
    {value : UInt16}
    (success : uint16 cursor = .ok value after) :
    cursor.rest = cursor.order.field 2 value.toNat ++ after.rest ∧ after = cursor.advance 2 :=
  split_of_field (fun _ => UInt16.toNat_ofNat_of_lt') success

theorem split_of_uint32
    {cursor after : Cursor}
    {value : UInt32}
    (success : uint32 cursor = .ok value after) :
    cursor.rest = cursor.order.field 4 value.toNat ++ after.rest ∧ after = cursor.advance 4 :=
  split_of_field (fun _ => UInt32.toNat_ofNat_of_lt') success

theorem reads_uint8
    (order : ByteOrder)
    (byte : UInt8) :
    uint8.Reads order [byte] byte := by
  have field := reads_field order (show [byte].length = 1 from rfl) "u8" UInt8.ofNat
  have same : UInt8.ofNat (order.number [byte]) = byte := by
    cases order <;> simp [ByteOrder.number, littleNumber]
  rwa [same] at field

theorem reads_uint16
    (order : ByteOrder)
    (number : UInt16) :
    uint16.Reads order (order.field 2 number.toNat) number := by
  have field := reads_field order (order.length_field 2 number.toNat) "u16" UInt16.ofNat
  rwa [order.number_field (by simpa using number.toNat_lt), UInt16.ofNat_toNat] at field

theorem reads_uint32
    (order : ByteOrder)
    (number : UInt32) :
    uint32.Reads order (order.field 4 number.toNat) number := by
  have field := reads_field order (order.length_field 4 number.toNat) "u32" UInt32.ofNat
  rwa [order.number_field (by simpa using number.toNat_lt), UInt32.ofNat_toNat] at field

theorem local_uint8 : uint8.Local :=
  local_field "u8" 1 UInt8.ofNat

theorem local_uint16 : uint16.Local :=
  local_field "u16" 2 UInt16.ofNat

theorem local_uint32 : uint32.Local :=
  local_field "u32" 4 UInt32.ofNat

/-- An address of one of the four sizes is the number that its bytes hold. -/
theorem reads_address
    (order : ByteOrder)
    {bytes : Bytes}
    {width : Nat}
    (size : bytes.length = width)
    (usual : width = 1 ∨ width = 2 ∨ width = 4 ∨ width = 8) :
    (address width).Reads order bytes (UInt64.ofNat (order.number bytes)) := by
  rintro cursor tail placed rfl split
  have small := cursor.order.number_lt bytes
  rw [size] at small
  have number := numberAt_of_rest placed split size
  have look :
      cursor.addressAt width cursor.position =
        .ok (UInt64.ofNat (cursor.order.number bytes)) := by
    rcases usual with rfl | rfl | rfl | rfl <;>
      simp only [Cursor.addressAt, Cursor.uint8At, Cursor.uint16At, Cursor.uint32At,
        Cursor.uint64At, number, Except.map, Except.ok.injEq]
    all_goals
      apply UInt64.toNat_inj.mp
      simp
      omega
  simp [address, consuming, look, Except.map, size]

/-- Changing what was found neither adds nor removes a failure. -/
theorem map_eq_ok_iff
    {change : α → β}
    {look : Except ReadError α}
    {value : β} :
    look.map change = .ok value ↔ ∃ found, look = .ok found ∧ change found = value := by
  cases look <;> simp [Except.map]

/-- A reader succeeds where its look does. -/
theorem look_of_consuming_eq_ok
    {look : Cursor → Except ReadError (α × Nat)}
    {cursor after : Cursor}
    {value : α}
    (success : consuming look cursor = .ok value after) :
    ∃ used, look cursor = .ok (value, used) := by
  unfold consuming at success
  split at success
  · next found used seen =>
      cases success
      exact ⟨used, seen⟩
  · cases success

/-- An address field that can be read lies inside the data. -/
theorem le_size_of_address
    {before after : Cursor}
    {width : Nat}
    {value : UInt64}
    (success : address width before = .ok value after) :
    before.position + width ≤ before.size := by
  obtain ⟨used, seen⟩ := look_of_consuming_eq_ok success
  obtain ⟨number, look, -⟩ := map_eq_ok_iff.mp seen
  unfold Cursor.addressAt at look
  split at look
  · obtain ⟨byte, byteLook, -⟩ := map_eq_ok_iff.mp look
    obtain ⟨wide, field, -⟩ := map_eq_ok_iff.mp byteLook
    exact Cursor.le_size_of_numberAt field
  · obtain ⟨half, halfLook, -⟩ := map_eq_ok_iff.mp look
    exact Cursor.le_size_of_uint16At halfLook
  · obtain ⟨word, wordLook, -⟩ := map_eq_ok_iff.mp look
    obtain ⟨wide, field, -⟩ := map_eq_ok_iff.mp wordLook
    exact Cursor.le_size_of_numberAt field
  · obtain ⟨wide, field, -⟩ := map_eq_ok_iff.mp look
    exact Cursor.le_size_of_numberAt field
  · cases look

/-- An address has one of the four usual sizes. -/
theorem usual_of_address
    {before after : Cursor}
    {width : Nat}
    {value : UInt64}
    (success : address width before = .ok value after) :
    width = 1 ∨ width = 2 ∨ width = 4 ∨ width = 8 := by
  obtain ⟨used, seen⟩ := look_of_consuming_eq_ok success
  obtain ⟨found, look, -⟩ := map_eq_ok_iff.mp seen
  unfold Cursor.addressAt at look
  split at look
  · simp
  · simp
  · simp
  · simp
  · cases look

theorem local_address (width : Nat) : (address width).Local := by
  apply local_of_reads
  intro cursor value after placed success
  obtain ⟨used, tail, split, size⟩ := Cursor.Placed.exists_split (le_size_of_address success)
  exact ⟨used, tail, _, split, reads_address cursor.order size (usual_of_address success)⟩

/-! ## Base-128 numbers -/

theorem reads_unsigned
    (order : ByteOrder)
    {bytes : Bytes}
    {value : UInt64}
    (spelling : Base128.UnsignedSpelling bytes value.toNat)
    (short : bytes.length ≤ 10) :
    unsigned.Reads order bytes value := by
  intro cursor tail placed sameOrder split
  have look := Base128.unsigned_complete spelling short tail
  simp [unsigned, consuming, split, look]

theorem local_unsigned : unsigned.Local := by
  apply local_of_reads
  intro cursor value after placed success
  cases look : Base128.unsigned cursor.rest with
  | error cause =>
      simp [unsigned, consuming, look] at success
  | ok found =>
      obtain ⟨taken, tail, split, spelling, short, count⟩ := Base128.unsigned_sound look
      exact ⟨taken, tail, found.1, split, reads_unsigned cursor.order spelling short⟩

theorem reads_signed
    (order : ByteOrder)
    {bytes : Bytes}
    {wide : Int}
    (spelling : Base128.SignedSpelling bytes wide)
    (short : bytes.length ≤ 10) :
    signed.Reads order bytes (Int64.ofInt wide) := by
  intro cursor tail placed sameOrder split
  have look := Base128.signed_complete spelling short tail
  simp [signed, consuming, split, look]

theorem local_signed : signed.Local := by
  apply local_of_reads
  intro cursor value after placed success
  cases look : Base128.signed cursor.rest with
  | error cause =>
      simp [signed, consuming, look] at success
  | ok found =>
      obtain ⟨taken, tail, wide, split, spelling, -, short, count⟩ :=
        Base128.signed_sound look
      exact ⟨taken, tail, _, split, reads_signed cursor.order spelling short⟩

/-! ## Runs of bytes -/

/-- Bytes without a NUL are what stands before the NUL that ends them. -/
theorem takeWhile_terminated
    {text : Bytes}
    (noNul : (0 : UInt8) ∉ text)
    (tail : Bytes) :
    (text ++ [0] ++ tail).takeWhile (· ≠ 0) = text := by
  rw [List.append_assoc, List.takeWhile_append_of_pos]
  · simp
  · intro byte member
    simpa using fun zero : byte = 0 => noNul (zero ▸ member)

/-- Bytes without a NUL are read up to the NUL that ends them. -/
theorem reads_terminated
    (order : ByteOrder)
    {text : Bytes}
    (noNul : (0 : UInt8) ∉ text) :
    terminated.Reads order (text ++ [0]) text := by
  intro cursor tail placed sameOrder split
  have present : cursor.rest.contains 0 = true := by
    simp [split]
  have before : cursor.rest.takeWhile (· ≠ 0) = text := by
    rw [split, takeWhile_terminated noNul]
  simp only [terminated, consuming, Cursor.terminatedBytes, present, if_true, before,
    Except.map, List.length_append, List.length_singleton]

theorem local_terminated : terminated.Local := by
  apply local_of_reads
  intro cursor value after placed success
  by_cases present : (0 : UInt8) ∈ cursor.rest
  · obtain ⟨text, tail, split, noNul⟩ := List.eq_append_cons_of_mem present
    exact ⟨text ++ [0], tail, text, by simp [split], reads_terminated cursor.order noNul⟩
  · simp [terminated, consuming, Cursor.terminatedBytes, present, Except.map] at success

/-- Bytes that are left can be skipped. -/
theorem reads_skip
    (order : ByteOrder)
    (bytes : Bytes) :
    (skip bytes.length).Reads order bytes () := by
  intro cursor tail placed sameOrder split
  have inside := placed.end_le_size split
  have room := placed.size_lt
  rw [skip, if_neg (by omega), seek, if_neg (by omega), Cursor.advance]

/-- Bytes that were skipped lie inside the data. -/
theorem le_size_of_skip
    {before after : Cursor}
    {count : Nat}
    (success : skip count before = .ok () after) :
    before.position + count ≤ before.size := by
  unfold skip seek at success
  split at success
  · cases success
  · split at success
    · cases success
    · omega

theorem local_skip (count : Nat) : (skip count).Local := by
  apply local_of_reads
  intro cursor value after placed success
  obtain ⟨used, tail, split, rfl⟩ :=
    Cursor.Placed.exists_split (le_size_of_skip success)
  exact ⟨used, tail, (), split, reads_skip cursor.order used⟩

/-! ## Repetition -/

/-- As many items as were written are read. -/
theorem reads_times
    {item : Reader α}
    {order : ByteOrder}
    {pieces : List Bytes}
    {values : List α}
    (items : List.Forall₂ (item.Reads order) pieces values) :
    (item.times values.length).Reads order pieces.flatten values := by
  induction items with
  | nil =>
      exact reads_pure order []
  | cons first later inductionHypothesis =>
      exact first.bind (inductionHypothesis.bind_nil (reads_pure order _))

theorem Local.times
    {item : Reader α}
    (itemLocal : item.Local)
    (count : Nat) :
    (item.times count).Local := by
  induction count with
  | zero =>
      exact local_pure []
  | succ count inductionHypothesis =>
      exact itemLocal.bind fun first =>
        inductionHypothesis.bind fun later =>
          local_pure (first :: later)

section Collect

variable
  {item : Reader (Option α)}
  {consumes : item.Consuming}
  {order : ByteOrder}

/-- The mark that ends a list is read as the empty list. -/
theorem reads_collect_nil
    {mark : Bytes}
    (ends : item.Reads order mark none) :
    (collect item consumes).Reads order mark [] := by
  intro cursor tail placed sameOrder split
  have ended := ends cursor tail placed sameOrder split
  rw [collect]
  split <;> simp_all

/-- An item before a list is read as its first element. -/
theorem reads_collect_cons
    {near far : Bytes}
    {first : α}
    {later : List α}
    (firstReads : item.Reads order near (some first))
    (laterReads : (collect item consumes).Reads order far later) :
    (collect item consumes).Reads order (near ++ far) (first :: later) := by
  intro cursor tail placed sameOrder split
  rw [List.append_assoc] at split
  have nearRead := firstReads cursor (far ++ tail) placed sameOrder split
  have farRead :=
    laterReads _ tail (placed.advance split) sameOrder (Cursor.rest_advance split)
  rw [collect]
  split
  · simp_all
  · simp_all
  · next found after outcome =>
      rw [nearRead] at outcome
      cases outcome
      rw [farRead, Cursor.advance_advance, List.length_append]

/-- Items that are written one after the other are read as a list. -/
theorem reads_collect
    {γ : Type}
    {items : List γ}
    {mark : Bytes}
    {write : γ → Bytes}
    {value : γ → α}
    (each : ∀ part ∈ items, item.Reads order (write part) (some (value part)))
    (ends : item.Reads order mark none) :
    (collect item consumes).Reads order (items.flatMap write ++ mark) (items.map value) := by
  induction items with
  | nil =>
      exact reads_collect_nil ends
  | cons part later inductionHypothesis =>
      rw [List.flatMap_cons, List.append_assoc, List.map_cons]
      exact reads_collect_cons
        (each part (by simp))
        (inductionHypothesis fun other member => each other (by simp [member]))

/-- A list of local items is local. -/
theorem Local.collect (itemLocal : item.Local) : (collect item consumes).Local := by
  intro cursor values after placed success
  fun_induction Reader.collect item consumes cursor generalizing values after with
  | case1 cursor cause stopped outcome =>
      cases success
  | case2 cursor last outcome =>
      cases success
      obtain ⟨used, tail, split, stopped, reads⟩ :=
        itemLocal cursor none last placed outcome
      exact ⟨used, tail, split, stopped, reads_collect_nil reads⟩
  | case3 cursor first between outcome cause stopped laterFails =>
      cases success
  | case4 cursor first between outcome later last laterRead inductionHypothesis =>
      cases success
      obtain ⟨near, rest, split, rfl, nearReads⟩ :=
        itemLocal cursor (some first) between placed outcome
      obtain ⟨far, tail, laterSplit, rfl, farReads⟩ :=
        inductionHypothesis later last (placed.advance split) laterRead
      rw [Cursor.rest_advance split] at laterSplit
      refine ⟨near ++ far, tail, ?_, ?_, reads_collect_cons nearReads farReads⟩
      · rw [split, laterSplit, List.append_assoc]
      · rw [Cursor.advance_advance, List.length_append]

end Collect

end Reader

end LineAtlas
