import LineAtlas.Proofs.FieldLayout
import LineAtlas.Proofs.Findings
import LineAtlas.Proofs.LineSection.PrologueLocality

namespace LineAtlas.LineProgram.Header

/-!
# The grammar of headers

Which bytes start with a header can be told from three of their fields: the version, the line
range and the opcode base. The version says whether there is a count of operations, and the
opcode base says how many operand counts follow it.

The main statement is that reading accepts exactly this grammar. An accepted header can be
written back field by field, with only the byte of `defaultIsStatement` left open, and a
refusal names the first field, in the order in which they are written, that is missing or has
a number which is not allowed.
-/

section Stated

variable
  (order : ByteOrder)
  (bytes : Bytes)

/-- The version in the first two of the bytes. -/
def statedVersion : Nat :=
  order.number (bytes.take 2)

/-- How many bytes the count of operations takes, which is written from version 4 on. -/
def operationsWidth : Nat :=
  if statedVersion order bytes < 4 then 0 else 1

/-- The byte at the place of the line range. -/
def statedLineRange : UInt8 :=
  bytes.getD (9 + operationsWidth order bytes) 0

/-- The byte at the place of the opcode base. -/
def statedOpcodeBase : UInt8 :=
  bytes.getD (10 + operationsWidth order bytes) 0

/-- The count of bytes from the version to the last operand count. -/
def statedLength : Nat :=
  10 + operationsWidth order bytes + (statedOpcodeBase order bytes).toNat

/-- The bytes start with a header. -/
structure Begins : Prop where
  version :
    statedVersion order bytes = 2 ∨ statedVersion order bytes = 3 ∨ statedVersion order bytes = 4
  complete : statedLength order bytes ≤ bytes.length
  lineRange : statedLineRange order bytes ≠ 0
  opcodeBase : statedOpcodeBase order bytes ≠ 0

/-- The field of a version that has to be a known one. -/
def versionField : LayoutField where
  width := .two
  refusal? _ number :=
    if number < 2 ∨ 4 < number then
      some (.unsupportedVersion "line program" (.ofNat number))
    else
      none

/-- The field of a byte that must not be zero. -/
def nonzeroField (name : String) : LayoutField where
  width := .one
  refusal? stop number :=
    if number = 0 then
      some (.invalidStructure "line program header" stop (name ++ " is zero"))
    else
      none

/-- The fields of a header, in the order in which they are written. -/
def layout : List LayoutField :=
  versionField :: .any .four :: .any .one ::
    (.replicate (operationsWidth order bytes) (.any .one) ++
      .any .one :: .any .one :: nonzeroField "line_range" :: nonzeroField "opcode_base" ::
        .replicate ((statedOpcodeBase order bytes).toNat - 1) (.any .one))

end Stated

/-- The fields of a header as they are written. -/
def bytes
    (header : Header)
    (order : ByteOrder)
    (defaultIsStatement : UInt8) :
    Bytes :=
  order.field 2 header.version.toNat
    ++ (order.field 4 header.prologueLength.toNat
    ++ (header.minimumInstructionLength
    :: ((if header.version < 4 then [] else [header.maximumOperations])
    ++ (defaultIsStatement
    :: header.lineBase.toUInt8
    :: header.lineRange
    :: header.opcodeBase
    :: header.operandCounts))))

/-- The header keeps what is written between the cursors, and nothing else was read. -/
structure ReadBetween
    (unitLength : UInt32)
    (before : Cursor)
    (header : Header)
    (after : Cursor) :
    Prop where
  unitLength : header.unitLength = unitLength
  taken : after = before.advance (statedLength before.order before.rest)
  /-- Of the byte of `defaultIsStatement` only whether it is zero is kept. -/
  restored :
    ∃ defaultIsStatement,
      (header.defaultIsStatement = true ↔ defaultIsStatement ≠ 0) ∧
        before.rest.take (statedLength before.order before.rest) =
          header.bytes before.order defaultIsStatement
  operandCounts : header.operandCounts.length = header.opcodeBase.toNat - 1
  maximumOperations : header.version < 4 → header.maximumOperations = 1

/-- Reading at the cursor keeps to the grammar of headers. -/
structure KeepsGrammar
    (unitLength : UInt32)
    (cursor : Cursor) :
    Prop where
  accepts :
    (∃ header after, read unitLength cursor = .ok header after) ↔
      Begins cursor.order cursor.rest
  restores :
    ∀ header after,
      read unitLength cursor = .ok header after →
      ReadBetween unitLength cursor header after
  refuses :
    ∀ cause,
      (∃ stopped, read unitLength cursor = .error cause stopped) ↔
        cursor.firstFault? (layout cursor.order cursor.rest) = some cause

variable {cursor : Cursor}

/-! ## The fields of a layout -/

@[simp] theorem width_versionField : versionField.width = .two :=
  rfl

@[simp] theorem width_nonzeroField (name : String) : (nonzeroField name).width = .one :=
  rfl

theorem versionField_refusalAt? :
    versionField.refusalAt? cursor =
      if statedVersion cursor.order cursor.rest < 2 ∨ 4 < statedVersion cursor.order cursor.rest then
        some (.unsupportedVersion "line program" (.ofNat (statedVersion cursor.order cursor.rest)))
      else
        none :=
  rfl

theorem nonzeroField_refusalAt? (name : String) (place : Nat) :
    (nonzeroField name).refusalAt? (cursor.advance place) =
      if (cursor.rest.getD place 0).toNat = 0 then
        some (.invalidStructure "line program header" (cursor.position + place + 1)
          (name ++ " is zero"))
      else
        none := by
  rw [← cursor.number_byte place]
  rfl

theorem nonzeroField_refusalAt?_eq_none_iff {name : String} {place : Nat} :
    (nonzeroField name).refusalAt? (cursor.advance place) = none ↔
      cursor.rest.getD place 0 ≠ 0 := by
  rw [nonzeroField_refusalAt?, ite_eq_right_iff, imp_iff_not (Option.some_ne_none _)]
  exact (UInt8.toNat_inj (b := 0)).ne

theorem versionField_refusalAt?_eq_none_iff :
    versionField.refusalAt? cursor = none ↔
      statedVersion cursor.order cursor.rest = 2 ∨
        statedVersion cursor.order cursor.rest = 3 ∨
        statedVersion cursor.order cursor.rest = 4 := by
  rw [versionField_refusalAt?, ite_eq_right_iff, imp_iff_not (Option.some_ne_none _)]
  omega

theorem extent_layout
    {order : ByteOrder}
    {bytes : Bytes}
    (nonzero : statedOpcodeBase order bytes ≠ 0) :
    LayoutField.extent (layout order bytes) = statedLength order bytes := by
  have positive : 0 < (statedOpcodeBase order bytes).toNat :=
    Nat.pos_of_ne_zero (UInt8.toNat_inj.ne.mpr nonzero)
  simp only [layout, statedLength, FieldWidth.size, LayoutField.extent_cons,
    LayoutField.extent_append, LayoutField.extent_replicate, LayoutField.width_any,
    width_versionField, width_nonzeroField]
  omega

/-- The checks of a layout are those of the version, the line range and the opcode base. -/
theorem passes_layout_iff :
    cursor.Passes (layout cursor.order cursor.rest) ↔
      (statedVersion cursor.order cursor.rest = 2 ∨
        statedVersion cursor.order cursor.rest = 3 ∨
        statedVersion cursor.order cursor.rest = 4) ∧
      statedLineRange cursor.order cursor.rest ≠ 0 ∧
      statedOpcodeBase cursor.order cursor.rest ≠ 0 := by
  have lineRangePlace :
      2 + 4 + 1 + operationsWidth cursor.order cursor.rest * 1 + 1 + 1 =
        9 + operationsWidth cursor.order cursor.rest := by
    omega
  have opcodeBasePlace :
      9 + operationsWidth cursor.order cursor.rest + 1 =
        10 + operationsWidth cursor.order cursor.rest := by
    omega
  simp only [layout, Cursor.Passes, Cursor.passes_append, Cursor.passes_replicate_any,
    LayoutField.extent_replicate, LayoutField.refusalAt?_any, LayoutField.width_any,
    width_versionField, width_nonzeroField, FieldWidth.size, Cursor.advance_advance,
    versionField_refusalAt?_eq_none_iff, lineRangePlace, opcodeBasePlace,
    nonzeroField_refusalAt?_eq_none_iff, statedLineRange, statedOpcodeBase, true_and, and_true]

/-- The fields are all present and allowed exactly where the bytes start with a header. -/
theorem firstFault?_layout_eq_none_iff (inside : cursor.position ≤ cursor.size) :
    cursor.firstFault? (layout cursor.order cursor.rest) = none ↔
      Begins cursor.order cursor.rest := by
  have left : cursor.rest.length = cursor.size - cursor.position :=
    cursor.length_rest
  rw [Cursor.firstFault?_eq_none_iff inside, passes_layout_iff]
  constructor
  · rintro ⟨present, version, lineRange, opcodeBase⟩
    rw [extent_layout opcodeBase] at present
    exact ⟨version, by omega, lineRange, opcodeBase⟩
  · rintro ⟨version, complete, lineRange, opcodeBase⟩
    rw [extent_layout opcodeBase]
    exact ⟨by omega, version, lineRange, opcodeBase⟩

/-! ## Reading follows the layout -/

/-- A version that is read is the field of two bytes. -/
theorem uint16_of_readVersion
    {version : UInt16}
    {after : Cursor}
    (success : readVersion cursor = .ok version after) :
    Reader.uint16 cursor = .ok version after := by
  obtain ⟨found, between, fieldRead, checked⟩ := bind_eq_ok_iff.mp success
  split at checked
  · cases checked
  · cases checked
    exact fieldRead

theorem uint8_of_readNonzero
    {name : String}
    {byte : UInt8}
    {after : Cursor}
    (success : readNonzero name cursor = .ok byte after) :
    Reader.uint8 cursor = .ok byte after := by
  obtain ⟨found, between, byteRead, checked⟩ := bind_eq_ok_iff.mp success
  split at checked
  · cases checked
  · cases checked
    exact byteRead

/-- The version that is read is the one that the bytes start with. -/
theorem statedVersion_of_uint16
    {version : UInt16}
    {after : Cursor}
    (success : Reader.uint16 cursor = .ok version after) :
    statedVersion cursor.order cursor.rest = version.toNat :=
  Reader.number_of_uint16 success

theorem follows_readVersion (roomy : cursor.Roomy) :
    readVersion.Follows cursor [versionField] := by
  refine (Reader.follows_uint16 roomy).refuse ?_ ?_
  · intro version between value after fieldRead checked
    rw [versionField_refusalAt?, statedVersion_of_uint16 fieldRead]
    split at checked
    · cases checked
    · next known =>
        cases checked
        exact ⟨if_neg known, rfl⟩
  · intro version between cause stopped fieldRead checked
    rw [versionField_refusalAt?, statedVersion_of_uint16 fieldRead]
    split at checked
    · next unknown =>
        cases checked
        rw [UInt32.ofNat_uInt16ToNat]
        exact if_pos unknown
    · cases checked

theorem follows_readNonzero
    (roomy : cursor.Roomy)
    (name : String) :
    (readNonzero name).Follows cursor [nonzeroField name] := by
  have refusal
      {byte : UInt8}
      {between : Cursor}
      (byteRead : Reader.uint8 cursor = .ok byte between) :
      (nonzeroField name).refusalAt? cursor =
        if byte.toNat = 0 then
          some (.invalidStructure "line program header" (cursor.position + 1) (name ++ " is zero"))
        else
          none := by
    rw [← Reader.number_of_uint8 byteRead]
    rfl
  refine (Reader.follows_uint8 roomy).refuse ?_ ?_
  · intro byte between value after byteRead checked
    rw [refusal byteRead]
    split at checked
    · cases checked
    · next nonzero =>
        cases checked
        exact ⟨if_neg (UInt8.toNat_inj.ne.mpr nonzero), rfl⟩
  · intro byte between cause stopped byteRead checked
    rw [refusal byteRead]
    split at checked
    · next zero =>
        cases checked
        rw [zero, (Reader.split_of_uint8 byteRead).2]
        rfl
    · cases checked

theorem follows_operations
    (roomy : cursor.Roomy)
    (version : UInt16) :
    Reader.Follows (if version < 4 then pure 1 else Reader.uint8) cursor
      (.replicate (if version.toNat < 4 then 0 else 1) (.any .one)) := by
  by_cases early : version < 4
  · have earlyNumber : version.toNat < 4 :=
      early
    rw [if_pos early, if_pos earlyNumber]
    exact Reader.follows_pure 1
  · have lateNumber : ¬ version.toNat < 4 :=
      early
    rw [if_neg early, if_neg lateNumber]
    exact Reader.follows_uint8 roomy

/-- A header is read field by field as it is laid out. -/
theorem follows_read
    (unitLength : UInt32)
    (roomy : cursor.Roomy) :
    (read unitLength).Follows cursor (layout cursor.order cursor.rest) := by
  -- The two fields that the layout depends on are kept as equations; every field hands the
  -- room on to the next one.
  rw [Prologue.readHeader_eq]
  refine (follows_readVersion roomy).bind roomy fun version versionRead roomy => ?_
  have width :
      operationsWidth cursor.order cursor.rest = if version.toNat < 4 then 0 else 1 := by
    rw [operationsWidth, statedVersion_of_uint16 (uint16_of_readVersion versionRead)]
  refine (Reader.follows_uint32 roomy).bind roomy fun prologueLength _ roomy => ?_
  refine (Reader.follows_uint8 roomy).bind roomy fun minimumInstructionLength _ roomy => ?_
  refine (width ▸ follows_operations roomy version).bind roomy fun maximumOperations _ roomy => ?_
  refine (Reader.follows_uint8 roomy).bind roomy fun defaultIsStatement _ roomy => ?_
  refine (Reader.follows_uint8 roomy).bind roomy fun lineBase _ roomy => ?_
  refine (follows_readNonzero roomy _).bind roomy fun lineRange _ roomy => ?_
  refine (follows_readNonzero roomy _).bind roomy fun opcodeBase opcodeBaseRead roomy => ?_
  have stated : statedOpcodeBase cursor.order cursor.rest = opcodeBase := by
    have byteRead := uint8_of_readNonzero opcodeBaseRead
    have place :
        2 + 4 + 1 + operationsWidth cursor.order cursor.rest + 1 + 1 + 1 =
          10 + operationsWidth cursor.order cursor.rest := by
      omega
    simp only [LayoutField.extent_cons, LayoutField.extent_nil, LayoutField.extent_replicate,
      LayoutField.width_any, width_versionField, width_nonzeroField, FieldWidth.size,
      Cursor.advance_advance, Nat.add_zero, Nat.mul_one, place] at byteRead
    exact Reader.getD_of_uint8 byteRead
  rw [stated]
  exact (Reader.follows_times_uint8 roomy _).bind_pure _

/-! ## What was read can be written -/

/-- A count of operations is taken from the bytes where the version has one. -/
theorem split_of_operations
    {version : UInt16}
    {operations : UInt8}
    {after : Cursor}
    (success :
      (if version < 4 then pure 1 else Reader.uint8 : Reader UInt8) cursor =
        .ok operations after) :
    cursor.rest = (if version < 4 then [] else [operations]) ++ after.rest := by
  split at success
  · next early =>
      cases success
      rw [if_pos early, List.nil_append]
  · next late =>
      rw [if_neg late]
      exact (Reader.split_of_uint8 success).1

/-- A header is written back into the bytes before those that are left. -/
theorem exists_split_of_read
    {unitLength : UInt32}
    {header : Header}
    {after : Cursor}
    (success : read unitLength cursor = .ok header after) :
    ∃ defaultIsStatement,
      (header.defaultIsStatement = true ↔ defaultIsStatement ≠ 0) ∧
        cursor.rest = header.bytes cursor.order defaultIsStatement ++ after.rest := by
  rw [Prologue.readHeader_eq] at success
  obtain ⟨version, afterVersion, versionRead, success⟩ := bind_eq_ok_iff.mp success
  obtain ⟨prologueLength, afterLength, lengthRead, success⟩ := bind_eq_ok_iff.mp success
  obtain ⟨minimum, afterMinimum, minimumRead, success⟩ := bind_eq_ok_iff.mp success
  obtain ⟨operations, afterOperations, operationsRead, success⟩ := bind_eq_ok_iff.mp success
  obtain ⟨defaultIsStatement, afterDefault, defaultRead, success⟩ := bind_eq_ok_iff.mp success
  obtain ⟨lineBase, afterBase, baseRead, success⟩ := bind_eq_ok_iff.mp success
  obtain ⟨lineRange, afterRange, rangeRead, success⟩ := bind_eq_ok_iff.mp success
  obtain ⟨opcodeBase, afterOpcodeBase, opcodeBaseRead, success⟩ := bind_eq_ok_iff.mp success
  obtain ⟨operandCounts, afterCounts, countsRead, returned⟩ := bind_eq_ok_iff.mp success
  cases returned
  obtain ⟨versionSplit, moved⟩ := Reader.split_of_uint16 (uint16_of_readVersion versionRead)
  have sameOrder : afterVersion.order = cursor.order := by
    rw [moved]
    rfl
  obtain ⟨lengthSplit, -⟩ := Reader.split_of_uint32 lengthRead
  obtain ⟨minimumSplit, -⟩ := Reader.split_of_uint8 minimumRead
  have operationsSplit := split_of_operations operationsRead
  obtain ⟨defaultSplit, -⟩ := Reader.split_of_uint8 defaultRead
  obtain ⟨baseSplit, -⟩ := Reader.split_of_uint8 baseRead
  obtain ⟨rangeSplit, -⟩ := Reader.split_of_uint8 (uint8_of_readNonzero rangeRead)
  obtain ⟨opcodeBaseSplit, -⟩ := Reader.split_of_uint8 (uint8_of_readNonzero opcodeBaseRead)
  obtain ⟨countsSplit, -⟩ := Reader.split_of_times_uint8 countsRead
  refine ⟨defaultIsStatement, decide_eq_true_iff, ?_⟩
  rw [versionSplit, lengthSplit, sameOrder, minimumSplit, operationsSplit, defaultSplit,
    baseSplit, rangeSplit, opcodeBaseSplit, countsSplit]
  simp only [bytes, UInt8.toUInt8_toInt8, List.append_assoc, List.cons_append]

theorem finds_operations (version : UInt16) :
    Reader.Finds (if version < 4 then pure 1 else Reader.uint8)
      fun operations => version < 4 → operations = 1 := by
  split
  · exact Reader.finds_pure fun _ => rfl
  · next late =>
      exact fun before value after success early => (late early).elim

theorem finds_read (unitLength : UInt32) :
    (read unitLength).Finds fun header =>
      header.unitLength = unitLength ∧
        header.operandCounts.length = header.opcodeBase.toNat - 1 ∧
        (header.version < 4 → header.maximumOperations = 1) := by
  rw [Prologue.readHeader_eq]
  refine Reader.finds_bind fun version => Reader.finds_bind fun prologueLength => ?_
  refine Reader.finds_bind fun minimumInstructionLength => ?_
  refine (finds_operations version).bind fun maximumOperations early => ?_
  refine Reader.finds_bind fun defaultIsStatement => Reader.finds_bind fun lineBase => ?_
  refine Reader.finds_bind fun lineRange => Reader.finds_bind fun opcodeBase => ?_
  have counted :
      (Reader.uint8.times (opcodeBase.toNat - 1)).Finds (·.length = opcodeBase.toNat - 1) :=
    fun before counts after success => (Reader.split_of_times_uint8 success).2
  exact counted.bind fun operandCounts sameCount => Reader.finds_pure ⟨rfl, sameCount, early⟩

theorem readBetween_of_read
    {unitLength : UInt32}
    {header : Header}
    {after : Cursor}
    (roomy : cursor.Roomy)
    (success : read unitLength cursor = .ok header after) :
    ReadBetween unitLength cursor header after := by
  obtain ⟨sameLength, operandCounts, maximumOperations⟩ :=
    finds_read unitLength cursor header after success
  obtain ⟨sound, taken⟩ := (follows_read unitLength roomy).found header after success
  have begins := (firstFault?_layout_eq_none_iff roomy.position_le).mp sound
  rw [extent_layout begins.opcodeBase] at taken
  obtain ⟨defaultIsStatement, sameDefault, split⟩ := exists_split_of_read success
  refine ⟨sameLength, taken, ⟨defaultIsStatement, sameDefault, ?_⟩, operandCounts, maximumOperations⟩
  rw [taken, Cursor.rest_advance_eq_drop] at split
  exact List.append_cancel_right ((List.take_append_drop _ _).trans split)

/--
Headers are read where the bytes start with one, and are kept but for the byte of
`defaultIsStatement`; a failure is the first fault of their fields.
-/
theorem keepsGrammar
    (unitLength : UInt32)
    (roomy : cursor.Roomy) :
    KeepsGrammar unitLength cursor where
  accepts :=
    (follows_read unitLength roomy).exists_eq_ok_iff.trans
      (firstFault?_layout_eq_none_iff roomy.position_le)
  restores _ _ success := readBetween_of_read roomy success
  refuses _ := (follows_read unitLength roomy).exists_eq_error_iff

/-- A header of version 4, with the most significant byte first and a byte after it. -/
def versionFour : Bytes :=
  [0, 4, 0, 0, 0, 32, 4, 1, 7, 251, 14, 3, 0, 1, 255]

theorem keepsGrammar_versionFour :
    (Cursor.ofBytes .big versionFour).Roomy ∧
      Begins .big versionFour ∧
      (∃ header after, read 40 (.ofBytes .big versionFour) = .ok header after) := by
  have roomy : (Cursor.ofBytes .big versionFour).Roomy :=
    ⟨⟨by decide, by decide⟩, by decide⟩
  have begins : Begins .big versionFour :=
    ⟨by decide, by decide, by decide, by decide⟩
  exact ⟨roomy, begins, (keepsGrammar 40 roomy).accepts.mpr begins⟩

/-- A line range of zero is named first, although the opcode base after it is missing. -/
example :
    (Cursor.ofBytes .little [3, 0, 9, 0, 0, 0, 1, 1, 251, 0]).firstFault?
        (layout .little [3, 0, 9, 0, 0, 0, 1, 1, 251, 0]) =
      some (.invalidStructure "line program header" 10 "line_range is zero") := by
  decide

end LineAtlas.LineProgram.Header
