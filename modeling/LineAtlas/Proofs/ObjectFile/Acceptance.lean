import LineAtlas.Proofs.ObjectFile.Fields
import Mathlib.Order.Basic
import Mathlib.Algebra.Order.Group.Nat

namespace LineAtlas.ObjectFile

/-!
# Which images are read

An image is read if it is identified, holds its whole header, and has a section header
table inside it or none at all. `FirstFault` lists what can be wrong otherwise, in the
order in which it is looked for: each fault presumes that there is none before it. The
table is read entry by entry with sums of 64 bits, but for images that exist this comes
to a single bound on unlimited numbers; so no sum is too large, and no field is cut.
-/

variable
  {image : Bytes}
  {header : Header}

/-! ## Tables -/

/-- The offset after entry `index` of the table, however large. -/
def entryEnd
    (header : Header)
    (index : Nat) :
    Nat :=
  header.tableOffset.toNat + (index + 1) * header.entrySize.toNat

/-- The header says that there is a table. -/
structure HasTable (header : Header) : Prop where
  offset : header.tableOffset ≠ 0
  count : header.entryCount ≠ 0

/-- There is no table, or its entries are long enough and all of it is inside the image. -/
def TableFits
    (image : Bytes)
    (header : Header) :
    Prop :=
  header.tableOffset = 0 ∨
    header.entryCount = 0 ∨
      SectionHeader.entrySize header.fileClass ≤ header.entrySize.toNat ∧
        header.tableOffset.toNat + header.entryCount.toNat * header.entrySize.toNat ≤
          image.length

/-- What is wrong with a table first, and the cause that goes with it. -/
inductive TableFault
    (image : Bytes)
    (header : Header) :
    ReadError → Prop where
  /-- The entries of the table are too short. -/
  | entrySize
      (hasTable : HasTable header)
      (small : header.entrySize.toNat < SectionHeader.entrySize header.fileClass) :
      TableFault image header
        (.invalidStructure "section header table" header.tableOffset.toNat
          ("entry size " ++ toString header.entrySize.toNat ++ " is too small"))
  /-- Entry `index` is the first one that is not inside the image. -/
  | entry
      (hasTable : HasTable header)
      (wide : SectionHeader.entrySize header.fileClass ≤ header.entrySize.toNat)
      (index : Nat)
      (listed : index < header.entryCount.toNat)
      (earlier : ∀ before < index, entryEnd header before ≤ image.length)
      (cut : image.length < entryEnd header index) :
      TableFault image header
        (.fileTooShort (min (2 ^ 64 - 1) (entryEnd header index)) image.length)

theorem HasTable.not_absent (hasTable : HasTable header) :
    ¬ (header.tableOffset = 0 ∨ header.entryCount = 0) :=
  not_or.mpr ⟨hasTable.offset, hasTable.count⟩

/-- An entry ends where the one after it starts. -/
theorem entryEnd_eq
    (header : Header)
    (index : Nat) :
    entryEnd header index = entryOffset header index + header.entrySize.toNat := by
  rw [entryEnd, entryOffset, Nat.succ_mul]
  omega

theorem entryOffset_succ
    (header : Header)
    (index : Nat) :
    entryOffset header (index + 1) = entryEnd header index := by
  rw [entryEnd, entryOffset, Nat.add_comm]

/-- A table that fits is read. -/
theorem exists_readTable
    (short : image.length < addressLimit)
    (fits : TableFits image header) :
    ∃ table, readTable image header = .ok table := by
  rw [readTable]
  by_cases noTable : header.tableOffset = 0 ∨ header.entryCount = 0
  · rw [if_pos noTable]
    exact ⟨[], rfl⟩
  · obtain ⟨hasOffset, hasCount⟩ := not_or.mp noTable
    obtain ⟨wide, inside⟩ := (fits.resolve_left hasOffset).resolve_left hasCount
    rw [if_neg noTable, if_neg (Nat.not_lt.mpr wide)]
    refine ⟨_, mapM_eq_ok fun index member => readEntry_of_le short wide ?_⟩
    have listed : index + 1 ≤ header.entryCount.toNat := List.mem_range.mp member
    have before := Nat.mul_le_mul_right header.entrySize.toNat listed
    rw [← entryEnd_eq, entryEnd]
    omega

/-- The first entry that is not inside the image is too long for it; no sum is too large. -/
theorem readEntry_of_cut
    (short : image.length < 2 ^ 63)
    {index : Nat}
    (earlier : ∀ before < index, entryEnd header before ≤ image.length)
    (cut : image.length < entryEnd header index) :
    readEntry image header index =
      .error (.fileTooShort (min (2 ^ 64 - 1) (entryEnd header index)) image.length) := by
  have start : entryOffset header index < addressLimit := by
    cases index with
    | zero =>
        rw [entryOffset, Nat.zero_mul, Nat.zero_add]
        exact header.tableOffset.toNat_lt
    | succ before =>
        -- The entry starts where the one before it ends, and that is inside the image.
        have inside := earlier before (Nat.lt_succ_self before)
        rw [entryOffset_succ, addressLimit, UInt64.size]
        omega
  have stop : entryStop header index = min (2 ^ 64 - 1) (entryEnd header index) := by
    rw [entryStop, entryEnd_eq, Nat.min_comm]
    rfl
  rw [readEntry, if_neg (Nat.not_le.mpr start), stop, if_pos (by omega)]

/-- What is wrong with a table first is why it is not read. -/
theorem readTable_of_fault
    (short : image.length < 2 ^ 63)
    {cause : ReadError}
    (fault : TableFault image header cause) :
    readTable image header = .error cause := by
  cases fault with
  | entrySize hasTable small =>
      rw [readTable, if_neg hasTable.not_absent, if_pos small]
  | entry hasTable wide index listed earlier cut =>
      obtain ⟨after, split⟩ : ∃ after,
          List.range header.entryCount.toNat = List.range index ++ index :: after := by
        obtain ⟨later, count⟩ := Nat.exists_eq_add_of_lt listed
        rw [count, Nat.add_assoc, List.range_add, List.range_succ_eq_map, List.map_cons]
        exact ⟨_, rfl⟩
      have fits : image.length < addressLimit := by
        rw [addressLimit, UInt64.size]
        omega
      rw [readTable, if_neg hasTable.not_absent, if_neg (Nat.not_lt.mpr wide), split]
      refine mapM_eq_error (fun before member => ?_) (readEntry_of_cut short earlier cut)
      have inside := earlier before (List.mem_range.mp member)
      rw [entryEnd_eq] at inside
      exact ⟨_, readEntry_of_le fits wide inside⟩

/-- If a table does not fit, something about it is wrong first. -/
theorem tableFits_or_fault
    (image : Bytes)
    (header : Header) :
    TableFits image header ∨ ∃ cause, TableFault image header cause := by
  by_cases noTable : header.tableOffset = 0 ∨ header.entryCount = 0
  · exact .inl (noTable.imp_right .inl)
  · have hasTable : HasTable header :=
      ⟨fun zero => noTable (.inl zero), fun zero => noTable (.inr zero)⟩
    rcases Nat.lt_or_ge header.entrySize.toNat (SectionHeader.entrySize header.fileClass) with
      small | wide
    · exact .inr ⟨_, .entrySize hasTable small⟩
    · have last : header.entryCount.toNat - 1 + 1 = header.entryCount.toNat := by
        have positive : header.entryCount.toNat ≠ 0 := fun zero =>
          hasTable.count (UInt16.toNat_inj.mp zero)
        omega
      by_cases inside : entryEnd header (header.entryCount.toNat - 1) ≤ image.length
      · rw [entryEnd, last] at inside
        exact .inl (.inr (.inr ⟨wide, inside⟩))
      · have someCut : ∃ index, image.length < entryEnd header index :=
          ⟨_, Nat.not_le.mp inside⟩
        have first := Nat.find_min' someCut (Nat.not_le.mp inside)
        refine .inr ⟨_, .entry hasTable wide (Nat.find someCut) (by omega) ?_ ?_⟩
        · intro before isBefore
          exact Nat.not_lt.mp (Nat.find_min someCut isBefore)
        · exact Nat.find_spec someCut

/-! ## Images -/

/-- The image has a whole header of the given class and byte order. -/
structure HasHeader
    (image : Bytes)
    (fileClass : FileClass)
    (order : ByteOrder) :
    Prop extends Header.Identified image fileClass order where
  whole : Header.size fileClass ≤ image.length

/-- The image is one that can be read. -/
def IsReadable (image : Bytes) : Prop :=
  ∃ fileClass order,
    HasHeader image fileClass order ∧ TableFits image (.stated fileClass order image)

/-- What is wrong with an image first, and the cause that goes with it. -/
inductive FirstFault (image : Bytes) : ReadError → Prop where
  | identification
      (tooShort : image.length < 16) :
      FirstFault image (.fileTooShort 16 image.length)
  | magic
      (long : 16 ≤ image.length)
      (other : image.take 4 ≠ ObjectFile.magic) :
      FirstFault image (.wrongMagic "ELF" (image.take 4))
  | fileClass
      (long : 16 ≤ image.length)
      (isMagic : image.take 4 = ObjectFile.magic)
      (byte : UInt8)
      (held : image[4]? = some byte)
      (unknown : byte ≠ 1 ∧ byte ≠ 2) :
      FirstFault image
        (.invalidStructure "ELF header" 4 ("invalid ELF class: " ++ toString byte.toNat))
  | order
      (long : 16 ≤ image.length)
      (isMagic : image.take 4 = ObjectFile.magic)
      (fileClass : FileClass)
      (known : image[4]? = some fileClass.byte)
      (byte : UInt8)
      (held : image[5]? = some byte)
      (unknown : byte ≠ 1 ∧ byte ≠ 2) :
      FirstFault image
        (.invalidStructure "ELF header" 5 ("invalid endianness: " ++ toString byte.toNat))
  | header
      (fileClass : FileClass)
      (order : ByteOrder)
      (identified : Header.Identified image fileClass order)
      (tooShort : image.length < Header.size fileClass) :
      FirstFault image (.fileTooShort (Header.size fileClass) image.length)
  | table
      (fileClass : FileClass)
      (order : ByteOrder)
      (hasHeader : HasHeader image fileClass order)
      (cause : ReadError)
      (fault : TableFault image (.stated fileClass order image) cause) :
      FirstFault image cause

/-- An image that can be read is read. -/
theorem exists_read_of_isReadable
    (fits : image.length < addressLimit)
    (readable : IsReadable image) :
    ∃ file, read image = .ok file := by
  obtain ⟨fileClass, order, hasHeader, tableFits⟩ := readable
  obtain ⟨table, tableRead⟩ := exists_readTable fits tableFits
  have headerRead := Header.read_of_identified fits hasHeader.toIdentified hasHeader.whole
  exact ⟨_, read_eq_ok_iff.mpr ⟨_, table, headerRead, tableRead, rfl⟩⟩

theorem readClass_of_unknown
    {byte : UInt8}
    (held : image[4]? = some byte)
    (unknown : byte ≠ 1 ∧ byte ≠ 2) :
    Header.readClass (image.getD 4 0) =
      .error (.invalidStructure "ELF header" 4 ("invalid ELF class: " ++ toString byte.toNat)) := by
  rw [List.getD_eq_getElem?_getD, held, Option.getD_some]
  fun_cases Header.readClass byte <;> simp_all

theorem readOrder_of_unknown
    {byte : UInt8}
    (held : image[5]? = some byte)
    (unknown : byte ≠ 1 ∧ byte ≠ 2) :
    Header.readOrder (image.getD 5 0) =
      .error
        (.invalidStructure "ELF header" 5 ("invalid endianness: " ++ toString byte.toNat)) := by
  rw [List.getD_eq_getElem?_getD, held, Option.getD_some]
  fun_cases Header.readOrder byte <;> simp_all

/-- An image is not read if its header is not. -/
theorem read_of_headerFailure
    {cause : ReadError}
    (failed : Header.read image = .error cause) :
    read image = .error cause :=
  lookBind_eq_error_iff.mpr (.inl failed)

/-- What is wrong first is why the image is not read. -/
theorem read_of_firstFault
    (short : image.length < 2 ^ 63)
    {cause : ReadError}
    (fault : FirstFault image cause) :
    read image = .error cause := by
  have magicRead (isMagic : image.take 4 = ObjectFile.magic) :
      Header.requireMagic image = .ok () :=
    if_pos (Header.isObjectFile_iff.mpr isMagic)
  cases fault with
  | identification tooShort =>
      apply read_of_headerFailure
      simp only [Header.read, lookBind_eq_error_iff]
      exact .inl (Header.requireSize_of_lt tooShort)
  | magic long other =>
      apply read_of_headerFailure
      simp only [Header.read, lookBind_eq_error_iff]
      have notMagic := mt Header.isObjectFile_iff.mp other
      exact .inr ⟨(), Header.requireSize_of_le long, .inl (if_neg notMagic)⟩
  | fileClass long isMagic byte held unknown =>
      apply read_of_headerFailure
      simp only [Header.read, lookBind_eq_error_iff]
      exact
        .inr ⟨(), Header.requireSize_of_le long,
          .inr ⟨(), magicRead isMagic, .inl (readClass_of_unknown held unknown)⟩⟩
  | order long isMagic fileClass known byte held unknown =>
      apply read_of_headerFailure
      simp only [Header.read, lookBind_eq_error_iff]
      exact
        .inr ⟨(), Header.requireSize_of_le long,
          .inr ⟨(), magicRead isMagic,
            .inr ⟨fileClass, Header.readClass_getD known,
              .inl (readOrder_of_unknown held unknown)⟩⟩⟩
  | header fileClass order identified tooShort =>
      apply read_of_headerFailure
      simp only [Header.read, lookBind_eq_error_iff]
      exact
        .inr ⟨(), Header.requireSize_of_le identified.long,
          .inr ⟨(), magicRead identified.isMagic,
            .inr ⟨fileClass, Header.readClass_getD identified.classByte,
              .inr ⟨order, Header.readOrder_getD identified.orderByte,
                .inl (Header.requireSize_of_lt tooShort)⟩⟩⟩⟩
  | table fileClass order hasHeader cause fault =>
      have fits : image.length < addressLimit := by
        rw [addressLimit, UInt64.size]
        omega
      have headerRead := Header.read_of_identified fits hasHeader.toIdentified hasHeader.whole
      refine lookBind_eq_error_iff.mpr (.inr ⟨_, headerRead, ?_⟩)
      exact lookBind_eq_error_iff.mpr (.inl (readTable_of_fault short fault))

/-- A byte names a class, or none. -/
theorem exists_class_or (byte : UInt8) :
    (∃ fileClass : FileClass, byte = fileClass.byte) ∨ byte ≠ 1 ∧ byte ≠ 2 := by
  by_cases isFirst : byte = 1
  · exact .inl ⟨.bits32, isFirst⟩
  · by_cases isSecond : byte = 2
    · exact .inl ⟨.bits64, isSecond⟩
    · exact .inr ⟨isFirst, isSecond⟩

/-- A byte names a byte order, or none. -/
theorem exists_order_or (byte : UInt8) :
    (∃ order, byte = orderByte order) ∨ byte ≠ 1 ∧ byte ≠ 2 := by
  by_cases isFirst : byte = 1
  · exact .inl ⟨.little, isFirst⟩
  · by_cases isSecond : byte = 2
    · exact .inl ⟨.big, isSecond⟩
    · exact .inr ⟨isFirst, isSecond⟩

/-- If an image cannot be read, something about it is wrong first. -/
theorem isReadable_or_fault (image : Bytes) :
    IsReadable image ∨ ∃ cause, FirstFault image cause := by
  by_cases long : 16 ≤ image.length
  case neg =>
    exact .inr ⟨_, .identification (Nat.not_le.mp long)⟩
  by_cases isMagic : image.take 4 = ObjectFile.magic
  case neg =>
    exact .inr ⟨_, .magic long isMagic⟩
  have classHeld : image[4]? = some image[4] := List.getElem?_eq_getElem (by omega)
  have orderHeld : image[5]? = some image[5] := List.getElem?_eq_getElem (by omega)
  rcases exists_class_or image[4] with ⟨fileClass, isClass⟩ | unknownClass
  case inr =>
    exact .inr ⟨_, .fileClass long isMagic _ classHeld unknownClass⟩
  rw [isClass] at classHeld
  rcases exists_order_or image[5] with ⟨order, isOrder⟩ | unknownOrder
  case inr =>
    exact .inr ⟨_, .order long isMagic fileClass classHeld _ orderHeld unknownOrder⟩
  rw [isOrder] at orderHeld
  have identified : Header.Identified image fileClass order :=
    { long := long, isMagic := isMagic, classByte := classHeld, orderByte := orderHeld }
  rcases Nat.lt_or_ge image.length (Header.size fileClass) with tooShort | whole
  · exact .inr ⟨_, .header fileClass order identified tooShort⟩
  · have hasHeader : HasHeader image fileClass order :=
      { toIdentified := identified, whole := whole }
    rcases tableFits_or_fault image (.stated fileClass order image) with fits | ⟨cause, fault⟩
    · exact .inl ⟨fileClass, order, hasHeader, fits⟩
    · exact .inr ⟨cause, .table fileClass order hasHeader cause fault⟩

/-- Nothing that is wrong with an image is a cut field or a sum that is too large. -/
theorem FirstFault.not_truncated_not_overflow
    {cause : ReadError}
    (fault : FirstFault image cause) :
    (∀ expected actual subject, cause ≠ .truncated expected actual subject) ∧
      ∀ subject, cause ≠ .overflow subject := by
  cases fault with
  | table fileClass order hasHeader cause fault =>
      cases fault <;> simp
  | _ =>
      simp

/--
An image shorter than two to the power of 63 bytes is read exactly if it can be, and fails
with what is wrong with it first.
-/
theorem read_decides
    (short : image.length < 2 ^ 63) :
    ((∃ file, read image = .ok file) ↔ IsReadable image) ∧
      (∀ cause, read image = .error cause ↔ FirstFault image cause) ∧
      (∀ expected actual subject, read image ≠ .error (.truncated expected actual subject)) ∧
      ∀ subject, read image ≠ .error (.overflow subject) := by
  have fits : image.length < addressLimit := by
    rw [addressLimit, UInt64.size]
    omega
  have fails (cause : ReadError) : read image = .error cause ↔ FirstFault image cause := by
    constructor
    · intro failed
      rcases isReadable_or_fault image with readable | ⟨other, fault⟩
      · obtain ⟨file, success⟩ := exists_read_of_isReadable fits readable
        rw [success] at failed
        cases failed
      · rw [read_of_firstFault short fault] at failed
        cases failed
        exact fault
    · exact read_of_firstFault short
  refine ⟨⟨?_, exists_read_of_isReadable fits⟩, fails, ?_, ?_⟩
  · rintro ⟨file, success⟩
    rcases isReadable_or_fault image with readable | ⟨cause, fault⟩
    · exact readable
    · rw [read_of_firstFault short fault] at success
      cases success
  · intro expected actual subject failed
    exact ((fails _).mp failed).not_truncated_not_overflow.1 expected actual subject rfl
  · intro subject failed
    exact ((fails _).mp failed).not_truncated_not_overflow.2 subject rfl

/-- A header whose table would have one entry, at the last positions that there are. -/
def farTableImage : Bytes :=
  [127, 69, 76, 70, 2, 1, 1, 0, 0, 0, 0, 0, 0, 0, 0, 0, 2, 0, 62, 0, 1, 0, 0, 0]
    ++ [0, 0, 0, 0, 0, 0, 0, 0, 0, 0, 0, 0, 0, 0, 0, 0]
    ++ [240, 255, 255, 255, 255, 255, 255, 255, 0, 0, 0, 0]
    ++ [64, 0, 56, 0, 0, 0, 64, 0, 1, 0, 0, 0]

/-- The end of the entry does not fit into 64 bits, and still the image is only too short. -/
theorem read_decides_farTableImage :
    farTableImage.length < 2 ^ 63 ∧
      ¬ IsReadable farTableImage ∧
      FirstFault farTableImage (.fileTooShort 18446744073709551615 64) := by
  have short : farTableImage.length < 2 ^ 63 := by decide
  have failed : read farTableImage = .error (.fileTooShort 18446744073709551615 64) := by
    rfl
  obtain ⟨success, failure, -⟩ := read_decides short
  refine ⟨short, fun readable => ?_, (failure _).mp failed⟩
  obtain ⟨file, isRead⟩ := success.mpr readable
  rw [failed] at isRead
  cases isRead

end LineAtlas.ObjectFile
