import LineAtlas.Proofs.Extension

namespace LineAtlas

/-!
# What readers fail with

`Reader.FailsWith` says two things about the failures of a reader. Their causes are
among given ones, and where the same reader would succeed if the data went on, the
cause is that the data is too short. So a failure is either for want of bytes, or it
stays when more bytes come.
-/

namespace ReadError

/-- A cause that lies in what a header or a list says. -/
def isStructural : ReadError → Bool
  | unsupportedVersion _ _ => true
  | invalidStructure _ _ _ => true
  | _ => false

/-- A cause that lies in a single number. -/
def isNumeric : ReadError → Bool
  | invalidValue _ => true
  | overflow _ => true
  | _ => false

/-- The causes for which the operand of an instruction cannot be read. -/
def OfOperand (cause : ReadError) : Prop :=
  cause.isTruncation = true ∨ cause.isNumeric = true

end ReadError

namespace Base128

variable {bytes more : Bytes}

/-- The cause for an unsigned number that does not fit into 64 bits. -/
def unsignedOverflow : ReadError :=
  .invalidValue "ULEB128 overflow"

/-- Groups beyond the 64 bits stay there, whatever comes after them. -/
theorem unsignedFrom_tooLarge_append
    {index : Nat}
    (failure : unsignedFrom index bytes = .error .tooLarge) :
    unsignedFrom index (bytes ++ more) = .error .tooLarge := by
  induction bytes generalizing index with
  | nil =>
      cases failure
  | cons byte rest inductionHypothesis =>
      rw [List.cons_append, unsignedFrom]
      rw [unsignedFrom] at failure
      grind

theorem signedFrom_tooLarge_append
    {index : Nat}
    (failure : signedFrom index bytes = .error .tooLarge) :
    signedFrom index (bytes ++ more) = .error .tooLarge := by
  induction bytes generalizing index with
  | nil =>
      cases failure
  | cons byte rest inductionHypothesis =>
      rw [List.cons_append, signedFrom]
      rw [signedFrom] at failure
      grind

theorem unsigned_eq_error_iff
    {cause : ReadError} :
    unsigned bytes = .error cause ↔
      ∃ fault, unsignedFrom 0 bytes = .error fault ∧ fault.toReadError "ULEB128" bytes = cause := by
  unfold unsigned
  split <;> simp_all

theorem signed_eq_error_iff
    {cause : ReadError} :
    signed bytes = .error cause ↔
      ∃ fault, signedFrom 0 bytes = .error fault ∧ fault.toReadError "SLEB128" bytes = cause := by
  unfold signed
  split <;> simp_all

/-- A number that more bytes complete is cut short without them. -/
theorem isTruncation_of_unsigned
    {found : UInt64 × Nat}
    {cause : ReadError}
    (success : unsigned (bytes ++ more) = .ok found)
    (failure : unsigned bytes = .error cause) :
    cause.isTruncation = true := by
  obtain ⟨fault, faulty, rfl⟩ := unsigned_eq_error_iff.mp failure
  cases fault with
  | tooLarge =>
      rw [unsigned, unsignedFrom_tooLarge_append faulty] at success
      cases success
  | unterminated =>
      rfl

theorem isTruncation_of_signed
    {found : Int64 × Nat}
    {cause : ReadError}
    (success : signed (bytes ++ more) = .ok found)
    (failure : signed bytes = .error cause) :
    cause.isTruncation = true := by
  obtain ⟨fault, faulty, rfl⟩ := signed_eq_error_iff.mp failure
  cases fault with
  | tooLarge =>
      rw [signed, signedFrom_tooLarge_append faulty] at success
      cases success
  | unterminated =>
      rfl

/-- An unsigned number is too short or too large, and nothing else is wrong with it. -/
theorem cause_of_unsigned
    {cause : ReadError}
    (failure : unsigned bytes = .error cause) :
    cause.isTruncation = true ∨ cause = unsignedOverflow := by
  obtain ⟨fault, -, rfl⟩ := unsigned_eq_error_iff.mp failure
  cases fault with
  | tooLarge =>
      exact .inr rfl
  | unterminated =>
      exact .inl rfl

theorem cause_of_signed
    {cause : ReadError}
    (failure : signed bytes = .error cause) :
    cause.OfOperand := by
  obtain ⟨fault, -, rfl⟩ := signed_eq_error_iff.mp failure
  cases fault with
  | tooLarge =>
      exact .inr rfl
  | unterminated =>
      exact .inl rfl

end Base128

/-- A cursor whose data is so short that every field of up to four bytes ends at a 64-bit position. -/
structure Cursor.Roomy (cursor : Cursor) : Prop extends cursor.Placed where
  room : cursor.size + 4 < addressLimit

/-- What reads on in the same data has the same room. -/
theorem Cursor.Roomy.keep
    {before after : Cursor}
    (roomy : before.Roomy)
    (placed : after.Placed)
    (sameSize : after.size = before.size) :
    after.Roomy where
  toPlaced := placed
  room := by
    rw [sameSize]
    exact roomy.room

namespace Reader

variable {α β : Type}

/--
The reader fails with the given causes only, and for want of bytes where more bytes
would make it succeed.
-/
structure FailsWith
    (reader : Reader α)
    (causes : ReadError → Prop) :
    Prop where
  among :
    ∀ cursor cause stopped,
      cursor.Roomy →
      reader cursor = .error cause stopped →
      causes cause
  truncates :
    ∀ cursor more value after cause stopped,
      cursor.Placed →
      cursor.size + more.length < addressLimit →
      reader (cursor.extend more) = .ok value after →
      reader cursor = .error cause stopped →
      cause.isTruncation = true

variable {causes : ReadError → Prop}

theorem FailsWith.mono
    {reader : Reader α}
    {others : ReadError → Prop}
    (fails : reader.FailsWith causes)
    (weaker : ∀ cause, causes cause → others cause) :
    reader.FailsWith others where
  among cursor cause stopped roomy failure :=
    weaker cause (fails.among cursor cause stopped roomy failure)
  truncates := fails.truncates

/-! ## Sequencing -/

theorem failsWith_pure (value : α) : (pure value : Reader α).FailsWith causes where
  among cursor cause stopped roomy failure := by
    cases failure
  truncates cursor more found after cause stopped placed fits success failure := by
    cases failure

theorem failsWith_position : position.FailsWith causes where
  among cursor cause stopped roomy failure := by
    cases failure
  truncates cursor more found after cause stopped placed fits success failure := by
    cases failure

theorem failsWith_throw
    {cause : ReadError}
    (isCause : causes cause) :
    (throw cause : Reader α).FailsWith causes where
  among cursor other stopped roomy failure := by
    cases failure
    exact isCause
  truncates cursor more found after other stopped placed fits success failure := by
    cases success

theorem FailsWith.bind
    {first : Reader α}
    {next : α → Reader β}
    (firstFails : first.FailsWith causes)
    (firstExtends : first.Extends)
    (nextFails : ∀ found, (next found).FailsWith causes) :
    (first >>= next).FailsWith causes where
  among cursor cause stopped roomy failure := by
    rcases bind_eq_error_iff.mp failure with firstFailed | ⟨found, between, firstRead, nextFailed⟩
    · exact firstFails.among cursor cause stopped roomy firstFailed
    · have fits : cursor.size + ([] : Bytes).length < addressLimit :=
        roomy.size_lt
      obtain ⟨placed, sameSize, -⟩ :=
        firstExtends cursor [] found between roomy.toPlaced fits firstRead
      exact (nextFails found).among between cause stopped (roomy.keep placed sameSize) nextFailed
  truncates cursor more value after cause stopped placed fits success failure := by
    obtain ⟨found, between, firstRead, nextRead⟩ := bind_eq_ok_iff.mp success
    rcases bind_eq_error_iff.mp failure with firstFailed | ⟨short, reached, shortRead, nextFailed⟩
    · exact firstFails.truncates cursor more found between cause stopped placed fits
        firstRead firstFailed
    · -- The first reader found the same in both, so the second one starts at the same place.
      obtain ⟨reachedPlaced, sameSize, sameRead⟩ :=
        firstExtends cursor more short reached placed fits shortRead
      rw [firstRead] at sameRead
      cases sameRead
      rw [← sameSize] at fits
      exact (nextFails found).truncates reached more value after cause stopped reachedPlaced
        fits nextRead nextFailed

/-- After a local reader, the next one starts at the same place of both. -/
theorem FailsWith.bind_local
    {first : Reader α}
    {next : α → Reader β}
    (firstFails : first.FailsWith causes)
    (firstLocal : first.Local)
    (nextFails : ∀ found, (next found).FailsWith causes) :
    (first >>= next).FailsWith causes :=
  firstFails.bind firstLocal.extends nextFails

theorem FailsWith.map
    {reader : Reader α}
    (fails : reader.FailsWith causes)
    (isLocal : reader.Local)
    (change : α → β) :
    (change <$> reader).FailsWith causes := by
  rw [← bind_pure_comp]
  exact fails.bind_local isLocal fun found => failsWith_pure (change found)

/-! ## Looks -/

/-- Changing what was found does not change a failure. -/
theorem map_eq_error_iff
    {change : α → β}
    {look : Except ReadError α}
    {cause : ReadError} :
    look.map change = .error cause ↔ look = .error cause := by
  cases look <;> simp [Except.map]

variable {look : Cursor → Except ReadError (α × Nat)}

/-- A look decides how its reader fails. -/
theorem look_of_consuming_eq_error
    {cursor stopped : Cursor}
    {cause : ReadError}
    (failure : consuming look cursor = .error cause stopped) :
    look cursor = .error cause := by
  unfold consuming at failure
  split at failure
  · cases failure
  · next other missed =>
      cases failure
      exact missed

/-- The failures of a reader are those of its look. -/
theorem failsWith_consuming
    (among :
      ∀ cursor cause,
        cursor.Roomy →
        look cursor = .error cause →
        causes cause)
    (truncates :
      ∀ cursor more found cause,
        cursor.Placed →
        cursor.size + more.length < addressLimit →
        look (cursor.extend more) = .ok found →
        look cursor = .error cause →
        cause.isTruncation = true) :
    (consuming look).FailsWith causes where
  among cursor cause stopped roomy failure :=
    among cursor cause roomy (look_of_consuming_eq_error failure)
  truncates cursor more value after cause stopped placed fits success failure := by
    obtain ⟨used, seen⟩ := look_of_consuming_eq_ok success
    exact truncates cursor more (value, used) cause placed fits seen
      (look_of_consuming_eq_error failure)

/-! ## Fields -/

/-- A field whose end fits into 64 bits cannot be read only if the data is too short for it. -/
theorem isTruncation_of_numberAt
    {cursor : Cursor}
    {subject : String}
    {width offset : Nat}
    {cause : ReadError}
    (noOverflow : offset + width < addressLimit)
    (failure : cursor.numberAt subject width offset = .error cause) :
    cause.isTruncation = true := by
  rw [Cursor.numberAt, Cursor.bytesAt, if_neg (Nat.not_le_of_lt noOverflow)] at failure
  split at failure
  · cases failure
    rfl
  · cases failure

theorem failsWith_field
    {width : Nat}
    (narrow : width ≤ 4)
    (subject : String)
    (ofNumber : Nat → α) :
    (consuming fun cursor =>
        ((cursor.numberAt subject width cursor.position).map ofNumber).map (·, width)).FailsWith
      (·.isTruncation = true) := by
  refine failsWith_consuming (fun cursor cause roomy missed => ?_)
    (fun cursor more found cause placed fits seen missed => ?_)
  · have inside := roomy.position_le
    have room := roomy.room
    rw [map_eq_error_iff, map_eq_error_iff] at missed
    exact isTruncation_of_numberAt (by omega) missed
  · obtain ⟨field, fieldSeen, -⟩ := map_eq_ok_iff.mp seen
    obtain ⟨number, numberSeen, -⟩ := map_eq_ok_iff.mp fieldSeen
    have inside := Cursor.le_size_of_numberAt numberSeen
    rw [Cursor.position_extend, Cursor.size_extend] at inside
    rw [map_eq_error_iff, map_eq_error_iff] at missed
    exact isTruncation_of_numberAt (by omega) missed

theorem failsWith_uint8 : uint8.FailsWith (·.isTruncation = true) :=
  failsWith_field (by decide) "u8" UInt8.ofNat

theorem failsWith_uint16 : uint16.FailsWith (·.isTruncation = true) :=
  failsWith_field (by decide) "u16" UInt16.ofNat

theorem failsWith_uint32 : uint32.FailsWith (·.isTruncation = true) :=
  failsWith_field (by decide) "u32" UInt32.ofNat

/-- A field that cannot be read is too long for its data, or for 64-bit positions. -/
theorem ofOperand_of_numberAt
    {cursor : Cursor}
    {subject : String}
    {width offset : Nat}
    {cause : ReadError}
    (failure : cursor.numberAt subject width offset = .error cause) :
    cause.OfOperand := by
  rw [Cursor.numberAt, map_eq_error_iff, Cursor.bytesAt] at failure
  split at failure
  · cases failure
    exact .inr rfl
  · split at failure
    · cases failure
      exact .inl rfl
    · cases failure

/-- An address of a usual size that cannot be read is a field that cannot. -/
theorem numberAt_of_address_eq_error
    {cursor stopped : Cursor}
    {width : Nat}
    {cause : ReadError}
    (usual : width = 1 ∨ width = 2 ∨ width = 4 ∨ width = 8)
    (failure : address width cursor = .error cause stopped) :
    ∃ subject, cursor.numberAt subject width cursor.position = .error cause := by
  have missed := look_of_consuming_eq_error failure
  rw [map_eq_error_iff] at missed
  rcases usual with rfl | rfl | rfl | rfl
  · exact ⟨"u8", map_eq_error_iff.mp (map_eq_error_iff.mp missed)⟩
  · exact ⟨"u16", map_eq_error_iff.mp (map_eq_error_iff.mp missed)⟩
  · exact ⟨"u32", map_eq_error_iff.mp (map_eq_error_iff.mp missed)⟩
  · exact ⟨"u64", map_eq_error_iff.mp missed⟩

theorem failsWith_address
    {width : Nat}
    (usual : width = 1 ∨ width = 2 ∨ width = 4 ∨ width = 8) :
    (address width).FailsWith ReadError.OfOperand where
  among cursor cause stopped roomy failure := by
    obtain ⟨subject, missed⟩ := numberAt_of_address_eq_error usual failure
    exact ofOperand_of_numberAt missed
  truncates cursor more value after cause stopped placed fits success failure := by
    have inside := le_size_of_address success
    rw [Cursor.position_extend, Cursor.size_extend] at inside
    obtain ⟨subject, missed⟩ := numberAt_of_address_eq_error usual failure
    exact isTruncation_of_numberAt (by omega) missed

/-! ## Numbers, texts and skips -/

theorem failsWith_unsigned :
    unsigned.FailsWith fun cause =>
      cause.isTruncation = true ∨ cause = Base128.unsignedOverflow := by
  refine failsWith_consuming (fun cursor cause roomy missed => ?_)
    (fun cursor more found cause placed fits seen missed => ?_)
  · exact Base128.cause_of_unsigned missed
  · rw [placed.rest_extend] at seen
    exact Base128.isTruncation_of_unsigned seen missed

theorem failsWith_signed : signed.FailsWith ReadError.OfOperand := by
  refine failsWith_consuming (fun cursor cause roomy missed => ?_)
    (fun cursor more found cause placed fits seen missed => ?_)
  · exact Base128.cause_of_signed missed
  · rw [placed.rest_extend] at seen
    exact Base128.isTruncation_of_signed seen missed

theorem failsWith_terminated : terminated.FailsWith (·.isTruncation = true) := by
  have short
      (cursor : Cursor)
      (cause : ReadError)
      (missed :
        (cursor.terminatedBytes.map fun found => (found, found.length + 1)) = .error cause) :
      cause.isTruncation = true := by
    rw [map_eq_error_iff, Cursor.terminatedBytes] at missed
    split at missed
    · cases missed
    · cases missed
      rfl
  exact failsWith_consuming (fun cursor cause roomy => short cursor cause)
    (fun cursor more found cause placed fits seen => short cursor cause)

theorem failsWith_skip (count : Nat) : (skip count).FailsWith ReadError.OfOperand where
  among cursor cause stopped roomy failure := by
    unfold skip seek at failure
    split at failure
    · cases failure
      exact .inr rfl
    · split at failure
      · cases failure
        exact .inl rfl
      · cases failure
  truncates cursor more value after cause stopped placed fits success failure := by
    have inside := le_size_of_skip success
    rw [Cursor.position_extend, Cursor.size_extend] at inside
    rw [skip, if_neg (by omega), seek] at failure
    split at failure
    · cases failure
      rfl
    · cases failure

/-! ## Repetition -/

theorem FailsWith.times
    {item : Reader α}
    (itemFails : item.FailsWith causes)
    (itemLocal : item.Local)
    (count : Nat) :
    (item.times count).FailsWith causes := by
  induction count with
  | zero =>
      exact failsWith_pure []
  | succ count inductionHypothesis =>
      exact itemFails.bind_local itemLocal fun first =>
        inductionHypothesis.bind_local (itemLocal.times count) fun later =>
          failsWith_pure (first :: later)

/-- A list that is read has its first item read, and then the ones after it. -/
theorem collect_eq_ok
    {item : Reader (Option α)}
    {consumes : item.Consuming}
    {before after : Cursor}
    {values : List α}
    (success : collect item consumes before = .ok values after) :
    ∃ found between,
      item before = .ok found between ∧
        (found.isSome = true → ∃ later, collect item consumes between = .ok later after) := by
  rw [collect] at success
  split at success
  · cases success
  · next last outcome =>
      exact ⟨none, last, outcome, by simp⟩
  · next first between outcome =>
      split at success
      · cases success
      · next later last laterRead =>
          cases success
          exact ⟨some first, between, outcome, fun _ => ⟨later, laterRead⟩⟩

theorem FailsWith.collect
    {item : Reader (Option α)}
    {consumes : item.Consuming}
    (itemFails : item.FailsWith causes)
    (itemLocal : item.Local) :
    (collect item consumes).FailsWith causes where
  among cursor cause stopped roomy failure := by
    fun_induction Reader.collect item consumes cursor with
    | case1 cursor other last outcome =>
        cases failure
        exact itemFails.among cursor cause stopped roomy outcome
    | case2 cursor last outcome =>
        cases failure
    | case3 cursor first reached outcome other last laterFails inductionHypothesis =>
        cases failure
        obtain ⟨placed, sameData, -⟩ := itemLocal.keeps roomy.toPlaced outcome
        exact inductionHypothesis (roomy.keep placed (congrArg List.length sameData)) laterFails
    | case4 cursor first reached outcome later last laterRead inductionHypothesis =>
        cases failure
  truncates cursor more values after cause stopped placed fits success failure := by
    fun_induction Reader.collect item consumes cursor generalizing values after with
    | case1 cursor other last outcome =>
        cases failure
        obtain ⟨found, between, itemRead, -⟩ := collect_eq_ok success
        exact itemFails.truncates cursor more found between cause stopped placed fits
          itemRead outcome
    | case2 cursor last outcome =>
        cases failure
    | case3 cursor first reached outcome other last laterFails inductionHypothesis =>
        cases failure
        obtain ⟨found, between, itemRead, laterReads⟩ := collect_eq_ok success
        obtain ⟨reachedPlaced, sameSize, sameRead⟩ :=
          itemLocal.extends cursor more (some first) reached placed fits outcome
        rw [itemRead] at sameRead
        cases sameRead
        obtain ⟨later, laterRead⟩ := laterReads rfl
        rw [← sameSize] at fits
        exact inductionHypothesis later after reachedPlaced fits laterRead laterFails
    | case4 cursor first reached outcome later last laterRead inductionHypothesis =>
        cases failure

end Reader

end LineAtlas
