import LineAtlas.Proofs.Base128.Totals
import LineAtlas.Proofs.Failures

namespace LineAtlas.Base128

/-!
# Unsigned numbers are exact

An unsigned number is read exactly if its spelling has at most ten bytes and adds up to
less than `2 ^ 64`. It is too large exactly if nine bytes say that another one follows and
the tenth has more than one bit, or goes on to an eleventh. Otherwise the bytes end before
the number does.
-/

/-- The bytes start with a spelling whose last byte is at `index`, and the number fits. -/
structure Fits
    (bytes : Bytes)
    (index : Nat) :
    Prop where
  ends : bytes.findIdx? isLast = some index
  short : index ≤ 9
  small : total (bytes.take (index + 1)) < 2 ^ 64

/-- The groups of the number at the start have bits beyond the 64, or there is an eleventh. -/
structure Overflows (bytes : Bytes) : Prop where
  continues : ∀ byte ∈ bytes.take 9, isLast byte = false
  tenth : ∃ byte, bytes[9]? = some byte ∧ (1 < group byte ∨ isLast byte = false ∧ 10 < bytes.length)

/-- What the unsigned reader has to answer. -/
structure UnsignedIsExact (bytes : Bytes) : Prop where
  /-- A number that fits is read, with all of its bytes. -/
  read :
    ∀ index,
      Fits bytes index →
        ∃ value,
          unsigned bytes = .ok (value, index + 1) ∧
            value.toNat = total (bytes.take (index + 1))
  invalid_iff :
    (∃ description, unsigned bytes = .error (.invalidValue description)) ↔ Overflows bytes
  /-- All other bytes end too early. -/
  otherwise :
    (∀ index, ¬ Fits bytes index) →
      ¬ Overflows bytes →
        unsigned bytes = .error (.truncated (bytes.length + 1) bytes.length "ULEB128 value")

/-- No spelling that adds up to the number has fewer bytes. -/
structure IsShortest
    (bytes : Bytes)
    (number : Nat) :
    Prop where
  spelling : IsSpelling bytes
  sum : total bytes = number
  least : ∀ other, IsSpelling other → total other = number → bytes.length ≤ other.length

variable {bytes : Bytes}

/-! ## The faults of the reader -/

/-- A group before group 9 fits, so only those after it can be too large. -/
theorem unsignedFrom_eq_tooLarge_of_lt
    {index : Nat}
    (inner : index < 9)
    (byte : UInt8)
    (rest : Bytes) :
    unsignedFrom index (byte :: rest) = .error .tooLarge ↔
      isLast byte = false ∧ unsignedFrom (index + 1) rest = .error .tooLarge := by
  rw [unsignedFrom, if_neg (by omega)]
  cases isLast byte with
  | true =>
      simp
  | false =>
      cases unsignedFrom (index + 1) rest <;> simp

/-- Group 9 is too large if it has more than one bit, or if another group follows. -/
theorem unsignedFrom_nine_eq_tooLarge
    (byte : UInt8)
    (rest : Bytes) :
    unsignedFrom 9 (byte :: rest) = .error .tooLarge ↔
      1 < group byte ∨ (isLast byte = false ∧ 0 < rest.length) := by
  rw [unsignedFrom]
  by_cases large : 1 < group byte
  · simp [large]
  · rw [if_neg (by omega)]
    cases isLast byte with
    | true =>
        simp [large]
    | false =>
        cases rest <;> simp [unsignedFrom, large]

theorem unsignedFrom_eq_tooLarge_iff
    {index : Nat}
    (inner : index ≤ 9) :
    unsignedFrom index bytes = .error .tooLarge ↔
      (∀ byte ∈ bytes.take (9 - index), isLast byte = false) ∧
        ∃ tenth,
          bytes[9 - index]? = some tenth ∧
            (1 < group tenth ∨ (isLast tenth = false ∧ 10 - index < bytes.length)) := by
  induction bytes generalizing index with
  | nil =>
      simp [unsignedFrom]
  | cons byte rest inductionHypothesis =>
      rcases Nat.lt_or_eq_of_le inner with before | rfl
      · rw [unsignedFrom_eq_tooLarge_of_lt before, inductionHypothesis (by omega),
          show 9 - index = 9 - (index + 1) + 1 by omega,
          show 10 - index = 10 - (index + 1) + 1 by omega]
        simp [and_assoc]
      · rw [unsignedFrom_nine_eq_tooLarge]
        simp

/-- A value is refused, and not cut short, exactly if it overflows. -/
theorem unsigned_eq_invalid_iff :
    (∃ description, unsigned bytes = .error (.invalidValue description)) ↔ Overflows bytes := by
  have tooLarge :
      (∃ description, unsigned bytes = .error (.invalidValue description)) ↔
        unsignedFrom 0 bytes = .error .tooLarge := by
    constructor
    · rintro ⟨description, failure⟩
      obtain ⟨fault, faulty, same⟩ := unsigned_eq_error_iff.mp failure
      cases fault with
      | tooLarge =>
          exact faulty
      | unterminated =>
          cases same
    · intro faulty
      exact ⟨_, unsigned_eq_error_iff.mpr ⟨.tooLarge, faulty, rfl⟩⟩
  rw [tooLarge, unsignedFrom_eq_tooLarge_iff (Nat.zero_le 9)]
  constructor
  · rintro ⟨continues, tenth⟩
    exact ⟨continues, tenth⟩
  · rintro ⟨continues, tenth⟩
    exact ⟨continues, tenth⟩

/-! ## What is read -/

/-- A number is read exactly if it fits. -/
theorem unsigned_eq_ok_iff
    {value : UInt64}
    {used : Nat} :
    unsigned bytes = .ok (value, used) ↔
      ∃ index, Fits bytes index ∧ used = index + 1 ∧ value.toNat = total (bytes.take used) := by
  constructor
  · intro read
    obtain ⟨taken, tail, rfl, spelling, short, rfl⟩ := unsigned_sound read
    obtain ⟨isSpelling, sum⟩ := unsignedSpelling_iff.mp spelling
    obtain ⟨index, ends, size⟩ := isSpelling.exists_end tail
    refine ⟨index, ⟨ends, by omega, ?_⟩, size, ?_⟩
    · rw [← size, List.take_left, sum]
      exact value.toNat_lt
    · rw [List.take_left, sum]
  · rintro ⟨index, ⟨ends, short, small⟩, rfl, sum⟩
    obtain ⟨taken, tail, rfl, isSpelling, size⟩ := findIdx?_eq_some_iff.mp ends
    rw [← size, List.take_left] at sum
    rw [← size]
    exact unsigned_complete (unsignedSpelling_iff.mpr ⟨isSpelling, sum.symm⟩) (by omega) tail

theorem isShortest_unsignedBytes (number : Nat) : IsShortest (unsignedBytes number) number := by
  obtain ⟨isSpelling, sum⟩ := unsignedSpelling_iff.mp (spelling_unsignedBytes number)
  exact {
    spelling := isSpelling
    sum := sum
    least := fun other otherSpelling otherSum =>
      length_unsignedBytes_le (unsignedSpelling_iff.mpr ⟨otherSpelling, otherSum⟩)
  }

/--
For all bytes, the unsigned reader answers what it has to, and it reads the shortest
spelling of a number, whatever comes after it.
-/
theorem unsignedIsExact
    (bytes : Bytes) :
    UnsignedIsExact bytes ∧
      ∀ value : UInt64,
        IsShortest (unsignedBytes value.toNat) value.toNat ∧
          ∀ tail,
            unsigned (unsignedBytes value.toNat ++ tail) =
              .ok (value, (unsignedBytes value.toNat).length) := by
  constructor
  · constructor
    · intro index fits
      have sum : (UInt64.ofNat (total (bytes.take (index + 1)))).toNat = _ :=
        UInt64.toNat_ofNat_of_lt' fits.small
      exact ⟨_, unsigned_eq_ok_iff.mpr ⟨index, fits, rfl, sum⟩, sum⟩
    · exact unsigned_eq_invalid_iff
    · intro noneFits noOverflow
      cases outcome : unsigned bytes with
      | ok found =>
          obtain ⟨index, fits, -, -⟩ := unsigned_eq_ok_iff.mp outcome
          exact absurd fits (noneFits index)
      | error cause =>
          obtain ⟨fault, faulty, rfl⟩ := unsigned_eq_error_iff.mp outcome
          cases fault with
          | tooLarge =>
              exact absurd (unsigned_eq_invalid_iff.mp ⟨_, outcome⟩) noOverflow
          | unterminated =>
              rfl
  · intro value
    exact ⟨isShortest_unsignedBytes value.toNat,
      unsigned_complete (spelling_unsignedBytes value.toNat) (length_unsignedBytes_toNat value)⟩

end LineAtlas.Base128
