import LineAtlas.Proofs.Base128.Signed
import Mathlib.Data.Int.ModEq

namespace LineAtlas.Base128

/-!
# Signed numbers are reduced to 64 bits

A signed number is read exactly if one of the first ten bytes ends its spelling. It is
read as the only 64-bit number that is congruent to the one that is spelled. If the first
ten bytes all say that another one follows, and there is an eleventh, the spelling is too
long. All other bytes end before the number does.

Every number has exactly one shortest spelling, `signedBytes`, which is read back as the
number whatever comes after it.
-/

/-- The 64-bit number that is congruent to a number. -/
def IsReduction
    (value : Int64)
    (number : Int) :
    Prop :=
  ∀ other : Int64, other.toInt ≡ number [ZMOD 2 ^ 64] ↔ other = value

/-- The first ten bytes all say that another one follows, and there is an eleventh. -/
structure RunsOn (bytes : Bytes) : Prop where
  continues : ∀ byte ∈ bytes.take 10, isLast byte = false
  eleventh : 10 < bytes.length

/-- What the signed reader has to answer. -/
structure SignedIsReduced (bytes : Bytes) : Prop where
  accepted_iff :
    (∃ found, signed bytes = .ok found) ↔ ∃ index ≤ 9, bytes.findIdx? isLast = some index
  /-- What is read is the number that is spelled, reduced to 64 bits, with all of its bytes. -/
  read :
    ∀ index ≤ 9,
      bytes.findIdx? isLast = some index →
        ∃ value,
          signed bytes = .ok (value, index + 1) ∧
            IsReduction value (signedTotal (bytes.take (index + 1)))
  invalid_iff :
    (∃ description, signed bytes = .error (.invalidValue description)) ↔ RunsOn bytes
  /-- All other bytes end too early. -/
  otherwise :
    (∀ index ≤ 9, bytes.findIdx? isLast ≠ some index) →
      ¬ RunsOn bytes →
        signed bytes = .error (.truncated (bytes.length + 1) bytes.length "SLEB128 value")

/-- No spelling of the signed number has fewer bytes. -/
structure IsShortestSigned
    (bytes : Bytes)
    (number : Int) :
    Prop where
  spelling : IsSpelling bytes
  sum : signedTotal bytes = number
  least : ∀ other, IsSpelling other → signedTotal other = number → bytes.length ≤ other.length

variable {bytes : Bytes}

/-! ## What is read -/

/-- Every number has a reduction. -/
theorem isReduction_ofInt (number : Int) : IsReduction (Int64.ofInt number) number := by
  intro other
  have least : -2 ^ 63 ≤ other.toInt := other.le_toInt
  have greatest : other.toInt < 2 ^ 63 := other.toInt_lt
  constructor
  · intro congruent
    refine ((Int64.ofInt_eq_iff_bmod_eq_toInt number other).mpr ?_).symm
    exact (Int.bmod_eq_iff (by decide)).mpr
      ⟨by omega, by omega, Int.modEq_iff_dvd.mp congruent.symm⟩
  · rintro rfl
    have reduced := (Int64.ofInt_eq_iff_bmod_eq_toInt number _).mp rfl
    obtain ⟨-, -, multiple⟩ := (Int.bmod_eq_iff (by decide)).mp reduced
    exact (Int.modEq_iff_dvd.mpr multiple).symm

/-- A number that is too large is refused because its spelling runs on. -/
theorem signed_eq_invalid_iff :
    (∃ description, signed bytes = .error (.invalidValue description)) ↔ RunsOn bytes := by
  constructor
  · rintro ⟨description, failure⟩
    obtain ⟨fault, faulty, same⟩ := signed_eq_error_iff.mp failure
    cases fault with
    | tooLarge =>
        obtain ⟨continues, eleventh⟩ := (signedFrom_eq_tooLarge_iff (Nat.zero_le 10)).mp faulty
        exact ⟨continues, eleventh⟩
    | unterminated =>
        cases same
  · rintro ⟨continues, eleventh⟩
    have faulty : signedFrom 0 bytes = .error .tooLarge :=
      (signedFrom_eq_tooLarge_iff (Nat.zero_le 10)).mpr ⟨continues, eleventh⟩
    exact ⟨_, signed_eq_error_iff.mpr ⟨.tooLarge, faulty, rfl⟩⟩

/-! ## Shortest spellings -/

/-- A byte is known by its group and by whether it ends its number. -/
theorem byte_eq_of_group
    {byte other : UInt8}
    (sameGroup : group byte = group other)
    (sameEnd : isLast byte = isLast other) :
    byte = other := by
  have small := byte.toNat_lt
  have otherSmall := other.toNat_lt
  apply UInt8.toNat_inj.mp
  simp only [group] at sameGroup
  simp only [isLast, UInt8.lt_iff_toNat_lt, decide_eq_decide] at sameEnd
  have limit : (128 : UInt8).toNat = 128 := rfl
  rw [limit] at sameEnd
  omega

/-- The last group of a signed number is known by the number that it stands for. -/
theorem group_eq_of_signedGroup
    {byte other : UInt8}
    (same : signedGroup byte = signedGroup other) :
    group byte = group other := by
  have small := group_lt byte
  have otherSmall := group_lt other
  simp only [signedGroup] at same
  split at same <;> split at same <;> omega

/-- Two spellings of a signed number that have as many bytes are the same. -/
theorem SignedSpelling.unique
    {other : Bytes}
    {number : Int}
    (spelling : SignedSpelling bytes number)
    (otherSpelling : SignedSpelling other number)
    (sameLength : bytes.length = other.length) :
    bytes = other := by
  induction spelling generalizing other with
  | last byte ends =>
      generalize same : signedGroup byte = number at otherSpelling
      cases otherSpelling with
      | last otherByte otherEnds =>
          rw [byte_eq_of_group (group_eq_of_signedGroup same) (ends.trans otherEnds.symm)]
      | more otherByte continues later =>
          cases later <;> simp at sameLength
  | @more byte continues rest high later inductionHypothesis =>
      generalize same : (group byte : Int) + 128 * high = number at otherSpelling
      cases otherSpelling with
      | last otherByte ends =>
          cases later <;> simp at sameLength
      | @more otherByte otherContinues otherRest otherHigh otherLater =>
          have small := group_lt byte
          have otherSmall := group_lt otherByte
          obtain rfl : high = otherHigh := by omega
          have sameByte : byte = otherByte :=
            byte_eq_of_group (by omega) (continues.trans otherContinues.symm)
          rw [sameByte, inductionHypothesis otherLater (by simpa using sameLength)]

/-- The shortest spelling of a signed number is `signedBytes`, and there is no other one. -/
theorem isShortestSigned_iff
    {number : Int} :
    IsShortestSigned bytes number ↔ bytes = signedBytes number := by
  have shortest := spelling_signedBytes number
  constructor
  · rintro ⟨isSpelling, sum, least⟩
    have spelling := signedSpelling_iff.mpr ⟨isSpelling, sum⟩
    obtain ⟨shortestSpelling, shortestSum⟩ := signedSpelling_iff.mp shortest
    exact spelling.unique shortest <|
      Nat.le_antisymm (least _ shortestSpelling shortestSum) (length_signedBytes_le spelling)
  · rintro rfl
    obtain ⟨isSpelling, sum⟩ := signedSpelling_iff.mp shortest
    exact {
      spelling := isSpelling
      sum := sum
      least := fun other otherSpelling otherSum =>
        length_signedBytes_le (signedSpelling_iff.mpr ⟨otherSpelling, otherSum⟩)
    }

/--
For all bytes, the signed reader answers what it has to, and it reads every 64-bit number
from its only shortest spelling, whatever comes after it.
-/
theorem signedIsReduced
    (bytes : Bytes) :
    SignedIsReduced bytes ∧
      ∀ value : Int64,
        (∀ spelling,
          IsShortestSigned spelling value.toInt ↔ spelling = signedBytes value.toInt) ∧
          ∀ tail,
            signed (signedBytes value.toInt ++ tail) =
              .ok (value, (signedBytes value.toInt).length) := by
  constructor
  · constructor
    · constructor
      · rintro ⟨⟨value, used⟩, read⟩
        obtain ⟨index, ends, short, -, -⟩ := signed_eq_ok_iff.mp read
        exact ⟨index, short, ends⟩
      · rintro ⟨index, short, ends⟩
        exact ⟨_, signed_eq_ok_iff.mpr ⟨index, ends, short, rfl, rfl⟩⟩
    · intro index short ends
      exact ⟨_, signed_eq_ok_iff.mpr ⟨index, ends, short, rfl, rfl⟩, isReduction_ofInt _⟩
    · exact signed_eq_invalid_iff
    · intro noneEnds notTooLong
      cases outcome : signed bytes with
      | ok found =>
          obtain ⟨index, ends, short, -, -⟩ := signed_eq_ok_iff.mp outcome
          exact absurd ends (noneEnds index short)
      | error cause =>
          obtain ⟨fault, faulty, rfl⟩ := signed_eq_error_iff.mp outcome
          cases fault with
          | tooLarge =>
              exact absurd (signed_eq_invalid_iff.mp ⟨_, outcome⟩) notTooLong
          | unterminated =>
              rfl
  · intro value
    refine ⟨fun spelling => isShortestSigned_iff, fun tail => ?_⟩
    have read :=
      signed_complete (spelling_signedBytes value.toInt) (length_signedBytes_toInt value) tail
    rwa [Int64.ofInt_toInt] at read

end LineAtlas.Base128
