import LineAtlas.Base128
import Mathlib.Tactic.Ring

namespace LineAtlas.Base128

/-!
# Spelling base-128 numbers

A spelling is a row of bytes of which all but the last say that another one
follows. `UnsignedSpelling` and `SignedSpelling` give the number that a spelling
stands for, without a bound on its length; the readers accept exactly the
spellings of at most ten bytes, and of those without a sign only the ones whose
number fits into 64 bits.

Every number has one shortest spelling, `unsignedBytes` or `signedBytes`.
-/

/-- The bytes spell an unsigned number, least significant group first. -/
inductive UnsignedSpelling : Bytes → Nat → Prop where
  | last
      (byte : UInt8)
      (ends : isLast byte = true) :
      UnsignedSpelling [byte] (group byte)
  | more
      (byte : UInt8)
      (continues : isLast byte = false)
      {rest : Bytes}
      {high : Nat}
      (later : UnsignedSpelling rest high) :
      UnsignedSpelling (byte :: rest) (group byte + 128 * high)

/-- The bytes spell a signed number, whose sign is bit 6 of the last byte. -/
inductive SignedSpelling : Bytes → Int → Prop where
  | last
      (byte : UInt8)
      (ends : isLast byte = true) :
      SignedSpelling [byte] (signedGroup byte)
  | more
      (byte : UInt8)
      (continues : isLast byte = false)
      {rest : Bytes}
      {high : Int}
      (later : SignedSpelling rest high) :
      SignedSpelling (byte :: rest) (group byte + 128 * high)

theorem group_lt (byte : UInt8) : group byte < 128 :=
  Nat.mod_lt _ (by decide)

/-! ## The readers accept spellings -/

/-- The groups from `index` on share out the bits that are left of 64. -/
theorem two_pow_groups
    {index : Nat}
    (inner : index < 9) :
    2 ^ (64 - 7 * index) = 128 * 2 ^ (64 - 7 * (index + 1)) := by
  have exponent : 64 - 7 * index = 7 + (64 - 7 * (index + 1)) := by omega
  rw [exponent, Nat.pow_add]

/-- What the unsigned reader reads is a spelling of a number that fits. -/
theorem unsignedFrom_sound
    {index : Nat}
    {bytes : Bytes}
    {value used : Nat}
    (read : unsignedFrom index bytes = .ok (value, used)) :
    ∃ taken tail,
      bytes = taken ++ tail ∧
        UnsignedSpelling taken value ∧
        value < 2 ^ (64 - 7 * index) ∧
        used = index + taken.length ∧
        used ≤ 10 := by
  induction bytes generalizing index value with
  | nil =>
      simp [unsignedFrom] at read
  | cons byte rest inductionHypothesis =>
      have small := group_lt byte
      unfold unsignedFrom at read
      split at read
      · cases read
      · next allowed =>
          split at read
          · next ends =>
              cases read
              refine ⟨[byte], rest, rfl, .last byte ends, ?_, rfl, by omega⟩
              rcases Nat.lt_or_eq_of_le (show index ≤ 9 by omega) with inner | rfl
              · rw [two_pow_groups inner]
                have := Nat.two_pow_pos (64 - 7 * (index + 1))
                omega
              · norm_num
                omega
          · next continues =>
              split at read
              · next high later tailRead =>
                  cases read
                  obtain ⟨taken, tail, shape, spelling, fits, count, short⟩ :=
                    inductionHypothesis tailRead
                  have nonempty : 0 < taken.length := by
                    cases spelling <;> simp
                  refine ⟨byte :: taken, tail, by rw [shape]; rfl,
                    .more byte (by simpa using continues) spelling, ?_,
                    by simp only [List.length_cons]; omega, short⟩
                  rw [two_pow_groups (by omega)]
                  omega
              · cases read

/-- Every spelling of a number that fits is read, whatever comes after it. -/
theorem unsignedFrom_complete
    {index : Nat}
    {bytes : Bytes}
    {value : Nat}
    (spelling : UnsignedSpelling bytes value)
    (fits : value < 2 ^ (64 - 7 * index))
    (short : index + bytes.length ≤ 10)
    (tail : Bytes) :
    unsignedFrom index (bytes ++ tail) = .ok (value, index + bytes.length) := by
  induction spelling generalizing index with
  | last byte ends =>
      have allowed : ¬ (9 < index ∨ (index = 9 ∧ 1 < group byte)) := by
        rintro (beyond | ⟨rfl, large⟩)
        · simp at short
          omega
        · norm_num at fits
          omega
      simp only [List.cons_append, unsignedFrom, if_neg allowed, ends, if_true,
        List.length_singleton]
  | @more byte continues rest high later inductionHypothesis =>
      have nonempty : 0 < rest.length := by
        cases later <;> simp
      simp only [List.length_cons] at short ⊢
      have inner : index < 9 := by omega
      have allowed : ¬ (9 < index ∨ (index = 9 ∧ 1 < group byte)) := by omega
      rw [two_pow_groups inner] at fits
      have tailRead := @inductionHypothesis (index + 1) (by omega) (by omega)
      simp only [List.cons_append, unsignedFrom, if_neg allowed, continues,
        tailRead, Bool.false_eq_true, if_false]
      congr 2
      omega

/-- What the signed reader reads is a spelling. -/
theorem signedFrom_sound
    {index : Nat}
    {bytes : Bytes}
    {value : Int}
    {used : Nat}
    (read : signedFrom index bytes = .ok (value, used)) :
    ∃ taken tail,
      bytes = taken ++ tail ∧
        SignedSpelling taken value ∧
        used = index + taken.length ∧
        used ≤ 10 := by
  induction bytes generalizing index value with
  | nil =>
      simp [signedFrom] at read
  | cons byte rest inductionHypothesis =>
      unfold signedFrom at read
      split at read
      · cases read
      · next allowed =>
          split at read
          · next ends =>
              cases read
              exact ⟨[byte], rest, rfl, .last byte ends, rfl, by omega⟩
          · next continues =>
              split at read
              · next high later tailRead =>
                  cases read
                  obtain ⟨taken, tail, shape, spelling, count, short⟩ :=
                    inductionHypothesis tailRead
                  exact ⟨byte :: taken, tail, by rw [shape]; rfl,
                    .more byte (by simpa using continues) spelling,
                    by simp only [List.length_cons]; omega, short⟩
              · cases read

/-- Every spelling of at most ten bytes is read, whatever comes after it. -/
theorem signedFrom_complete
    {index : Nat}
    {bytes : Bytes}
    {value : Int}
    (spelling : SignedSpelling bytes value)
    (short : index + bytes.length ≤ 10)
    (tail : Bytes) :
    signedFrom index (bytes ++ tail) = .ok (value, index + bytes.length) := by
  induction spelling generalizing index with
  | last byte ends =>
      have allowed : ¬ 9 < index := by
        simp at short
        omega
      simp only [List.cons_append, signedFrom, if_neg allowed, ends, if_true,
        List.length_singleton]
  | @more byte continues rest high later inductionHypothesis =>
      simp only [List.length_cons] at short ⊢
      have allowed : ¬ 9 < index := by omega
      have tailRead := @inductionHypothesis (index + 1) (by omega)
      simp only [List.cons_append, signedFrom, if_neg allowed, continues,
        tailRead, Bool.false_eq_true, if_false]
      congr 2
      omega

/-- A number read into 64 bits is spelled by the bytes that it took. -/
theorem unsigned_sound
    {bytes : Bytes}
    {value : UInt64}
    {used : Nat}
    (read : unsigned bytes = .ok (value, used)) :
    ∃ taken tail,
      bytes = taken ++ tail ∧
        UnsignedSpelling taken value.toNat ∧
        taken.length ≤ 10 ∧
        used = taken.length := by
  unfold unsigned at read
  split at read
  · next wide taken groups =>
      cases read
      obtain ⟨spelled, tail, shape, spelling, fits, count, short⟩ :=
        unsignedFrom_sound groups
      have sameValue : (UInt64.ofNat wide).toNat = wide := by
        simpa using Nat.mod_eq_of_lt fits
      exact ⟨spelled, tail, shape, sameValue.symm ▸ spelling, by omega, by omega⟩
  · cases read

/-- A 64-bit number is read from each of its spellings of at most ten bytes. -/
theorem unsigned_complete
    {bytes : Bytes}
    {value : UInt64}
    (spelling : UnsignedSpelling bytes value.toNat)
    (short : bytes.length ≤ 10)
    (tail : Bytes) :
    unsigned (bytes ++ tail) = .ok (value, bytes.length) := by
  have groups :
      unsignedFrom 0 (bytes ++ tail) = .ok (value.toNat, 0 + bytes.length) :=
    unsignedFrom_complete spelling value.toNat_lt (by omega) tail
  simp [unsigned, groups]

/-- A signed number read into 64 bits is spelled, before it is reduced, by the bytes it took. -/
theorem signed_sound
    {bytes : Bytes}
    {value : Int64}
    {used : Nat}
    (read : signed bytes = .ok (value, used)) :
    ∃ taken tail wide,
      bytes = taken ++ tail ∧
        SignedSpelling taken wide ∧
        value = Int64.ofInt wide ∧
        taken.length ≤ 10 ∧
        used = taken.length := by
  unfold signed at read
  split at read
  · next wide taken groups =>
      cases read
      obtain ⟨spelled, tail, shape, spelling, count, short⟩ :=
        signedFrom_sound groups
      exact ⟨spelled, tail, wide, shape, spelling, rfl, by omega, by omega⟩
  · cases read

/-- A signed number is read, reduced to 64 bits, from each of its spellings of at most ten bytes. -/
theorem signed_complete
    {bytes : Bytes}
    {wide : Int}
    (spelling : SignedSpelling bytes wide)
    (short : bytes.length ≤ 10)
    (tail : Bytes) :
    signed (bytes ++ tail) = .ok (Int64.ofInt wide, bytes.length) := by
  have groups : signedFrom 0 (bytes ++ tail) = .ok (wide, 0 + bytes.length) :=
    signedFrom_complete spelling (by omega) tail
  simp [signed, groups]

/-! ## Shortest spellings -/

/-- The shortest spelling of an unsigned number. -/
def unsignedBytes (value : Nat) : Bytes :=
  if value < 128 then
    [UInt8.ofNat value]
  else
    UInt8.ofNat (128 + value % 128) :: unsignedBytes (value / 128)

/-- The shortest spelling of a signed number; its last group shows the sign. -/
def signedBytes (value : Int) : Bytes :=
  if -64 ≤ value ∧ value < 64 then
    [UInt8.ofNat (value % 128).toNat]
  else
    UInt8.ofNat (128 + (value % 128).toNat) :: signedBytes (value / 128)
termination_by value.natAbs

theorem toNat_ofNat_of_lt
    {number : Nat}
    (small : number < 256) :
    (UInt8.ofNat number).toNat = number := by
  simpa using Nat.mod_eq_of_lt small

/-- A group below 128 ends its number, and stands for itself. -/
theorem last_of_lt
    {number : Nat}
    (small : number < 128) :
    isLast (UInt8.ofNat number) = true ∧ group (UInt8.ofNat number) = number := by
  have byte := toNat_ofNat_of_lt (show number < 256 by omega)
  constructor
  · simpa [isLast, UInt8.lt_iff_toNat_lt, byte] using small
  · simpa [group, byte] using Nat.mod_eq_of_lt small

/-- A group with the high bit set continues its number, and stands for the group. -/
theorem more_of_lt
    {number : Nat}
    (small : number < 128) :
    isLast (UInt8.ofNat (128 + number)) = false ∧
      group (UInt8.ofNat (128 + number)) = number := by
  have byte := toNat_ofNat_of_lt (show 128 + number < 256 by omega)
  constructor
  · rw [isLast, decide_eq_false_iff_not, UInt8.lt_iff_toNat_lt, byte]
    simp
  · rw [group, byte]
    omega

theorem spelling_unsignedBytes (value : Nat) :
    UnsignedSpelling (unsignedBytes value) value := by
  fun_induction unsignedBytes value with
  | case1 value small =>
      have shape := last_of_lt small
      simpa [shape.2] using UnsignedSpelling.last _ shape.1
  | case2 value large inductionHypothesis =>
      have shape := more_of_lt (Nat.mod_lt value (show 0 < 128 by decide))
      have spelled := UnsignedSpelling.more _ shape.1 inductionHypothesis
      rwa [shape.2, Nat.mod_add_div] at spelled

theorem spelling_signedBytes (value : Int) :
    SignedSpelling (signedBytes value) value := by
  fun_induction signedBytes value with
  | case1 value small =>
      have shape := last_of_lt (show (value % 128).toNat < 128 by omega)
      have sign : signedGroup (UInt8.ofNat (value % 128).toNat) = value := by
        rw [signedGroup, shape.2]
        split <;> omega
      have spelled := SignedSpelling.last _ shape.1
      rwa [sign] at spelled
  | case2 value large inductionHypothesis =>
      have shape := more_of_lt (show (value % 128).toNat < 128 by omega)
      have spelled := SignedSpelling.more _ shape.1 inductionHypothesis
      have whole : ((value % 128).toNat : Int) + 128 * (value / 128) = value := by
        omega
      rwa [shape.2, whole] at spelled

/-- No spelling of an unsigned number has fewer bytes than the shortest one. -/
theorem length_unsignedBytes_le
    {bytes : Bytes}
    {value : Nat}
    (spelling : UnsignedSpelling bytes value) :
    (unsignedBytes value).length ≤ bytes.length := by
  induction spelling with
  | last byte ends =>
      rw [unsignedBytes, if_pos (group_lt byte)]
      simp
  | @more byte continues rest high later inductionHypothesis =>
      have small := group_lt byte
      rw [unsignedBytes]
      split
      · simp
      · have high_eq : (group byte + 128 * high) / 128 = high := by omega
        simpa [high_eq] using inductionHypothesis

/-- No spelling of a signed number has fewer bytes than the shortest one. -/
theorem length_signedBytes_le
    {bytes : Bytes}
    {value : Int}
    (spelling : SignedSpelling bytes value) :
    (signedBytes value).length ≤ bytes.length := by
  induction spelling with
  | last byte ends =>
      have small := group_lt byte
      have oneGroup : -64 ≤ signedGroup byte ∧ signedGroup byte < 64 := by
        rw [signedGroup]
        split <;> omega
      rw [signedBytes, if_pos oneGroup]
      simp
  | @more byte continues rest high later inductionHypothesis =>
      have small := group_lt byte
      rw [signedBytes]
      split
      · simp
      · have high_eq : ((group byte : Int) + 128 * high) / 128 = high := by omega
        simpa [high_eq] using inductionHypothesis

/-- Seven bits a byte are enough room for an unsigned number. -/
theorem length_unsignedBytes_le_of_lt
    {value count : Nat}
    (small : value < 128 ^ (count + 1)) :
    (unsignedBytes value).length ≤ count + 1 := by
  induction count generalizing value with
  | zero =>
      rw [unsignedBytes, if_pos (by simpa using small)]
      simp
  | succ count inductionHypothesis =>
      rw [unsignedBytes]
      split
      · simp
      · have high : value / 128 < 128 ^ (count + 1) := by
          rw [Nat.pow_succ] at small
          exact Nat.div_lt_of_lt_mul (by omega)
        simpa using inductionHypothesis high

/-- Seven bits a byte, one of them for the sign, are enough room for a signed number. -/
theorem length_signedBytes_le_of_lt
    {value : Int}
    {count : Nat}
    (least : -(64 * 128 ^ count) ≤ value)
    (greatest : value < 64 * 128 ^ count) :
    (signedBytes value).length ≤ count + 1 := by
  induction count generalizing value with
  | zero =>
      rw [signedBytes, if_pos (by constructor <;> omega)]
      simp
  | succ count inductionHypothesis =>
      rw [signedBytes]
      split
      · simp
      · rw [pow_succ] at least greatest
        have high : (signedBytes (value / 128)).length ≤ count + 1 :=
          inductionHypothesis (by omega) (by omega)
        simpa using high

/-- The shortest spelling of a 64-bit unsigned number is one that the reader takes. -/
theorem length_unsignedBytes_toNat (value : UInt64) :
    (unsignedBytes value.toNat).length ≤ 10 := by
  have small : value.toNat < 2 ^ 64 := value.toNat_lt
  exact length_unsignedBytes_le_of_lt (show value.toNat < 128 ^ (9 + 1) by omega)

/-- The shortest spelling of a 64-bit signed number is one that the reader takes. -/
theorem length_signedBytes_toInt (value : Int64) :
    (signedBytes value.toInt).length ≤ 10 := by
  have least : -2 ^ 63 ≤ value.toInt := value.le_toInt
  have greatest : value.toInt < 2 ^ 63 := value.toInt_lt
  exact length_signedBytes_le_of_lt
    (show -(64 * 128 ^ 9) ≤ value.toInt by omega)
    (show value.toInt < 64 * 128 ^ 9 by omega)

end LineAtlas.Base128
