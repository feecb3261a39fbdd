import LineAtlas.Proofs.Checked.Operations
import LineAtlas.Proofs.Writing.Base128
import Mathlib.Data.Nat.Bitwise

namespace LineAtlas.Checked

/-!
# Base-128 numbers on a processor

A processor puts the groups of a number together by shifts: each group is moved up by
seven bits more than the one before it, and by less than 64. A number of which the
groups so far are `low`, below two to the power of the shift, ends as `low` and the
shifted number of the groups that are left; that is what carries both inductions.
-/

/-- The lower seven bits of a byte. -/
def payload (byte : UInt8) : UInt64 :=
  (byte &&& 0x7F).toUInt64

/-- Fails because the bytes end before the number does. -/
def unterminated
    {α : Type}
    (subject : String)
    (whole : Bytes) :
    Except Stop α := do
  let expected ← sum whole.length 1
  throw (.failure (.truncated expected whole.length subject))

/-- Puts the groups from `index` on together; `result` holds those before. -/
def unsignedFrom
    (whole : Bytes)
    (index : Nat)
    (result : UInt64)
    (shift : Nat) :
    Bytes → Except Stop (UInt64 × Nat)
  | [] => unterminated "ULEB128 value" whole
  | byte :: rest => do
      let low := payload byte
      if 64 ≤ shift ∨ (shift = 63 ∧ 1 < low) then
        throw (.failure (.invalidValue "ULEB128 overflow"))
      let result := result ||| (← shiftedLeft low shift)
      let shift ← sumBelow shift 7 UInt32.size
      if byte &&& 0x80 = 0 then
        return (result, ← sum index 1)
      unsignedFrom whole (index + 1) result shift rest

/-- The unsigned number at the start of `bytes` and the count of its bytes. -/
def unsignedOf (bytes : Bytes) : Except Stop (UInt64 × Nat) :=
  unsignedFrom bytes 0 0 0 bytes

/-- Fills the bits from `shift` on if the last byte has its bit 6 set. -/
def extended
    (byte : UInt8)
    (result : UInt64)
    (shift : Nat) :
    Except Stop UInt64 := do
  if shift < 64 ∧ byte &&& 0x40 ≠ 0 then
    return result ||| (← shiftedLeft (~~~0) shift)
  return result

/-- Puts the groups from `index` on together; `result` holds those before. -/
def signedFrom
    (whole : Bytes)
    (index : Nat)
    (result : UInt64)
    (shift : Nat) :
    Bytes → Except Stop (Int64 × Nat)
  | [] => unterminated "SLEB128 value" whole
  | byte :: rest => do
      if 64 ≤ shift then
        throw (.failure (.invalidValue "SLEB128 overflow"))
      let result := result ||| (← shiftedLeft (payload byte) shift)
      let shift ← sumBelow shift 7 UInt32.size
      if byte &&& 0x80 = 0 then
        let result ← extended byte result shift
        return (result.toInt64, ← sum index 1)
      signedFrom whole (index + 1) result shift rest

/-- The signed number at the start of `bytes` and the count of its bytes. -/
def signedOf (bytes : Bytes) : Except Stop (Int64 × Nat) :=
  signedFrom bytes 0 0 0 bytes

/-! ## Bits -/

/-- A bit of a byte is off if the number above it is even. -/
theorem bit_eq_zero_iff
    (byte : UInt8)
    {bit : UInt8}
    (place : Nat)
    (single : bit.toNat = 2 ^ place) :
    byte &&& bit = 0 ↔ byte.toNat / 2 ^ place % 2 = 0 := by
  rw [← UInt8.toNat_inj, UInt8.toNat_and, single, Nat.and_two_pow,
    Nat.testBit_eq_decide_div_mod_eq]
  have positive := Nat.two_pow_pos place
  rcases Nat.mod_two_eq_zero_or_one (byte.toNat / 2 ^ place) with even | odd
  · simp [even]
  · simp [odd]

/-- The high bit says whether another byte follows. -/
theorem highBit_eq_zero_iff (byte : UInt8) : byte &&& 0x80 = 0 ↔ Base128.isLast byte = true := by
  have small := byte.toNat_lt
  rw [bit_eq_zero_iff byte 7 rfl, Base128.isLast, decide_eq_true_iff,
    UInt8.lt_iff_toNat_lt]
  simp
  omega

/-- The bit below it is the sign of a last byte. -/
theorem signBit_eq_zero_iff (byte : UInt8) : byte &&& 0x40 = 0 ↔ Base128.group byte < 64 := by
  rw [bit_eq_zero_iff byte 6 rfl, Base128.group]
  omega

theorem payload_eq (byte : UInt8) : payload byte = UInt64.ofNat (Base128.group byte) := by
  rw [← UInt64.toNat_inj, payload, UInt8.toNat_toUInt64, UInt8.toNat_and, Base128.group,
    UInt64.toNat_ofNat_of_lt' (Nat.lt_trans (Nat.mod_lt _ (by decide)) (by decide))]
  exact Nat.and_two_pow_sub_one_eq_mod byte.toNat 7

/-- Bits that are moved past all bits of a number are added to it. -/
theorem or_shiftedLeft
    {low shift : Nat}
    (below : low < 2 ^ shift)
    (inside : shift < 64)
    (bits : Nat) :
    UInt64.ofNat low ||| (UInt64.ofNat bits <<< UInt64.ofNat shift) =
      UInt64.ofNat (low + 2 ^ shift * bits) := by
  rw [← UInt64.ofNat_shiftLeft _ _ inside, ← UInt64.ofNat_or, Nat.or_comm,
    ← Nat.shiftLeft_add_eq_or_of_lt below, Nat.shiftLeft_eq, Nat.add_comm, Nat.mul_comm]

/-- A group more takes seven bits more. -/
theorem add_group_lt
    {low shift : Nat}
    (below : low < 2 ^ shift)
    (byte : UInt8) :
    low + 2 ^ shift * Base128.group byte < 2 ^ (shift + 7) := by
  have small := Base128.group_lt byte
  calc
    low + 2 ^ shift * Base128.group byte
    _ < 2 ^ shift + 2 ^ shift * Base128.group byte := Nat.add_lt_add_right below _
    _ = 2 ^ shift * (Base128.group byte + 1) := by ring
    _ ≤ 2 ^ shift * 2 ^ 7 := Nat.mul_le_mul_left _ small
    _ = 2 ^ (shift + 7) := (Nat.pow_add 2 shift 7).symm

/-- The groups that are left count for as much more as they come later. -/
theorem more_groups
    (low index group high : Nat) :
    low + 2 ^ (7 * index) * group + 2 ^ (7 * (index + 1)) * high =
      low + 2 ^ (7 * index) * (group + 128 * high) := by
  rw [Nat.mul_succ, Nat.pow_add]
  ring

theorem shift_lt
    {index : Nat}
    (short : index ≤ 10) :
    7 * index + 7 < UInt32.size := by
  have : UInt32.size = 4294967296 := rfl
  omega

theorem index_lt
    {index : Nat}
    (short : index ≤ 10) :
    index + 1 < addressLimit := by
  have : addressLimit = 18446744073709551616 := rfl
  omega

/-! ## Unsigned numbers -/

theorem unterminated_eq
    {α : Type}
    {whole : Bytes}
    (fits : whole.length + 1 < addressLimit)
    (subject : String) :
    (unterminated subject whole : Except Stop α) =
      .error (.failure (.truncated (whole.length + 1) whole.length subject)) := by
  rw [unterminated, sum_of_lt fits]
  rfl

theorem unsignedFrom_eq
    {whole : Bytes}
    (fits : whole.length + 1 < addressLimit)
    {index low : Nat}
    (below : low < 2 ^ (7 * index))
    (short : index ≤ 10)
    (bytes : Bytes) :
    unsignedFrom whole index (UInt64.ofNat low) (7 * index) bytes =
      match Base128.unsignedFrom index bytes with
      | .ok (high, used) => .ok (UInt64.ofNat (low + 2 ^ (7 * index) * high), used)
      | .error fault => .error (.failure (fault.toReadError "ULEB128" whole)) := by
  induction bytes generalizing index low with
  | nil =>
      exact unterminated_eq fits "ULEB128 value"
  | cons byte rest inductionHypothesis =>
      have small := Base128.group_lt byte
      have sameBound : (64 ≤ 7 * index ∨ 7 * index = 63 ∧ 1 < payload byte) ↔
          (9 < index ∨ index = 9 ∧ 1 < Base128.group byte) := by
        rw [payload_eq, UInt64.lt_iff_toNat_lt,
          UInt64.toNat_ofNat_of_lt' (Nat.lt_trans small (by decide))]
        simp
        omega
      rw [unsignedFrom, Base128.unsignedFrom]
      simp only [sameBound, highBit_eq_zero_iff]
      split
      · rfl
      · next allowed =>
          have inside : 7 * index < 64 := by omega
          rw [shiftedLeft_of_lt inside, payload_eq]
          rw [ok_bind, or_shiftedLeft below inside, sumBelow_of_lt (shift_lt short), ok_bind]
          split
          · rw [sum_of_lt (index_lt short)]
            rfl
          · have moreBelow : low + 2 ^ (7 * index) * Base128.group byte < 2 ^ (7 * (index + 1)) :=
              add_group_lt below byte
            have later := inductionHypothesis moreBelow (by omega)
            rw [← Nat.mul_succ, later]
            cases Base128.unsignedFrom (index + 1) rest with
            | error fault =>
                rfl
            | ok found =>
                dsimp only
                rw [more_groups]

theorem unsignedOf_eq
    {bytes : Bytes}
    (fits : bytes.length + 1 < addressLimit) :
    unsignedOf bytes = look (Base128.unsigned bytes) := by
  have read := unsignedFrom_eq fits (show 0 < 2 ^ (7 * 0) by decide) (by decide) bytes
  rw [unsignedOf, Base128.unsigned]
  refine Eq.trans read ?_
  cases Base128.unsignedFrom 0 bytes with
  | error fault =>
      rfl
  | ok found =>
      simp

/-! ## Signed numbers -/

/-- Multiples of what 64 bits can count are lost. -/
theorem ofInt_eq_of_multiple
    {value other : Int}
    (multiple : Int)
    (apart : value = other + 2 ^ 64 * multiple) :
    Int64.ofInt value = Int64.ofInt other := by
  have lost : Int64.ofInt (2 ^ 64) = 0 := by decide
  rw [apart, Int64.ofInt_add, Int64.ofInt_mul, lost, Int64.zero_mul, Int64.add_zero]

/-- The last group of a number gives it its sign. -/
theorem extended_eq
    {low index : Nat}
    (below : low < 2 ^ (7 * index))
    (short : index ≤ 9)
    (byte : UInt8) :
    ∃ bits,
      extended byte (UInt64.ofNat (low + 2 ^ (7 * index) * Base128.group byte)) (7 * index + 7) =
          .ok bits ∧
        bits.toInt64 = Int64.ofInt (low + 2 ^ (7 * index) * Base128.signedGroup byte) := by
  have plain (number : Nat) : (UInt64.ofNat number).toInt64 = Int64.ofInt number :=
    UInt64.toInt64_ofNat'
  rw [extended, Base128.signedGroup]
  by_cases positive : Base128.group byte < 64
  · refine ⟨_, if_neg (by simp [signBit_eq_zero_iff, positive]), ?_⟩
    rw [plain, if_pos positive]
    push_cast
    rfl
  · have negative : byte &&& 0x40 ≠ 0 := by rwa [Ne, signBit_eq_zero_iff]
    rw [if_neg positive]
    rcases Nat.lt_or_eq_of_le short with inner | rfl
    · have inside : 7 * index + 7 < 64 := by omega
      refine ⟨_, by rw [if_pos ⟨inside, negative⟩, shiftedLeft_of_lt inside]; rfl, ?_⟩
      have ones : ~~~(0 : UInt64) = UInt64.ofNat (2 ^ 64 - 1) := rfl
      rw [ones, or_shiftedLeft (add_group_lt below byte) inside, plain]
      apply ofInt_eq_of_multiple (2 ^ (7 * index + 7))
      push_cast
      rw [pow_add]
      ring
    · refine ⟨_, if_neg (by simp), ?_⟩
      rw [plain]
      apply ofInt_eq_of_multiple 64
      push_cast
      ring

theorem signedFrom_eq
    {whole : Bytes}
    (fits : whole.length + 1 < addressLimit)
    {index low : Nat}
    (below : low < 2 ^ (7 * index))
    (short : index ≤ 10)
    (bytes : Bytes) :
    signedFrom whole index (UInt64.ofNat low) (7 * index) bytes =
      match Base128.signedFrom index bytes with
      | .ok (high, used) => .ok (Int64.ofInt (low + 2 ^ (7 * index) * high), used)
      | .error fault => .error (.failure (fault.toReadError "SLEB128" whole)) := by
  induction bytes generalizing index low with
  | nil =>
      exact unterminated_eq fits "SLEB128 value"
  | cons byte rest inductionHypothesis =>
      have sameBound : 64 ≤ 7 * index ↔ 9 < index := by omega
      rw [signedFrom, Base128.signedFrom]
      simp only [sameBound, highBit_eq_zero_iff]
      split
      · rfl
      · next allowed =>
          have inside : 7 * index < 64 := by omega
          rw [shiftedLeft_of_lt inside, payload_eq, ok_bind, or_shiftedLeft below inside,
            sumBelow_of_lt (shift_lt short), ok_bind]
          split
          · obtain ⟨bits, filled, value⟩ := extended_eq below (by omega) byte
            rw [filled, ok_bind, sum_of_lt (index_lt short), ok_bind, value]
            rfl
          · have moreBelow : low + 2 ^ (7 * index) * Base128.group byte < 2 ^ (7 * (index + 1)) :=
              add_group_lt below byte
            have later := inductionHypothesis moreBelow (by omega)
            rw [← Nat.mul_succ, later]
            cases Base128.signedFrom (index + 1) rest with
            | error fault =>
                rfl
            | ok found =>
                dsimp only
                congr 3
                push_cast
                rw [Nat.mul_succ, pow_add]
                ring

theorem signedOf_eq
    {bytes : Bytes}
    (fits : bytes.length + 1 < addressLimit) :
    signedOf bytes = look (Base128.signed bytes) := by
  have read := signedFrom_eq fits (show 0 < 2 ^ (7 * 0) by decide) (by decide) bytes
  rw [signedOf, Base128.signed]
  refine Eq.trans read ?_
  cases Base128.signedFrom 0 bytes with
  | error fault =>
      rfl
  | ok found =>
      simp

end LineAtlas.Checked
