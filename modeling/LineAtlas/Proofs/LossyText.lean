import LineAtlas.Text.Utf8
import Mathlib.Algebra.Group.Nat.Defs
import Mathlib.Data.Nat.Basic

namespace LineAtlas.Utf8

/-!
# Lossy text of any bytes

Bytes without a zero among them give a text without a NUL. That needs the ranges of
the bytes inside a character: whatever bytes in range follow, a pending character ends
up as the number of some character, and not as zero.
-/

/-- The number is that of a character, and not of NUL. -/
def IsVisible (number : Nat) : Prop :=
  number ≠ 0 ∧ number.isValidChar

theorem ofNat_ne_nul
    {number : Nat}
    (visible : IsVisible number) :
    Char.ofNat number ≠ '\x00' := by
  intro isNul
  have sameNumber : (Char.ofNat number).toNat = number := by
    rw [Char.ofNat, dif_pos visible.2]
    rfl
  rw [isNul] at sameNumber
  exact visible.1 sameNumber.symm

/--
Whatever bytes in range complete a pending character, the number is that of a
character, and not of NUL. The bytes after the next one only count by their value.
-/
def Pending.Sound (pending : Pending) : Prop :=
  ∀ byte,
    pending.least ≤ byte → byte ≤ pending.greatest →
      ∀ tail,
        tail < 64 ^ pending.later →
          IsVisible (pending.extended byte * 64 ^ pending.later + tail)

/-- A byte in range that is not the last one leaves a sound character. -/
theorem Pending.Sound.tail
    {pending : Pending}
    (sound : pending.Sound)
    {byte : UInt8}
    (least : pending.least ≤ byte)
    (greatest : byte ≤ pending.greatest)
    {later : Nat}
    (more : pending.later = later + 1) :
    (Pending.tail (pending.extended byte) later).Sound := by
  intro next _ _ rest small
  change rest < 64 ^ later at small
  have low : next.toNat % 64 + 1 ≤ 64 := Nat.mod_lt _ (by decide)
  have inside : next.toNat % 64 * 64 ^ later + rest < 64 ^ pending.later := by
    calc
      next.toNat % 64 * 64 ^ later + rest
      _ < next.toNat % 64 * 64 ^ later + 64 ^ later := Nat.add_lt_add_left small _
      _ = (next.toNat % 64 + 1) * 64 ^ later := (Nat.succ_mul _ _).symm
      _ ≤ 64 * 64 ^ later := Nat.mul_le_mul_right _ low
      _ = 64 ^ pending.later := by rw [more, Nat.pow_succ, Nat.mul_comm]
  have visible := sound byte least greatest _ inside
  have sameNumber :
      pending.extended byte * 64 ^ pending.later + (next.toNat % 64 * 64 ^ later + rest) =
        (pending.extended byte * 64 + next.toNat % 64) * 64 ^ later + rest := by
    rw [more, Nat.pow_succ, Nat.add_mul, Nat.mul_assoc, Nat.mul_comm 64, Nat.add_assoc]
  rwa [sameNumber] at visible

/-- A byte in range that is the last one completes a character other than NUL. -/
theorem Pending.Sound.extended_visible
    {pending : Pending}
    (sound : pending.Sound)
    {byte : UInt8}
    (least : pending.least ≤ byte)
    (greatest : byte ≤ pending.greatest)
    (last : pending.later = 0) :
    IsVisible (pending.extended byte) := by
  have visible := sound byte least greatest 0 (Nat.pow_pos (by decide))
  simpa [last] using visible

/-- A first byte that begins a character begins a sound one. -/
theorem sound_of_opening
    {byte : UInt8}
    {pending : Pending}
    (begun : opening byte = .begun pending) :
    pending.Sound := by
  intro next least greatest rest small
  unfold opening at begun
  split_ifs at begun
  -- The ranges of the second byte rule out overlong forms, surrogates and too large numbers.
  all_goals cases begun
  all_goals
    simp only [Pending.tail, Pending.extended, IsVisible, Nat.isValidChar,
      UInt8.lt_iff_toNat_lt, UInt8.le_iff_toNat_le, ← UInt8.toNat_inj, UInt8.reduceToNat] at *
  all_goals omega

/-- A first byte that is a character by itself is NUL only if it is zero. -/
theorem ne_nul_of_opening
    {byte : UInt8}
    {character : Char}
    (notZero : byte ≠ 0)
    (whole : opening byte = .whole character) :
    character ≠ '\x00' := by
  unfold opening at whole
  split_ifs at whole with ascii
  cases whole
  apply ofNat_ne_nul
  simp only [IsVisible, Nat.isValidChar, UInt8.lt_iff_toNat_lt, ← UInt8.toNat_inj, Ne,
    UInt8.reduceToNat] at *
  omega

/-- Without a zero byte, no piece is a NUL. -/
theorem nul_not_mem_pieces
    {pending : Option Pending}
    {bytes : Bytes}
    (sound : ∀ begun ∈ pending, begun.Sound)
    (noZero : (0 : UInt8) ∉ bytes) :
    some '\x00' ∉ pieces pending bytes := by
  have soundNone : ∀ begun ∈ (none : Option Pending), begun.Sound := by
    simp
  have soundSome {begun : Pending} (one : begun.Sound) :
      ∀ other ∈ some begun, other.Sound := by
    simpa using one
  have parts {byte : UInt8} {rest : Bytes} (noZero : (0 : UInt8) ∉ byte :: rest) :
      byte ≠ 0 ∧ (0 : UInt8) ∉ rest := by
    simpa [eq_comm] using noZero
  -- The cases are those of the machine: between characters, in range, and out of range.
  fun_induction pieces pending bytes with
  | case1 =>
      simp
  | case2 =>
      simp
  | case3 byte rest character whole inductionHypothesis =>
      obtain ⟨notZero, noZeroLater⟩ := parts noZero
      have visible := ne_nul_of_opening notZero whole
      simpa [visible.symm] using inductionHypothesis soundNone noZeroLater
  | case4 byte rest begun begins inductionHypothesis =>
      exact inductionHypothesis (soundSome (sound_of_opening begins)) (parts noZero).2
  | case5 byte rest refused inductionHypothesis =>
      simpa using inductionHypothesis soundNone (parts noZero).2
  | case6 byte rest pending inRange last inductionHypothesis =>
      have completed := (sound pending rfl).extended_visible inRange.1 inRange.2 last
      have visible := ofNat_ne_nul completed
      simpa [visible.symm] using inductionHypothesis soundNone (parts noZero).2
  | case7 byte rest pending inRange later more inductionHypothesis =>
      have shorter := (sound pending rfl).tail inRange.1 inRange.2 more
      exact inductionHypothesis (soundSome shorter) (parts noZero).2
  | case8 byte rest pending outOfRange character whole inductionHypothesis =>
      obtain ⟨notZero, noZeroLater⟩ := parts noZero
      have visible := ne_nul_of_opening notZero whole
      simpa [visible.symm] using inductionHypothesis soundNone noZeroLater
  | case9 byte rest pending outOfRange begun begins inductionHypothesis =>
      simpa using
        inductionHypothesis (soundSome (sound_of_opening begins)) (parts noZero).2
  | case10 byte rest pending outOfRange refused inductionHypothesis =>
      simpa using inductionHypothesis soundNone (parts noZero).2

/-- Text without a zero byte has no NUL. -/
theorem nul_not_mem_decodeLossy
    {bytes : Bytes}
    (noZero : (0 : UInt8) ∉ bytes) :
    '\x00' ∉ (decodeLossy bytes).toList := by
  rw [decodeLossy, String.toList_ofList, List.mem_map]
  rintro ⟨piece, member, isNul⟩
  cases piece with
  | none =>
      cases isNul
  | some character =>
      rw [Option.getD_some] at isNul
      rw [isNul] at member
      exact nul_not_mem_pieces (by simp) noZero member

end LineAtlas.Utf8
