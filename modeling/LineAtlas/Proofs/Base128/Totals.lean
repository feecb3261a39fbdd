import LineAtlas.Proofs.Writing.Base128
import Mathlib.Data.Nat.Digits.Defs

namespace LineAtlas.Base128

/-!
# What a spelling adds up to

Group `i` of a number counts for `128 ^ i`, and the sign of a signed number takes away
the range of all its groups. The first byte that does not say that another one follows
ends the spelling at the start of a run of bytes. So the number that a spelling stands
for, and how far it reaches, are given by the bytes without a reader.
-/

/-- The sum of all groups. -/
def total (bytes : Bytes) : Nat :=
  Nat.ofDigits 128 (bytes.map group)

/-- Whether bit 6 of the last byte is set. -/
def isNegative (bytes : Bytes) : Bool :=
  bytes.getLast?.any (·.toNat.testBit 6)

/-- The sum of all groups, of which the sign is taken away. -/
def signedTotal (bytes : Bytes) : Int :=
  total bytes - if isNegative bytes then 128 ^ bytes.length else 0

/-- All bytes but the last say that another one follows. -/
def IsSpelling (bytes : Bytes) : Prop :=
  ∃ front last,
    bytes = front ++ [last] ∧
      (∀ byte ∈ front, isLast byte = false) ∧
      isLast last = true

variable
  {bytes front tail : Bytes}
  {last : UInt8}

theorem total_cons
    (byte : UInt8)
    (rest : Bytes) :
    total (byte :: rest) = group byte + 128 * total rest :=
  Nat.ofDigits_cons

/-- As many groups as there are have room below the next power. -/
theorem total_lt (bytes : Bytes) : total bytes < 128 ^ bytes.length := by
  have small := Nat.ofDigits_lt_base_pow_length (l := bytes.map group) (show 1 < 128 by decide)
    (by simpa using fun byte _ => group_lt byte)
  rwa [List.length_map] at small

/-- A last group counts for as much more as there are groups before it. -/
theorem total_concat
    (front : Bytes)
    (last : UInt8) :
    total (front ++ [last]) = total front + 128 ^ front.length * group last := by
  rw [total, List.map_append, Nat.ofDigits_append, List.length_map]
  simp [total]

theorem testBit_six_iff (byte : UInt8) : byte.toNat.testBit 6 = true ↔ 64 ≤ group byte := by
  rw [Nat.testBit_eq_decide_div_mod_eq, decide_eq_true_iff, group]
  omega

/-- The sign of a number is that of its last group. -/
theorem signedTotal_concat
    (front : Bytes)
    (last : UInt8) :
    signedTotal (front ++ [last]) = total front + 128 ^ front.length * signedGroup last := by
  have sign : isNegative (front ++ [last]) = true ↔ 64 ≤ group last := by
    simpa [isNegative] using testBit_six_iff last
  rw [signedTotal, total_concat, signedGroup]
  simp only [sign]
  by_cases negative : 64 ≤ group last
  · rw [if_pos negative, if_neg (by omega), List.length_append, List.length_singleton, pow_succ]
    push_cast
    ring
  · rw [if_neg negative, if_pos (by omega)]
    push_cast
    ring

/-- A group before others counts for as much less. -/
theorem signedTotal_cons
    (byte : UInt8)
    {rest : Bytes}
    (nonempty : rest ≠ []) :
    signedTotal (byte :: rest) = group byte + 128 * signedTotal rest := by
  rw [← List.dropLast_concat_getLast nonempty, ← List.cons_append, signedTotal_concat,
    signedTotal_concat, total_cons, List.length_cons, pow_succ]
  push_cast
  ring

/-! ## Spellings -/

theorem IsSpelling.ne_nil (spelling : IsSpelling bytes) : bytes ≠ [] := by
  obtain ⟨front, last, rfl, -, -⟩ := spelling
  simp

/-- A byte that says that another one follows lengthens a spelling. -/
theorem IsSpelling.cons
    {byte : UInt8}
    (spelling : IsSpelling bytes)
    (continues : isLast byte = false) :
    IsSpelling (byte :: bytes) := by
  obtain ⟨front, last, rfl, later, ends⟩ := spelling
  exact ⟨byte :: front, last, rfl, List.forall_mem_cons.mpr ⟨continues, later⟩, ends⟩

theorem isSpelling_singleton (ends : isLast last = true) : IsSpelling [last] :=
  ⟨[], last, rfl, by simp, ends⟩

/-- The bytes of an unsigned number are a spelling, and add up to it. -/
theorem unsignedSpelling_iff
    {value : Nat} :
    UnsignedSpelling bytes value ↔ IsSpelling bytes ∧ total bytes = value := by
  constructor
  · intro spelling
    induction spelling with
    | last byte ends =>
        exact ⟨isSpelling_singleton ends, by simp [total]⟩
    | more byte continues later inductionHypothesis =>
        obtain ⟨isSpelling, rfl⟩ := inductionHypothesis
        exact ⟨isSpelling.cons continues, total_cons _ _⟩
  · rintro ⟨⟨front, last, rfl, continues, ends⟩, rfl⟩
    induction front with
    | nil =>
        simpa [total] using UnsignedSpelling.last last ends
    | cons byte rest inductionHypothesis =>
        obtain ⟨first, later⟩ := List.forall_mem_cons.mp continues
        rw [List.cons_append, total_cons]
        exact .more byte first (inductionHypothesis later)

/-- The bytes of a signed number are a spelling, and add up to it with their sign. -/
theorem signedSpelling_iff
    {value : Int} :
    SignedSpelling bytes value ↔ IsSpelling bytes ∧ signedTotal bytes = value := by
  have single (byte : UInt8) : signedTotal [byte] = signedGroup byte := by
    simpa [total] using signedTotal_concat [] byte
  constructor
  · intro spelling
    induction spelling with
    | last byte ends =>
        exact ⟨isSpelling_singleton ends, single byte⟩
    | more byte continues later inductionHypothesis =>
        obtain ⟨isSpelling, rfl⟩ := inductionHypothesis
        exact ⟨isSpelling.cons continues, signedTotal_cons byte isSpelling.ne_nil⟩
  · rintro ⟨⟨front, last, rfl, continues, ends⟩, rfl⟩
    induction front with
    | nil =>
        rw [List.nil_append, single]
        exact .last last ends
    | cons byte rest inductionHypothesis =>
        obtain ⟨first, later⟩ := List.forall_mem_cons.mp continues
        rw [List.cons_append, signedTotal_cons byte (by simp)]
        exact .more byte first (inductionHypothesis later)

/-- The first byte that ends a number is the last one of the spelling at the start. -/
theorem findIdx?_eq_some_iff
    {index : Nat} :
    bytes.findIdx? isLast = some index ↔
      ∃ taken tail, bytes = taken ++ tail ∧ IsSpelling taken ∧ taken.length = index + 1 := by
  constructor
  · intro found
    obtain ⟨inside, ends, before⟩ := List.findIdx?_eq_some_iff_getElem.mp found
    refine ⟨bytes.take (index + 1), bytes.drop (index + 1),
      (List.take_append_drop _ _).symm, ?_, List.length_take_of_le inside⟩
    refine ⟨bytes.take index, bytes[index], List.take_succ_eq_append_getElem inside, ?_, ends⟩
    intro byte member
    obtain ⟨place, early, rfl⟩ := List.mem_take_iff_getElem.mp member
    simpa using before place (by omega)
  · rintro ⟨taken, tail, rfl, ⟨front, last, rfl, continues, ends⟩, size⟩
    have noneBefore : front.findIdx? isLast = none :=
      List.findIdx?_eq_none_iff.mpr continues
    have place : front.length = index := by simpa using size
    simp [List.findIdx?_append, List.findIdx?_cons, noneBefore, ends, place]

/-- A spelling ends in a byte at some index, whatever comes after it. -/
theorem IsSpelling.exists_end
    (spelling : IsSpelling bytes)
    (tail : Bytes) :
    ∃ index, (bytes ++ tail).findIdx? isLast = some index ∧ bytes.length = index + 1 := by
  obtain ⟨index, size⟩ := Nat.exists_eq_add_one.mpr (List.length_pos_iff.mpr spelling.ne_nil)
  exact ⟨index, findIdx?_eq_some_iff.mpr ⟨bytes, tail, rfl, spelling, size⟩, size⟩

end LineAtlas.Base128
