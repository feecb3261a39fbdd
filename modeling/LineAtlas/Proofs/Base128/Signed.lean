import LineAtlas.Proofs.Base128.Totals
import LineAtlas.Proofs.Failures

namespace LineAtlas.Base128

/-!
# Signed numbers and 64 bits

Every spelling of at most nine bytes is that of a number that fits into 64 bits with a
sign, and every spelling of more than ten bytes is refused. Of a tenth byte only the lowest
bit has room. The reader drops the six bits above it, whatever they are, so the number
that it reads is the one that is spelled only if these bits repeat the lowest one.
-/

/-- The number has room in 64 bits with a sign. -/
def FitsSigned (number : Int) : Prop :=
  -2 ^ 63 ≤ number ∧ number < 2 ^ 63

/-- What is read is the number that is spelled, and a number that does not fit is refused. -/
structure SignedIsExact (bytes : Bytes) : Prop where
  exact :
    ∀ value used,
      signed bytes = .ok (value, used) →
        value.toInt = signedTotal (bytes.take used)
  refused :
    ∀ index,
      bytes.findIdx? isLast = some index →
        ¬ FitsSigned (signedTotal (bytes.take (index + 1))) →
          ∃ description, signed bytes = .error (.invalidValue description)

variable
  {bytes front : Bytes}
  {last : UInt8}

/-! ## Which numbers fit -/

theorem signedGroup_bounds (byte : UInt8) : -64 ≤ signedGroup byte ∧ signedGroup byte < 64 := by
  have small := group_lt byte
  rw [signedGroup]
  split <;> omega

/-- Nine groups have room in 64 bits. -/
theorem fitsSigned_of_length_le
    (spelling : IsSpelling bytes)
    (short : bytes.length ≤ 9) :
    FitsSigned (signedTotal bytes) := by
  obtain ⟨front, last, rfl, -, -⟩ := spelling
  have before : front.length ≤ 8 := by
    rw [List.length_append, List.length_singleton] at short
    omega
  have sum : (total front : Int) < 128 ^ front.length := mod_cast total_lt front
  have room : (128 : Int) ^ front.length ≤ 128 ^ 8 :=
    mod_cast Nat.pow_le_pow_right (by decide) before
  obtain ⟨least, greatest⟩ := signedGroup_bounds last
  have low : (128 : Int) ^ front.length * -64 ≤ 128 ^ front.length * signedGroup last :=
    Int.mul_le_mul_of_nonneg_left least (by positivity)
  have high : (128 : Int) ^ front.length * signedGroup last ≤ 128 ^ front.length * 63 :=
    Int.mul_le_mul_of_nonneg_left (by omega) (by positivity)
  rw [signedTotal_concat, FitsSigned]
  constructor <;> omega

/-- A tenth group has room if all of its bits are the same. -/
theorem fitsSigned_concat_iff
    (nine : front.length = 9) :
    FitsSigned (signedTotal (front ++ [last])) ↔ signedGroup last = 0 ∨ signedGroup last = -1 := by
  have sum := total_lt front
  have sign := signedGroup_bounds last
  -- Nine groups hold 63 bits, so the tenth counts for `2 ^ 63`.
  rw [signedTotal_concat, nine, FitsSigned]
  rw [nine] at sum
  omega

/-- A byte that ends a number and has seven equal bits is one of two. -/
theorem signedGroup_eq_zero_or_neg_one_iff
    (ends : isLast last = true) :
    signedGroup last = 0 ∨ signedGroup last = -1 ↔ last = 0 ∨ last = 127 := by
  have small : last.toNat < 128 := by
    simpa [isLast, UInt8.lt_iff_toNat_lt] using ends
  rw [← UInt8.toNat_inj, ← UInt8.toNat_inj, signedGroup, group, Nat.mod_eq_of_lt small]
  split <;> simp <;> omega

/-- Reducing a number to 64 bits changes exactly those that do not fit. -/
theorem toInt_ofInt_iff
    {number : Int} :
    (Int64.ofInt number).toInt = number ↔ FitsSigned number := by
  constructor
  · intro same
    rw [← same]
    exact ⟨Int64.le_toInt _, Int64.toInt_lt _⟩
  · rintro ⟨least, greatest⟩
    exact Int64.toInt_ofInt_of_le least greatest

/-! ## What is read -/

/-- A group before group 10 is not too large, so only those after it can be. -/
theorem signedFrom_eq_tooLarge_of_lt
    {index : Nat}
    (inner : index < 10)
    (byte : UInt8)
    (rest : Bytes) :
    signedFrom index (byte :: rest) = .error .tooLarge ↔
      isLast byte = false ∧ signedFrom (index + 1) rest = .error .tooLarge := by
  rw [signedFrom, if_neg (by omega)]
  cases isLast byte with
  | true =>
      simp
  | false =>
      cases signedFrom (index + 1) rest <;> simp

/-- The groups from `index` on are too large if there is a group 10. -/
theorem signedFrom_eq_tooLarge_iff
    {index : Nat}
    (inner : index ≤ 10) :
    signedFrom index bytes = .error .tooLarge ↔
      (∀ byte ∈ bytes.take (10 - index), isLast byte = false) ∧ 10 - index < bytes.length := by
  induction bytes generalizing index with
  | nil =>
      simp [signedFrom]
  | cons byte rest inductionHypothesis =>
      rcases Nat.lt_or_eq_of_le inner with before | rfl
      · rw [signedFrom_eq_tooLarge_of_lt before, inductionHypothesis (by omega),
          show 10 - index = 10 - (index + 1) + 1 by omega]
        simp [and_assoc]
      · simp [signedFrom]

/-- A number is read, reduced to 64 bits, exactly if its spelling has at most ten bytes. -/
theorem signed_eq_ok_iff
    {value : Int64}
    {used : Nat} :
    signed bytes = .ok (value, used) ↔
      ∃ index,
        bytes.findIdx? isLast = some index ∧
          index ≤ 9 ∧
          used = index + 1 ∧
          value = Int64.ofInt (signedTotal (bytes.take used)) := by
  constructor
  · intro read
    obtain ⟨taken, tail, wide, rfl, spelling, rfl, short, rfl⟩ := signed_sound read
    obtain ⟨isSpelling, rfl⟩ := signedSpelling_iff.mp spelling
    obtain ⟨index, ends, size⟩ := isSpelling.exists_end tail
    exact ⟨index, ends, by omega, size, by rw [List.take_left]⟩
  · rintro ⟨index, ends, short, rfl, rfl⟩
    obtain ⟨taken, tail, rfl, isSpelling, size⟩ := findIdx?_eq_some_iff.mp ends
    rw [← size, List.take_left]
    exact signed_complete (signedSpelling_iff.mpr ⟨isSpelling, rfl⟩) (by omega) tail

/-- A number with a spelling of more than ten bytes is refused. -/
theorem signed_eq_invalid_of_lt
    {index : Nat}
    (ends : bytes.findIdx? isLast = some index)
    (long : 9 < index) :
    signed bytes = .error (.invalidValue "SLEB128 overflow") := by
  obtain ⟨inside, -, before⟩ := List.findIdx?_eq_some_iff_getElem.mp ends
  refine signed_eq_error_iff.mpr ⟨.tooLarge, ?_, rfl⟩
  rw [signedFrom_eq_tooLarge_iff (Nat.zero_le 10)]
  refine ⟨fun byte member => ?_, by omega⟩
  obtain ⟨place, early, rfl⟩ := List.mem_take_iff_getElem.mp member
  simpa using before place (by omega)

/--
The number at the start fits unless its spelling has ten bytes and the tenth does not
repeat its lowest bit.
-/
theorem fitsSigned_take_iff
    {index : Nat}
    (ends : bytes.findIdx? isLast = some index)
    (short : index ≤ 9) :
    FitsSigned (signedTotal (bytes.take (index + 1))) ↔
      ∀ tenth, index = 9 → bytes[9]? = some tenth → tenth = 0 ∨ tenth = 127 := by
  obtain ⟨taken, tail, rfl, isSpelling, size⟩ := findIdx?_eq_some_iff.mp ends
  rw [← size, List.take_left]
  rcases Nat.lt_or_eq_of_le short with before | rfl
  · have fits := fitsSigned_of_length_le isSpelling (by omega)
    simp [fits, Nat.ne_of_lt before]
  · obtain ⟨front, last, rfl, -, isEnd⟩ := isSpelling
    have nine : front.length = 9 := by simpa using size
    have tenth : (front ++ [last] ++ tail)[9]? = some last := by
      simp [nine]
    rw [fitsSigned_concat_iff nine, signedGroup_eq_zero_or_neg_one_iff isEnd, tenth]
    simp

/--
The signed reader is exact except for a spelling of ten bytes whose tenth is neither 0
nor 127: such a number does not fit, and is read as another one.
-/
theorem signedIsExact_iff
    (bytes : Bytes) :
    SignedIsExact bytes ↔
      ∀ tenth,
        bytes.findIdx? isLast = some 9 →
          bytes[9]? = some tenth →
            tenth = 0 ∨ tenth = 127 := by
  constructor
  · intro isExact tenth ends isTenth
    have read := signed_eq_ok_iff.mpr ⟨9, ends, Nat.le_refl 9, rfl, rfl⟩
    have fits := toInt_ofInt_iff.mp (isExact.exact _ _ read)
    exact (fitsSigned_take_iff ends (Nat.le_refl 9)).mp fits tenth rfl isTenth
  · intro repeats
    constructor
    · intro value used read
      obtain ⟨index, ends, short, rfl, rfl⟩ := signed_eq_ok_iff.mp read
      refine toInt_ofInt_iff.mpr ((fitsSigned_take_iff ends short).mpr ?_)
      rintro tenth rfl isTenth
      exact repeats tenth ends isTenth
    · intro index ends misfit
      rcases Nat.lt_or_ge 9 index with long | short
      · exact ⟨_, signed_eq_invalid_of_lt ends long⟩
      · refine absurd ((fitsSigned_take_iff ends short).mpr ?_) misfit
        rintro tenth rfl isTenth
        exact repeats tenth ends isTenth

/-- Nine groups without bits and a tenth with its second one: a spelling of `2 ^ 64`. -/
def droppedBit : Bytes :=
  List.replicate 9 128 ++ [2]

/-- The reader takes this spelling for that of 0, which it does not refuse. -/
theorem signed_droppedBit :
    signed droppedBit = .ok (0, 10) ∧
      signedTotal (droppedBit.take 10) = 2 ^ 64 ∧
      ¬ SignedIsExact droppedBit := by
  have read : signed droppedBit = .ok (0, 10) := by decide
  have spelled : signedTotal (droppedBit.take 10) = 2 ^ 64 := by decide
  refine ⟨read, spelled, fun isExact => ?_⟩
  have same := isExact.exact 0 10 read
  rw [spelled] at same
  exact absurd same (by decide)

end LineAtlas.Base128
