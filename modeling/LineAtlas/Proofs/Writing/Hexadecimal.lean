import LineAtlas.Text.Hexadecimal
import Mathlib.Data.Nat.Digits.Defs
import Mathlib.Tactic.Ring

namespace LineAtlas.Hexadecimal

/-!
# Hexadecimal numerals

A numeral is one digit or more, of either case and with any number of zeros in front.
`total` gives the number that its digits stand for, without a bound and without a reader:
each digit has a worth of its own, and counts sixteen times as much with every place.
Written numbers are numerals of themselves, also when they have been filled with zeros.
-/

/-- A decimal digit, or one of the first six letters in either case. -/
def IsDigit (character : Char) : Prop :=
  ('0' ≤ character ∧ character ≤ '9') ∨
    ('a' ≤ character ∧ character ≤ 'f') ∨
    ('A' ≤ character ∧ character ≤ 'F')

instance : DecidablePred IsDigit := fun _ =>
  inferInstanceAs (Decidable (_ ∨ _ ∨ _))

/-- The value of a digit, from how far behind the first of its kind it stands. -/
def worth (character : Char) : Nat :=
  if character ≤ '9' then
    character.toNat - '0'.toNat
  else if character ≤ 'F' then
    10 + (character.toNat - 'A'.toNat)
  else
    10 + (character.toNat - 'a'.toNat)

/-- The number that digits stand for, most significant first. -/
def total (digits : List Char) : Nat :=
  Nat.ofDigits 16 (digits.reverse.map worth)

/-- The digits of a number, of either case and with any number of leading zeros. -/
structure Numeral where
  digits : List Char
  digits_ne_nil : digits ≠ []
  areDigits : ∀ character ∈ digits, IsDigit character

/-- The number that a numeral stands for. -/
def Numeral.value (numeral : Numeral) : Nat :=
  total numeral.digits

/-! ## Reading one digit -/

/-- All digits are ASCII characters. -/
theorem IsDigit.toNat_lt
    {character : Char}
    (isDigit : IsDigit character) :
    character.toNat < 128 := by
  rcases isDigit with ⟨-, below⟩ | ⟨-, below⟩ | ⟨-, below⟩
  all_goals
    have bound := UInt32.le_iff_toNat_le.mp (Char.le_def.mp below)
    exact Nat.lt_of_le_of_lt bound (by decide)

/-- Only ASCII characters change their case. -/
theorem toLower_of_le_toNat
    {character : Char}
    (beyond : 128 ≤ character.toNat) :
    character.toLower = character := by
  have notUpper : ¬ character.val ≤ 'Z'.val := by
    rw [UInt32.le_iff_toNat_le]
    exact Nat.not_le.mpr (Nat.lt_of_lt_of_le (by decide) beyond)
  exact dif_neg fun isUpper => notUpper isUpper.2

/-- A character is read exactly if it is a digit, and then to its worth. -/
theorem digitValue?_eq (character : Char) :
    digitValue? character = if IsDigit character then some (worth character) else none := by
  -- Both sides can be looked up for ASCII; no other character changes into a digit.
  by_cases ascii : character.toNat < 128
  · have table :
        ∀ code < 128,
          digitValue? (.ofNat code) =
            if IsDigit (.ofNat code) then some (worth (.ofNat code)) else none := by
      decide +kernel
    simpa only [Char.ofNat_toNat] using table character.toNat ascii
  · have asciiAlphabet : ∀ known ∈ alphabet, known.toNat < 128 := by
      simp [alphabet]
    rw [if_neg fun isDigit => ascii isDigit.toNat_lt, digitValue?,
      toLower_of_le_toNat (Nat.not_lt.mp ascii), List.findIdx?_eq_none_iff]
    intro known member
    rw [beq_eq_false_iff_ne]
    rintro rfl
    exact ascii (asciiAlphabet known member)

/-! ## What digits stand for -/

@[simp]
theorem total_nil : total [] = 0 :=
  rfl

/-- Digits behind others move those as many places up. -/
theorem total_append (front back : List Char) :
    total (front ++ back) = 16 ^ back.length * total front + total back := by
  simp [total, Nat.ofDigits_append, Nat.add_comm]

/-- A digit in front of others counts for its place. -/
theorem total_cons
    (first : Char)
    (rest : List Char) :
    total (first :: rest) = 16 ^ rest.length * worth first + total rest := by
  rw [← List.singleton_append, total_append]
  simp [total]

/-- A digit behind others counts for itself. -/
theorem total_concat
    (front : List Char)
    (last : Char) :
    total (front ++ [last]) = 16 * total front + worth last := by
  rw [total_append]
  simp [total]

/-- Zeros in front count for nothing. -/
theorem total_zeros_append
    (count : Nat)
    (digits : List Char) :
    total (List.replicate count '0' ++ digits) = total digits := by
  induction count with
  | zero =>
      rfl
  | succ count inductionHypothesis =>
      rw [List.replicate_succ, List.cons_append, total_cons, inductionHypothesis]
      simp [worth]

/-! ## Written numbers -/

/-- The digit of each value is a digit, of that worth. -/
theorem isDigit_digit
    {value : Nat}
    (small : value < 16) :
    IsDigit (digit value) ∧ worth (digit value) = value := by
  have table : ∀ value < 16, IsDigit (digit value) ∧ worth (digit value) = value := by
    decide
  exact table value small

theorem digit_mod_sixteen (value : Nat) :
    IsDigit (digit (value % 16)) ∧ worth (digit (value % 16)) = value % 16 :=
  isDigit_digit (Nat.mod_lt value (by decide))

theorem digits_ne_nil (value : Nat) : digits value ≠ [] := by
  rw [digits]
  split <;> simp

theorem isDigit_of_mem_digits (value : Nat) :
    ∀ character ∈ digits value, IsDigit character := by
  induction value using digits.induct with
  | case1 value small =>
      rw [digits, if_pos small]
      simpa using (isDigit_digit small).1
  | case2 value large inductionHypothesis =>
      rw [digits, if_neg large]
      intro character member
      rcases List.mem_append.mp member with high | low
      · exact inductionHypothesis character high
      · rw [List.mem_singleton.mp low]
        exact (digit_mod_sixteen value).1

/-- The digits that are written for a number stand for it. -/
theorem total_digits (value : Nat) : total (digits value) = value := by
  induction value using digits.induct with
  | case1 value small =>
      rw [digits, if_pos small]
      simpa [total] using (isDigit_digit small).2
  | case2 value large inductionHypothesis =>
      rw [digits, if_neg large, total_concat, inductionHypothesis, (digit_mod_sixteen value).2]
      exact Nat.div_add_mod value 16

/-- Numbers are written in lower case and without leading zeros. -/
theorem digits_eq_toDigits (value : Nat) : digits value = Nat.toDigits 16 value := by
  have sameDigit : ∀ value < 16, digit value = value.digitChar := by
    decide
  induction value using digits.induct with
  | case1 value small =>
      rw [digits, if_pos small, Nat.toDigits_of_lt_base small, sameDigit value small]
  | case2 value large inductionHypothesis =>
      rw [digits, if_neg large, inductionHypothesis,
        sameDigit _ (Nat.mod_lt value (by decide)),
        Nat.toDigits_of_base_le (by decide) (Nat.not_lt.mp large)]

/-- The digits of a number, filled with zeros to a width. -/
def writtenNumeral (width value : Nat) : Numeral where
  digits := zeroPadded width (digits value)
  digits_ne_nil := List.append_ne_nil_of_right_ne_nil _ (digits_ne_nil value)
  areDigits := by
    intro character member
    rcases List.mem_append.mp member with zero | digit
    · rw [List.eq_of_mem_replicate zero]
      decide
    · exact isDigit_of_mem_digits value character digit

theorem value_writtenNumeral (width value : Nat) :
    (writtenNumeral width value).value = value :=
  (total_zeros_append _ _).trans (total_digits value)

/-- A number that is not filled with zeros is one of no width. -/
theorem marked_eq_markedWide (value : Nat) : marked value = markedWide 0 value := by
  simp [marked, markedWide, zeroPadded]

end LineAtlas.Hexadecimal
