import LineAtlas.CommandLine.Report
import LineAtlas.Proofs.ObjectFile.Fields
import LineAtlas.Proofs.Writing.Hexadecimal

namespace LineAtlas.AddressText

/-!
# Spelling addresses

An address is spelled with at most one mark, then at most one plus sign, then a numeral.
No digit is a sign or the letter of a mark, so the reader never takes a part of the numeral
for one. It accepts exactly the spellings of numbers below `2 ^ 64`, however many zeros
stand in front of them. The text that is printed for an address is such a spelling of it.
-/

open Hexadecimal

/-- What may stand in front of the number. -/
inductive Mark where
  | absent
  | lower
  | upper
  deriving Repr, DecidableEq

/-- The characters of a mark. -/
def Mark.characters : Mark → List Char
  | absent => []
  | lower => ['0', 'x']
  | upper => ['0', 'X']

/-- The characters of a plus sign that may be there. -/
def signCharacters (isSigned : Bool) : List Char :=
  if isSigned then ['+'] else []

/-- A way to write a number: at most one mark, then at most one plus sign, then digits. -/
structure Spelling where
  mark : Mark
  isSigned : Bool
  numeral : Numeral

/-- The text of a spelling. -/
def Spelling.text (spelling : Spelling) : String :=
  String.ofList
    (spelling.mark.characters ++ (signCharacters spelling.isSigned ++ spelling.numeral.digits))

/-- The number that a spelling stands for. -/
def Spelling.value (spelling : Spelling) : Nat :=
  spelling.numeral.value

/-- What the reader of addresses has to answer for a text. -/
structure ReadsSpelled (text : String) : Prop where
  read_iff :
    (∃ address, parse text = .ok address) ↔
      ∃ spelling : Spelling, spelling.text = text ∧ spelling.value < 2 ^ 64
  /-- The address is the number that is spelled. -/
  read :
    ∀ spelling : Spelling,
      spelling.text = text →
        spelling.value < 2 ^ 64 →
          ∃ address, parse text = .ok address ∧ address.toNat = spelling.value
  /-- Nothing is wrong with a larger number but its size. -/
  tooLarge :
    ∀ spelling : Spelling,
      spelling.text = text → 2 ^ 64 ≤ spelling.value → parse text = .error .tooLarge

/-- How an address is printed, and that it can be read back. -/
structure IsReadBack (address : UInt64) : Prop where
  /-- Printed addresses are in lower case, with a mark and without leading zeros. -/
  printed : render address = "0x" ++ String.ofList (Nat.toDigits 16 address.toNat)
  read : parse (render address) = .ok address

/-! ## Reading digits -/

section

variable
  {start value : Nat}
  {digits : List Char}

/-- One digit more makes the number too large, or it is added. -/
theorem appendDigit_of_isDigit
    {character : Char}
    (isDigit : IsDigit character) :
    appendDigit start character =
      if 16 * start + worth character < addressLimit then
        .ok (16 * start + worth character)
      else
        .error .tooLarge := by
  rw [appendDigit, digitValue?_eq, if_pos isDigit]

theorem isDigit_of_appendDigit
    {character : Char}
    (read : appendDigit start character = .ok value) :
    IsDigit character := by
  by_contra noDigit
  rw [appendDigit, digitValue?_eq, if_neg noDigit] at read
  cases read

/--
Digits behind a number that fits are read to what all of them stand for, if that fits.

No digit takes anything away, so a number that is too large early stays too large.
-/
theorem foldlM_appendDigit
    (areDigits : ∀ character ∈ digits, IsDigit character)
    (small : start < addressLimit) :
    digits.foldlM appendDigit start =
      if 16 ^ digits.length * start + total digits < addressLimit then
        .ok (16 ^ digits.length * start + total digits)
      else
        .error .tooLarge := by
  induction digits generalizing start with
  | nil =>
      simp only [List.length_nil, pow_zero, one_mul, total_nil, Nat.add_zero, if_pos small]
      rfl
  | cons first rest inductionHypothesis =>
      obtain ⟨isDigit, restDigits⟩ := List.forall_mem_cons.mp areDigits
      have regroup :
          16 ^ (first :: rest).length * start + total (first :: rest) =
            16 ^ rest.length * (16 * start + worth first) + total rest := by
        rw [total_cons, List.length_cons]
        ring
      rw [regroup, List.foldlM_cons, appendDigit_of_isDigit isDigit]
      -- The reader stops at the digit that is one too many; what follows would only add to it.
      by_cases fits : 16 * start + worth first < addressLimit
      · rw [if_pos fits]
        exact inductionHypothesis restDigits fits
      · have grows :
            16 * start + worth first ≤
              16 ^ rest.length * (16 * start + worth first) + total rest :=
          Nat.le_add_right_of_le (Nat.le_mul_of_pos_left _ (by positivity))
        rw [if_neg fits, if_neg (by omega)]
        rfl

/-- Only digits are read. -/
theorem areDigits_of_foldlM
    (read : digits.foldlM appendDigit start = .ok value) :
    ∀ character ∈ digits, IsDigit character := by
  induction digits generalizing start with
  | nil =>
      simp
  | cons first rest inductionHypothesis =>
      rw [List.foldlM_cons] at read
      cases appended : appendDigit start first with
      | error fault =>
          rw [appended] at read
          cases read
      | ok next =>
          rw [appended] at read
          exact List.forall_mem_cons.mpr
            ⟨isDigit_of_appendDigit appended, inductionHypothesis read⟩

theorem digitsValue_of_areDigits
    (areDigits : ∀ character ∈ digits, IsDigit character) :
    digitsValue digits =
      if total digits < addressLimit then .ok (total digits) else .error .tooLarge := by
  simpa only [digitsValue, Nat.mul_zero, Nat.zero_add] using
    foldlM_appendDigit areDigits (show 0 < addressLimit by decide)

end

/-! ## Taking off the mark and the sign -/

variable
  {text : String}
  {characters digits : List Char}

/-- The letter of a mark is not taken for one where it is no part of what follows. -/
theorem withoutMark_append
    (mark : Mark)
    (noLower : 'x' ∉ characters)
    (noUpper : 'X' ∉ characters) :
    withoutMark (mark.characters ++ characters) = characters := by
  cases mark with
  | absent =>
      rw [Mark.characters, List.nil_append]
      unfold withoutMark
      split
      · simp at noLower
      · simp at noUpper
      · rfl
  | lower =>
      rfl
  | upper =>
      rfl

theorem exists_mark (characters : List Char) :
    ∃ mark : Mark, characters = mark.characters ++ withoutMark characters := by
  unfold withoutMark
  split
  · exact ⟨.lower, rfl⟩
  · exact ⟨.upper, rfl⟩
  · exact ⟨.absent, rfl⟩

theorem unmarkedValue_append
    (isSigned : Bool)
    (nonempty : digits ≠ [])
    (noSign : '+' ∉ digits) :
    unmarkedValue (signCharacters isSigned ++ digits) = digitsValue digits := by
  obtain ⟨first, rest, rfl⟩ := List.exists_cons_of_ne_nil nonempty
  cases isSigned with
  | true =>
      rfl
  | false =>
      rw [signCharacters, if_neg Bool.false_ne_true, List.nil_append]
      unfold unmarkedValue
      split
      · contradiction
      · next alone =>
          cases alone
          simp at noSign
      · next signed =>
          cases signed
          simp at noSign
      · rfl

theorem exists_sign
    {value : Nat}
    (read : unmarkedValue characters = .ok value) :
    ∃ isSigned digits,
      characters = signCharacters isSigned ++ digits ∧
        digits ≠ [] ∧
        digitsValue digits = .ok value := by
  unfold unmarkedValue at read
  split at read
  · cases read
  · cases read
  · next digits notAlone =>
      exact ⟨true, digits, rfl, by rintro rfl; exact notAlone rfl, read⟩
  · next nonempty _ _ =>
      exact ⟨false, characters, rfl, nonempty, read⟩

/-! ## Reading spellings -/

/-- The reader looks at the numeral of a spelling only. -/
theorem parse_text (spelling : Spelling) :
    parse spelling.text =
      if spelling.value < addressLimit then
        .ok (.ofNat spelling.value)
      else
        .error .tooLarge := by
  obtain ⟨mark, isSigned, digits, nonempty, areDigits⟩ := spelling
  have without (character : Char) (noDigit : ¬ IsDigit character) : character ∉ digits :=
    fun member => noDigit (areDigits character member)
  have noLower : 'x' ∉ signCharacters isSigned ++ digits := by
    cases isSigned <;> simpa [signCharacters] using without 'x' (by decide)
  have noUpper : 'X' ∉ signCharacters isSigned ++ digits := by
    cases isSigned <;> simpa [signCharacters] using without 'X' (by decide)
  rw [parse, Spelling.text, String.toList_ofList, withoutMark_append mark noLower noUpper,
    unmarkedValue_append isSigned nonempty (without '+' (by decide)),
    digitsValue_of_areDigits areDigits, apply_ite (Except.map UInt64.ofNat)]
  rfl

/-- What is read has a spelling. -/
theorem exists_spelling_of_parse
    {address : UInt64}
    (read : parse text = .ok address) :
    ∃ spelling : Spelling, spelling.text = text := by
  rw [parse] at read
  cases unmarked : unmarkedValue (withoutMark text.toList) with
  | error fault =>
      rw [unmarked] at read
      cases read
  | ok value =>
      obtain ⟨mark, marked⟩ := exists_mark text.toList
      obtain ⟨isSigned, digits, signed, nonempty, digitsRead⟩ := exists_sign unmarked
      refine ⟨⟨mark, isSigned, digits, nonempty, areDigits_of_foldlM digitsRead⟩, ?_⟩
      rw [Spelling.text, ← signed, ← marked, String.ofList_toList]

theorem readsSpelled (text : String) : ReadsSpelled text := by
  have readSmall (spelling : Spelling) (small : spelling.value < 2 ^ 64) :
      parse spelling.text = .ok (.ofNat spelling.value) := by
    rw [parse_text]
    exact if_pos small
  have refuseLarge (spelling : Spelling) (large : 2 ^ 64 ≤ spelling.value) :
      parse spelling.text = .error .tooLarge := by
    rw [parse_text]
    exact if_neg (Nat.not_lt.mpr large)
  constructor
  · constructor
    · rintro ⟨address, read⟩
      obtain ⟨spelling, rfl⟩ := exists_spelling_of_parse read
      refine ⟨spelling, rfl, ?_⟩
      by_contra large
      rw [refuseLarge spelling (Nat.not_lt.mp large)] at read
      cases read
    · rintro ⟨spelling, rfl, small⟩
      exact ⟨_, readSmall spelling small⟩
  · rintro spelling rfl small
    exact ⟨_, readSmall spelling small, UInt64.toNat_ofNat_of_lt' small⟩
  · rintro spelling rfl large
    exact refuseLarge spelling large

/-- One sign may follow the mark, and no mark may follow anything. -/
example :
    parse "0X+1f" = .ok 31 ∧
      parse "+0x1f" = .error .invalidDigit ∧
      parse "0x0x1f" = .error .invalidDigit := by
  decide

/-! ## Reading printed addresses -/

/-- The spelling of an address that is printed in a width. -/
def printedSpelling
    (width : Nat)
    (address : UInt64) :
    Spelling where
  mark := .lower
  isSigned := false
  numeral := writtenNumeral (width - 2) address.toNat

theorem text_printedSpelling
    (width : Nat)
    (address : UInt64) :
    (printedSpelling width address).text = markedWide width address.toNat :=
  rfl

theorem render_eq_text (address : UInt64) : render address = (printedSpelling 0 address).text := by
  rw [render, marked_eq_markedWide, text_printedSpelling]

/-- An address is read back from any width that it was printed in. -/
theorem parse_printedSpelling
    (width : Nat)
    (address : UInt64) :
    parse (printedSpelling width address).text = .ok address := by
  have value : (printedSpelling width address).value = address.toNat :=
    value_writtenNumeral (width - 2) address.toNat
  rw [parse_text, value]
  exact (if_pos address.toNat_lt).trans (by rw [UInt64.ofNat_toNat])

theorem isReadBack (address : UInt64) : IsReadBack address where
  printed := by
    rw [render, marked, digits_eq_toDigits, ← String.toList_inj]
    simp
  read := by
    rw [render_eq_text]
    exact parse_printedSpelling 0 address

/--
Every text is read as it is spelled, and every address that is listed can be read back.
-/
theorem readsSpelled_and_readsListed :
    (∀ text, ReadsSpelled text) ∧
      (∀ address, IsReadBack address) ∧
      ∀ (file : ObjectFile) (atlas : Atlas),
        (Report.ofCommand file atlas .addresses).mapM parse =
          .ok atlas.known.store.rowAddresses := by
  refine ⟨readsSpelled, isReadBack, fun file atlas => ?_⟩
  have readBack :
      atlas.known.store.rowAddresses.mapM (parse ∘ render) =
        .ok (atlas.known.store.rowAddresses.map id) :=
    mapM_eq_ok fun address _ => (isReadBack address).read
  rw [Report.ofCommand, List.mapM_map]
  simpa using readBack

end LineAtlas.AddressText
