import LineAtlas.Cursor

namespace LineAtlas

/-!
# Addresses on the command line

An address is written in hexadecimal digits of either case. One mark `0x` or
`0X` may stand in front of it, and after that one plus sign. Its value has to
fit into 64 bits, however many digits it has.
-/

/-- Why a text is no address. -/
inductive AddressFault where
  | empty
  | invalidDigit
  | tooLarge
  deriving Repr, DecidableEq

/-- The wording of a fault. -/
def AddressFault.message : AddressFault → String
  | empty => "cannot parse integer from empty string"
  | invalidDigit => "invalid digit found in string"
  | tooLarge => "number too large to fit in target type"

namespace AddressText

/-- Takes one mark off. -/
def withoutMark : List Char → List Char
  | '0' :: 'x' :: rest => rest
  | '0' :: 'X' :: rest => rest
  | text => text

/-- Adds one digit to the number in front of it. -/
def appendDigit
    (value : Nat)
    (character : Char) :
    Except AddressFault Nat :=
  match Hexadecimal.digitValue? character with
  | none => .error .invalidDigit
  | some digit =>
      if 16 * value + digit < addressLimit then
        .ok (16 * value + digit)
      else
        .error .tooLarge

/-- The number that digits write; the first fault from the left is reported. -/
def digitsValue (digits : List Char) : Except AddressFault Nat :=
  digits.foldlM appendDigit 0

/-- The number after the mark, with or without a plus sign. -/
def unmarkedValue : List Char → Except AddressFault Nat
  | [] => .error .empty
  | ['+'] => .error .invalidDigit
  | '+' :: digits => digitsValue digits
  | digits => digitsValue digits

/-- Reads an address. -/
def parse (text : String) : Except AddressFault UInt64 :=
  (unmarkedValue (withoutMark text.toList)).map UInt64.ofNat

/-- Writes an address. -/
def render (address : UInt64) : String :=
  Hexadecimal.marked address.toNat

end AddressText

end LineAtlas
