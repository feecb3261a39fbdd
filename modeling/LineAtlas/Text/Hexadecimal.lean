namespace LineAtlas.Hexadecimal

/-!
# Hexadecimal numbers in text

Numbers are written in lower case and without leading zeros unless a width is
asked for. Digits of either case are read back.
-/

/-- The sixteen digits in order of value. -/
def alphabet : List Char :=
  ['0', '1', '2', '3', '4', '5', '6', '7', '8', '9', 'a', 'b', 'c', 'd', 'e', 'f']

/-- The digit of a value below sixteen. -/
def digit (value : Nat) : Char :=
  alphabet.getD value '0'

/-- The value of a digit of either case. -/
def digitValue? (character : Char) : Option Nat :=
  alphabet.findIdx? (· == character.toLower)

/-- The digits of a number, most significant first; zero has one digit. -/
def digits (value : Nat) : List Char :=
  if value < 16 then
    [digit value]
  else
    digits (value / 16) ++ [digit (value % 16)]

/-- Enough zeros in front of `text` to make it `width` characters long. -/
def zeroPadded
    (width : Nat)
    (text : List Char) :
    List Char :=
  List.replicate (width - text.length) '0' ++ text

/-- A number with its `0x` mark. -/
def marked (value : Nat) : String :=
  String.ofList ('0' :: 'x' :: digits value)

/--
A number with its `0x` mark, filled with zeros to `width` characters.

The mark counts towards the width, and a longer number is never cut.
-/
def markedWide
    (width value : Nat) :
    String :=
  String.ofList ('0' :: 'x' :: zeroPadded (width - 2) (digits value))

/-- A byte as exactly two digits. -/
def byte (value : UInt8) : String :=
  String.ofList (zeroPadded 2 (digits value.toNat))

end LineAtlas.Hexadecimal
