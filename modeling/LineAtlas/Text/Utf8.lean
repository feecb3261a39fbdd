import LineAtlas.Bytes

namespace LineAtlas.Utf8

/-!
# UTF-8

Bytes are decoded by a machine that is either between two characters or inside
one. Inside a character it knows the range of the next byte and how many bytes
follow that one, so overlong forms, surrogates and values past `10FFFF` are
refused at the first byte that rules them out.

Bytes that form no character are cut into the longest pieces that could have
started one. `decodeLossy` writes one replacement character per piece;
`decode?` accepts only bytes without such pieces.
-/

/-- The character that stands for bytes that form none. -/
def replacement : Char :=
  Char.ofNat 0xFFFD

/-- A character of which bytes are still to come. -/
structure Pending where
  /-- The number that the bytes so far hold. -/
  bits : Nat
  /-- The least byte that may come next. -/
  least : UInt8
  /-- The greatest byte that may come next. -/
  greatest : UInt8
  /-- How many bytes follow the next one. -/
  later : Nat
  deriving Repr, DecidableEq

/-- What the first byte of a character says about it. -/
inductive Opening where
  /-- The byte is a character by itself. -/
  | whole (character : Char)
  /-- The byte starts a longer character. -/
  | begun (pending : Pending)
  /-- No character starts with the byte. -/
  | refused
  deriving Repr, DecidableEq

/-- The byte `10xxxxxx` in any place after the second. -/
def Pending.tail
    (bits later : Nat) :
    Pending :=
  { bits := bits, least := 0x80, greatest := 0xBF, later := later }

/-- Reads the first byte of a character. -/
def opening (byte : UInt8) : Opening :=
  if byte < 0x80 then
    .whole (Char.ofNat byte.toNat)
  else if byte < 0xC2 then
    .refused
  else if byte < 0xE0 then
    .begun (.tail (byte.toNat % 32) 0)
  else if byte = 0xE0 then
    .begun { bits := 0, least := 0xA0, greatest := 0xBF, later := 1 }
  else if byte = 0xED then
    .begun { bits := 13, least := 0x80, greatest := 0x9F, later := 1 }
  else if byte < 0xF0 then
    .begun (.tail (byte.toNat % 16) 1)
  else if byte = 0xF0 then
    .begun { bits := 0, least := 0x90, greatest := 0xBF, later := 2 }
  else if byte < 0xF4 then
    .begun (.tail (byte.toNat % 8) 2)
  else if byte = 0xF4 then
    .begun { bits := 4, least := 0x80, greatest := 0x8F, later := 2 }
  else
    .refused

/-- The number of a pending character after one more byte. -/
def Pending.extended
    (pending : Pending)
    (byte : UInt8) :
    Nat :=
  pending.bits * 64 + byte.toNat % 64

/--
The characters of `bytes` in order, and `none` for each piece that forms no
character.

A byte that cannot continue the pending character ends its piece and is read
again as a first byte.
-/
def pieces
    (pending : Option Pending)
    (bytes : Bytes) :
    List (Option Char) :=
  match bytes, pending with
  | [], none => []
  | [], some _ => [none]
  | byte :: rest, none =>
      match opening byte with
      | .whole character => some character :: pieces none rest
      | .begun begun => pieces (some begun) rest
      | .refused => none :: pieces none rest
  | byte :: rest, some pending =>
      if pending.least ≤ byte ∧ byte ≤ pending.greatest then
        match pending.later with
        | 0 => some (Char.ofNat (pending.extended byte)) :: pieces none rest
        | later + 1 => pieces (some (.tail (pending.extended byte) later)) rest
      else
        match opening byte with
        | .whole character => none :: some character :: pieces none rest
        | .begun begun => none :: pieces (some begun) rest
        | .refused => none :: none :: pieces none rest

/-- The text of `bytes`, with a replacement character for each bad piece. -/
def decodeLossy (bytes : Bytes) : String :=
  String.ofList ((pieces none bytes).map (·.getD replacement))

/-- The text of `bytes` if all of them form characters. -/
def decode? (bytes : Bytes) : Option String :=
  ((pieces none bytes).mapM id).map String.ofList

end LineAtlas.Utf8
