import LineAtlas.Bytes
import LineAtlas.Text.Hexadecimal

namespace LineAtlas

/-!
# Why reading fails

Every failure of a reader is one of the causes below, with the numbers and
names that its wording needs. `ReadError.message` is the only place that holds
the wording.
-/

/-- A cause for which bytes could not be read. -/
inductive ReadError where
  /-- The file starts with other bytes than its format asks for. -/
  | wrongMagic (expected : String) (found : Bytes)
  /-- The file is shorter than a structure in it needs. -/
  | fileTooShort (expected actual : Nat)
  /-- A read would pass the end of its data. -/
  | truncated (expected actual : Nat) (subject : String)
  /-- A value that is complete but not allowed. -/
  | invalidValue (description : String)
  /-- A version that the format's reader does not know. -/
  | unsupportedVersion (format : String) (version : UInt32)
  /-- A structure that contradicts itself. -/
  | invalidStructure (kind : String) (offset : Nat) (reason : String)
  /-- A position that does not fit into 64 bits. -/
  | overflow (subject : String)
  deriving Repr, DecidableEq

namespace ReadError

/-- The wording of a cause. -/
def message : ReadError → String
  | wrongMagic expected found =>
      "invalid magic number: expected " ++ expected ++ ", got ["
        ++ String.intercalate ", " (found.map Hexadecimal.byte) ++ "]"
  | fileTooShort expected actual =>
      "file too short: expected at least " ++ toString expected
        ++ " bytes, got " ++ toString actual
  | truncated expected actual subject =>
      "truncated data: expected " ++ toString expected ++ " bytes, got "
        ++ toString actual ++ " while parsing " ++ subject
  | invalidValue description =>
      "invalid value: " ++ description
  | unsupportedVersion format version =>
      "unsupported " ++ format ++ " version: " ++ toString version.toNat
  | invalidStructure kind offset reason =>
      "invalid " ++ kind ++ " at offset " ++ Hexadecimal.marked offset ++ ": " ++ reason
  | overflow subject =>
      "integer overflow while parsing " ++ subject

/-- A cause that more bytes at the end could remove. -/
def isTruncation : ReadError → Bool
  | truncated _ _ _ => true
  | fileTooShort _ _ => true
  | _ => false

end ReadError

end LineAtlas
