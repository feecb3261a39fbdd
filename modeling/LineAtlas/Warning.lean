import LineAtlas.ReadError

namespace LineAtlas

/-!
# Warnings

A unit that cannot be decoded never stops the rest: it leaves a warning that
names its section and its offset there. A warning holds its cause as data;
`Warning.message` and `Warning.text` hold the wording.
-/

/-- What kind of trouble a unit is in. -/
inductive WarningKind where
  | malformedHeader
  | malformedProgram
  | unsupportedAddressSize
  | truncatedSection
  deriving Repr, DecidableEq

/-- The name of a kind. -/
def WarningKind.name : WarningKind → String
  | malformedHeader => "malformed header"
  | malformedProgram => "malformed program"
  | unsupportedAddressSize => "unsupported address size"
  | truncatedSection => "truncated section"

/-- Why a unit is not decoded, or not completely. -/
inductive WarningCause where
  /-- Reading failed. -/
  | failure (error : ReadError)
  /-- The length field announces a unit with 64-bit lengths. -/
  | wideUnit
  /-- The ranges of a set have addresses of a size that is not read. -/
  | undecodedAddressSize (size : UInt8)
  deriving Repr, DecidableEq

/-- A record of one unit's trouble. -/
structure Warning where
  sectionName : String
  /-- The offset of the unit in its section. -/
  offset : Nat
  kind : WarningKind
  cause : WarningCause
  deriving Repr, DecidableEq

namespace Warning

/-- The kind for a failed read: running out of bytes has its own, whatever `otherwise` is. -/
def kindOfError
    (otherwise : WarningKind)
    (error : ReadError) :
    WarningKind :=
  if error.isTruncation then
    .truncatedSection
  else
    otherwise

/-- The warning for a failed read. -/
def ofError
    (sectionName : String)
    (offset : Nat)
    (otherwise : WarningKind)
    (error : ReadError) :
    Warning where
  sectionName := sectionName
  offset := offset
  kind := kindOfError otherwise error
  cause := .failure error

/-- What happened. -/
def message (warning : Warning) : String :=
  match warning.cause with
  | .failure error => error.message
  | .wideUnit => "64-bit DWARF units are not supported"
  | .undecodedAddressSize size =>
      "address size " ++ toString size.toNat ++ " not decoded"

/-- The whole warning as one line. -/
def text (warning : Warning) : String :=
  warning.sectionName ++ " unit at " ++ Hexadecimal.marked warning.offset
    ++ ": " ++ warning.kind.name ++ ": " ++ warning.message

end Warning

end LineAtlas
