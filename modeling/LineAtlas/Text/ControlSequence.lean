namespace LineAtlas.ControlSequence

/-!
# Control sequences in text

An escape character starts a sequence that tells a terminal what to do. Its
second character says of which kind it is and so where it ends. Text that is
meant to be read shows neither such sequences nor control characters, apart from
those that only leave a gap.

A gap inside a sequence that is no string gives the sequence up, and what
follows is text again.
-/

/-- Where a text stands with respect to control sequences. -/
inductive Position where
  /-- Outside of any sequence. -/
  | text
  /-- After the escape character. -/
  | escape
  /-- After the escape character and marks that another character has to follow. -/
  | marks
  /-- In a sequence that ends with its first letter. -/
  | control
  /-- At the start of a string for a device. -/
  | device
  /-- Among the numbers that stand in front of such a string. -/
  | deviceNumbers
  /-- Among the marks that stand in front of such a string. -/
  | deviceMarks
  /-- In a string that the byte `9C` ends. -/
  | string
  /-- In a command that a bell ends. -/
  | command
  deriving Repr, DecidableEq

/-- The character that starts a sequence. -/
def escape : Char :=
  Char.ofNat 0x1B

/-- The character that ends a command. -/
def bell : Char :=
  Char.ofNat 0x07

/-- The byte that ends a string. -/
def stringEnd : UInt8 :=
  0x9C

/-- Whether a character ends any sequence without being part of one. -/
def isCancel (character : Char) : Bool :=
  character.toNat = 0x18 ∨ character.toNat = 0x1A

/-- Whether a control character only leaves a gap: tab, line feed, form feed and return. -/
def isGap (character : Char) : Bool :=
  character.toNat ∈ [0x09, 0x0A, 0x0C, 0x0D]

/-- Whether a character is a mark inside a sequence. -/
def isMark (character : Char) : Bool :=
  ' ' ≤ character ∧ character ≤ '/'

/-- Whether a character is part of the numbers of a sequence. -/
def isNumeral (character : Char) : Bool :=
  '0' ≤ character ∧ character ≤ '?'

/-- Whether a character is a letter that may end a sequence. -/
def isLetter (character : Char) : Bool :=
  '@' ≤ character ∧ character ≤ '~'

/-- Whether a character shows outside of any sequence. -/
def isVisible (character : Char) : Bool :=
  (' ' ≤ character ∧ character.toNat ≠ 0x7F) ∨ isGap character

/-- Whether a character shows where it stands. -/
def Position.shows
    (position : Position)
    (character : Char) :
    Bool :=
  match position with
  | .text => isVisible character
  | .escape | .marks | .control => isGap character
  | _ => false

/-- The position after the escape character and a second one that is no mark. -/
def opened : Char → Position
  | '[' => .control
  | ']' => .command
  | 'P' => .device
  | 'X' => .string
  | '^' => .string
  | '_' => .string
  | _ => .text

/-- The position after a character that does not show. -/
def Position.next
    (position : Position)
    (character : Char) :
    Position :=
  if isCancel character then
    .text
  else if character = ControlSequence.escape then
    .escape
  else
    match position with
    | .text => .text
    | .escape =>
        if isMark character then .marks
        else if isNumeral character ∨ isLetter character then opened character
        else .escape
    | .marks =>
        if isNumeral character ∨ isLetter character then .text else .marks
    | .control =>
        if isLetter character then .text else .control
    | .device =>
        if isMark character then .deviceMarks
        else if isNumeral character then .deviceNumbers
        else if isLetter character then .string
        else .device
    | .deviceNumbers =>
        if isMark character then .deviceMarks
        else if isLetter character ∨ ('<' ≤ character ∧ character ≤ '?') then .string
        else .deviceNumbers
    | .deviceMarks =>
        if isNumeral character ∨ isLetter character then .string else .deviceMarks
    | .string =>
        if stringEnd ∈ String.utf8EncodeChar character then .text else .string
    | .command =>
        if character = bell then .text else .command

/-- The characters of a text that show, where the text starts at `position`. -/
def shown (position : Position) : List Char → List Char
  | [] => []
  | character :: rest =>
      if position.shows character then
        character :: shown .text rest
      else
        shown (position.next character) rest

/-- A text without control sequences and without control characters that leave no gap. -/
def strip (text : String) : String :=
  String.ofList (shown .text text.toList)

end LineAtlas.ControlSequence
