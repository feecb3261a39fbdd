import LineAtlas.Reader
import LineAtlas.Warning

namespace LineAtlas

/-!
# Frames of a line section

A line section is a row of frames: a 32-bit length, then as many bytes. The
frames are cut without a look at what is in them, so whatever one holds, the
next one starts where its length says. The last frame may claim more bytes than
there are; it then holds those that are there.
-/

/-- The name of the section that holds line-number programs. -/
def lineSectionName : String :=
  ".debug_line"

/-- One unit of a section, as its length cuts it out. -/
structure Frame where
  /-- The offset of the length field in the section. -/
  offset : Nat
  /-- The length that the frame claims. -/
  claimed : UInt32
  /-- The bytes after the length field. -/
  body : Bytes
  deriving Repr, DecidableEq

/-- Whether a frame holds fewer bytes than it claims. -/
def Frame.isCut (frame : Frame) : Bool :=
  frame.body.length < frame.claimed.toNat

/-- The frames of a section, and what stopped them before its end, if anything did. -/
structure Framing where
  frames : List Frame
  stopped : Option Warning
  deriving Repr, DecidableEq

namespace Framing

/-- The length that marks a unit with 64-bit lengths. -/
def wideMark : UInt32 :=
  0xFFFFFFFF

/-- The frame whose length field at `offset` has been read. -/
def frameAt
    (offset : Nat)
    (claimed : UInt32)
    (body : Cursor) :
    Frame where
  offset := offset
  claimed := claimed
  body := body.rest.take claimed.toNat

/-- Moving on leaves no more bytes. -/
theorem remaining_advance_le
    (cursor : Cursor)
    (count : Nat) :
    (cursor.advance count).remaining ≤ cursor.remaining := by
  simp only [Cursor.remaining, Cursor.size, Cursor.advance]
  omega

/-- Cuts the bytes from the cursor on into frames. -/
def ofCursor (cursor : Cursor) : Framing :=
  if cursor.atEnd then
    { frames := [], stopped := none }
  else
    match _outcome : Reader.uint32 cursor with
    | .error cause _ =>
        { frames := []
          stopped :=
            some (.ofError lineSectionName cursor.position .truncatedSection cause) }
    | .ok claimed body =>
        if claimed = wideMark then
          { frames := []
            stopped := some {
              sectionName := lineSectionName
              offset := cursor.position
              kind := .malformedHeader
              cause := .wideUnit
            } }
        else
          let frame := frameAt cursor.position claimed body
          let later := ofCursor (body.advance frame.body.length)
          { later with frames := frame :: later.frames }
termination_by cursor.remaining
decreasing_by
  exact Nat.lt_of_le_of_lt
    (remaining_advance_le _ _)
    (Reader.consuming_uint32.remaining_lt _outcome)

/-- Cuts a whole section into frames. -/
def ofBytes
    (order : ByteOrder)
    (data : Bytes) :
    Framing :=
  ofCursor (.ofBytes order data)

end Framing

end LineAtlas
