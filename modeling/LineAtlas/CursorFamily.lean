import LineAtlas.Reader

namespace LineAtlas

/-!
# Families of cursors

A family starts with one cursor and grows: a cursor can be copied, and a run of
bytes can be split off as a cursor of its own. A request names one cursor of
the family and moves no other.
-/

/-- What a cursor can be asked to do. -/
inductive CursorRequest where
  | uint8
  | uint16
  | uint32
  | uint64
  | unsigned
  | signed
  | uint8At (offset : Nat)
  | uint16At (offset : Nat)
  | uint32At (offset : Nat)
  | uint64At (offset : Nat)
  | address (width : Nat)
  | terminated
  | seek (target : Nat)
  | skip (count : Nat)
  | rewind
  | splitOff (count : Nat)
  | copy
  | describe
  deriving Repr, DecidableEq

/-- What a cursor answers. -/
inductive CursorReply where
  | word (value : UInt64)
  | signedWord (value : Int64)
  | bytes (value : Bytes)
  | size (value : Nat)
  | done
  | description (size : Nat) (isEmpty : Bool) (order : ByteOrder)
  deriving Repr, DecidableEq

/-- A reply, and the cursor that was made if one was. -/
structure CursorEffect where
  reply : CursorReply
  made : Option Cursor
  deriving Repr, DecidableEq

namespace CursorRequest

/-- A reply that comes without a new cursor. -/
def plain (reply : CursorReply) : CursorEffect where
  reply := reply
  made := none

/-- The reply to a request that copies the cursor. -/
def copied (cursor : Cursor) : CursorEffect where
  reply := .done
  made := some cursor

/-- The reply to a request that splits a cursor off. -/
def split (cursor : Cursor) : CursorEffect where
  reply := .size cursor.size
  made := some cursor

/-- The reply to a request for what a cursor ranges over. -/
def described (cursor : Cursor) : CursorEffect :=
  plain (.description cursor.size cursor.data.isEmpty cursor.order)

/-- Does what is asked. -/
def perform : CursorRequest → Reader CursorEffect
  | uint8 => (fun value => plain (.word value.toUInt64)) <$> Reader.uint8
  | uint16 => (fun value => plain (.word value.toUInt64)) <$> Reader.uint16
  | uint32 => (fun value => plain (.word value.toUInt64)) <$> Reader.uint32
  | uint64 => (fun value => plain (.word value)) <$> Reader.uint64
  | unsigned => (fun value => plain (.word value)) <$> Reader.unsigned
  | signed => (fun value => plain (.signedWord value)) <$> Reader.signed
  | uint8At offset =>
      (fun value => plain (.word value.toUInt64)) <$> Reader.looking (·.uint8At offset)
  | uint16At offset =>
      (fun value => plain (.word value.toUInt64)) <$> Reader.looking (·.uint16At offset)
  | uint32At offset =>
      (fun value => plain (.word value.toUInt64)) <$> Reader.looking (·.uint32At offset)
  | uint64At offset =>
      (fun value => plain (.word value)) <$> Reader.looking (·.uint64At offset)
  | address width => (fun value => plain (.word value)) <$> Reader.address width
  | terminated => (fun value => plain (.bytes value)) <$> Reader.terminated
  | seek target => (fun _ => plain .done) <$> Reader.seek target
  | skip count => (fun _ => plain .done) <$> Reader.skip count
  | rewind => (fun _ => plain .done) <$> Reader.rewind
  | splitOff count => split <$> Reader.splitOff count
  | copy => copied <$> Reader.looking .ok
  | describe => described <$> Reader.looking .ok

end CursorRequest

/-- Cursors in the order in which they were made. -/
structure CursorFamily where
  members : List Cursor
  deriving Repr, DecidableEq

namespace CursorFamily

/-- The family of one cursor at the start of `data`. -/
def ofBytes
    (order : ByteOrder)
    (data : Bytes) :
    CursorFamily where
  members := [.ofBytes order data]

/-- Puts a cursor in its place, and a new one at the end. -/
def update
    (family : CursorFamily)
    (index : Nat)
    (cursor : Cursor)
    (made : Option Cursor) :
    CursorFamily where
  members := family.members.set index cursor ++ made.toList

/-- Asks the member at `index`, if there is one. -/
def ask
    (family : CursorFamily)
    (index : Nat)
    (request : CursorRequest) :
    Option (Except ReadError CursorReply × CursorFamily) :=
  family.members[index]?.map fun cursor =>
    match request.perform cursor with
    | .ok effect after => (.ok effect.reply, family.update index after effect.made)
    | .error cause stopped => (.error cause, family.update index stopped none)

end CursorFamily

end LineAtlas
