import LineAtlas.Proofs.Cursors.Requests

namespace LineAtlas

/-!
# Runs of a family of cursors

Whatever the members of a family are asked, in whatever order, each of them keeps to a
run of the bytes that the first one started with. A call either leaves the family as it is
or does to one member what its request does, and adds what was made at the end. So a
member that was split off goes on seeing what its parent sees further on, however both of
them have moved since.
-/

/-- The cursor ranges over a run of the whole, in its byte order, and stands inside that run. -/
structure Cursor.Within
    (order : ByteOrder)
    (whole : Bytes)
    (cursor : Cursor) :
    Prop where
  position_le : cursor.position ≤ cursor.size
  slice : cursor.data <:+: whole
  sameOrder : cursor.order = order

/-- A request, and the index of the member that it is for. -/
structure CursorCall where
  index : Nat
  request : CursorRequest
  deriving Repr, DecidableEq

namespace CursorFamily

/-- The family after a call; a call for a member that does not exist changes nothing. -/
def call
    (family : CursorFamily)
    (call : CursorCall) :
    CursorFamily :=
  ((family.ask call.index call.request).map Prod.snd).getD family

/-- The family after calls in a row. -/
def run
    (family : CursorFamily)
    (calls : List CursorCall) :
    CursorFamily :=
  calls.foldl call family

/-- What holds of a family that started with one cursor at the start of the whole. -/
structure Orderly
    (order : ByteOrder)
    (whole : Bytes)
    (family : CursorFamily) :
    Prop where
  /-- Every member stands inside its bytes, which are a run of the whole. -/
  within : ∀ cursor ∈ family.members, cursor.Within order whole
  /-- Every request to a member has an outcome. -/
  answered :
    ∀ index request, (family.ask index request).isSome ↔ index < family.members.length
  /-- A request that fails leaves every member as it was. -/
  failed :
    ∀ index request cause after,
      family.ask index request = some (.error cause, after) →
      after = family
  /--
  A request that succeeds does what it should to its member and changes no other; a cursor
  that is made comes last.
  -/
  succeeded :
    ∀ index request reply after,
      family.ask index request = some (.ok reply, after) →
      ∃ cursor position made,
        family.members[index]? = some cursor ∧
          request.Does cursor reply position made ∧
          after.members[index]? = some { cursor with position := position } ∧
          (∀ other < family.members.length,
            other ≠ index → after.members[other]? = family.members[other]?) ∧
          after.members.drop family.members.length = made.toList
  /-- The field at the position is read as it is looked at. -/
  sequential :
    ∀ index cursor (width : FieldWidth),
      family.members[index]? = some cursor →
      ∀ request ∈ [width.next, .address width.size],
        (family.ask index request).map Prod.fst =
          (family.ask index (width.look cursor.position)).map Prod.fst
  /-- Whatever a member sees that was split off, its parent sees further on, at any later time. -/
  splitOff :
    ∀ index parent count reply grown,
      family.members[index]? = some parent →
      family.ask index (.splitOff count) = some (.ok reply, grown) →
      ∀ calls (width : FieldWidth) offset found same,
        (grown.run calls).ask family.members.length (width.look offset) =
          some (.ok found, same) →
        (grown.run calls).ask index (width.look (parent.position + offset)) =
          some (.ok found, same)

end CursorFamily

/-! ## One request -/

namespace Cursor

variable
  {order : ByteOrder}
  {whole : Bytes}
  {cursor : Cursor}

theorem within_ofBytes
    {bytes : Bytes}
    (slice : bytes <:+: whole) :
    (ofBytes order bytes).Within order whole where
  position_le := Nat.zero_le _
  slice := slice
  sameOrder := rfl

/-- A cursor may stand anywhere inside its bytes. -/
theorem Within.move
    (within : cursor.Within order whole)
    {position : Nat}
    (inside : position ≤ cursor.size) :
    { cursor with position := position }.Within order whole where
  position_le := inside
  slice := within.slice
  sameOrder := within.sameOrder

/-- Bytes that are left are a run of the whole. -/
theorem Within.slice_of_split
    (within : cursor.Within order whole)
    {taken tail : Bytes}
    (split : cursor.rest = taken ++ tail) :
    taken <:+: whole := by
  have front : taken <+: cursor.rest := ⟨tail, split.symm⟩
  exact (front.isInfix.trans (List.drop_suffix _ _).isInfix).trans within.slice

/-- What a request does keeps the cursor within the whole, and makes one that is within it. -/
theorem Within.does
    {request : CursorRequest}
    {reply : CursorReply}
    {position : Nat}
    {made : Option Cursor}
    (within : cursor.Within order whole)
    (does : request.Does cursor reply position made) :
    { cursor with position := position }.Within order whole ∧
      ∀ child ∈ made, child.Within order whole := by
  cases does with
  | takes split finds =>
      exact ⟨within.move (end_le_size_of_split within.position_le split), by simp⟩
  | splits split =>
      refine ⟨within.move (end_le_size_of_split within.position_le split), ?_⟩
      rintro child ⟨⟩
      rw [within.sameOrder]
      exact within_ofBytes (within.slice_of_split split)
  | looks width held count =>
      exact ⟨within, by simp⟩
  | seeks inside =>
      exact ⟨within.move inside, by simp⟩
  | rewinds =>
      exact ⟨within.move (Nat.zero_le _), by simp⟩
  | copies =>
      exact ⟨within, by rintro child ⟨⟩; exact within⟩
  | describes =>
      exact ⟨within, by simp⟩

/-- What is seen in bytes that were seen is seen further on in the data around them. -/
theorem bytesAt_of_bytesAt
    {outer inner : String}
    {position offset count width : Nat}
    {bytes found : Bytes}
    (around : cursor.bytesAt outer position count = .ok bytes)
    (look : (ofBytes cursor.order bytes).bytesAt inner offset width = .ok found) :
    cursor.bytesAt inner (position + offset) width = .ok found := by
  -- The sum of both offsets fits into 64 bits because the outer look ended no earlier.
  have room : position + count < addressLimit := by
    by_contra high
    rw [bytesAt, if_pos (Nat.le_of_not_lt high)] at around
    cases around
  have inside := le_size_of_bytesAt around
  have within := le_size_of_bytesAt look
  obtain ⟨⟨tail, split⟩, length⟩ := holds_of_bytesAt around
  obtain ⟨⟨later, front⟩, rfl⟩ := holds_of_bytesAt look
  have short : offset + found.length ≤ bytes.length := within
  have held : found <+: cursor.data.drop (position + offset) := by
    refine ⟨later ++ tail, ?_⟩
    rw [← List.drop_drop, ← split, List.drop_append_of_le_length (by omega), ← List.append_assoc,
      front, ofBytes]
  rw [bytesAt, if_neg (by omega), if_neg (by omega), ← List.prefix_iff_eq_take.mp held]

end Cursor

namespace CursorFamily

variable
  {family after : CursorFamily}
  {index : Nat}
  {request : CursorRequest}
  {cursor : Cursor}
  {order : ByteOrder}
  {whole : Bytes}

/-- Whatever is asked, a member answers. -/
theorem isSome_ask_iff : (family.ask index request).isSome ↔ index < family.members.length := by
  simp [ask]

/-- A member that stays as it is leaves the family as it is. -/
theorem update_self (member : family.members[index]? = some cursor) :
    family.update index cursor none = family := by
  obtain ⟨inside, rfl⟩ := List.getElem?_eq_some_iff.mp member
  rw [update, List.set_getElem_self, Option.toList_none, List.append_nil]

/-- A member is replaced in its place, and the others stay. -/
theorem getElem?_update
    {target : Nat}
    {made : Option Cursor}
    (inside : index < family.members.length) :
    (family.update target cursor made).members[index]? =
      if target = index then some cursor else family.members[index]? := by
  rw [update, List.getElem?_append_left (by rwa [List.length_set]), List.getElem?_set]
  by_cases here : target = index
  · rw [if_pos here, if_pos here, if_pos (here ▸ inside)]
  · rw [if_neg here, if_neg here]

/-- A cursor that was made comes after all members. -/
theorem getElem?_update_length
    {target : Nat}
    {child : Cursor} :
    (family.update target cursor (some child)).members[family.members.length]? = some child := by
  simp [update]

/-- After the members, there is what was made. -/
theorem drop_update
    {target : Nat}
    {made : Option Cursor} :
    (family.update target cursor made).members.drop family.members.length = made.toList := by
  simp [update]

/-- A request that fails leaves the family as it is. -/
theorem eq_of_ask_error
    {cause : ReadError}
    (failure : family.ask index request = some (.error cause, after)) :
    after = family := by
  obtain ⟨cursor, member, outcome⟩ := Option.map_eq_some_iff.mp failure
  split at outcome
  · cases outcome
  · next other stopped failed =>
      cases outcome
      rw [request.stays_perform cursor _ stopped failed, update_self member]

/-- A request that succeeds does what it should to its member. -/
theorem does_of_ask_ok
    {reply : CursorReply}
    (success : family.ask index request = some (.ok reply, after)) :
    ∃ cursor position made,
      family.members[index]? = some cursor ∧
        request.Does cursor reply position made ∧
        after = family.update index { cursor with position := position } made := by
  obtain ⟨cursor, member, outcome⟩ := Option.map_eq_some_iff.mp success
  split at outcome
  · next effect moved done =>
      cases outcome
      obtain ⟨position, does, rfl⟩ := CursorRequest.brings_of_perform done
      exact ⟨cursor, position, effect.made, member, does, rfl⟩
  · cases outcome

/-- A call leaves the family as it is, or does to one member what its request does. -/
theorem call_cases
    (family : CursorFamily)
    (call : CursorCall) :
    family.call call = family ∨
      ∃ cursor reply position made,
        family.members[call.index]? = some cursor ∧
          call.request.Does cursor reply position made ∧
          family.call call =
            family.update call.index { cursor with position := position } made := by
  rw [CursorFamily.call]
  cases asked : family.ask call.index call.request with
  | none =>
      exact .inl rfl
  | some outcome =>
      obtain ⟨answer, after⟩ := outcome
      cases answer with
      | error cause =>
          exact .inl (eq_of_ask_error asked)
      | ok reply =>
          obtain ⟨cursor, position, made, found⟩ := does_of_ask_ok asked
          exact .inr ⟨cursor, reply, position, made, found⟩

/-! ## Calls in a row -/

/-- One call keeps every member within the whole. -/
theorem within_call
    (within : ∀ cursor ∈ family.members, cursor.Within order whole)
    (call : CursorCall) :
    ∀ cursor ∈ (family.call call).members, cursor.Within order whole := by
  obtain same | ⟨cursor, reply, position, made, member, does, same⟩ := call_cases family call
  · rwa [same]
  · obtain ⟨moved, child⟩ := (within cursor (List.mem_of_getElem? member)).does does
    rw [same, update]
    intro other present
    obtain present | present := List.mem_append.mp present
    · obtain present | rfl := List.mem_or_eq_of_mem_set present
      · exact within other present
      · exact moved
    · exact child other (Option.mem_toList.mp present)

/-- Calls in a row keep every member within the whole. -/
theorem within_run
    (calls : List CursorCall)
    (within : ∀ cursor ∈ family.members, cursor.Within order whole) :
    ∀ cursor ∈ (family.run calls).members, cursor.Within order whole := by
  induction calls generalizing family with
  | nil =>
      exact within
  | cons call calls inductionHypothesis =>
      exact inductionHypothesis (within_call within call)

/-- One call moves a member at most. -/
theorem exists_member_call
    (member : family.members[index]? = some cursor)
    (call : CursorCall) :
    ∃ position, (family.call call).members[index]? = some { cursor with position := position } := by
  obtain same | ⟨other, reply, position, made, present, does, same⟩ := call_cases family call
  · rw [same]
    exact ⟨cursor.position, member⟩
  · rw [same, getElem?_update (List.getElem?_eq_some_iff.mp member).1]
    by_cases here : call.index = index
    · rw [here, member] at present
      cases present
      exact ⟨position, if_pos here⟩
    · rw [if_neg here]
      exact ⟨cursor.position, member⟩

/-- Calls in a row move a member at most: it ranges over the same bytes. -/
theorem exists_member_run
    (calls : List CursorCall)
    (member : family.members[index]? = some cursor) :
    ∃ position, (family.run calls).members[index]? = some { cursor with position := position } := by
  induction calls generalizing family cursor with
  | nil =>
      exact ⟨cursor.position, member⟩
  | cons call calls inductionHypothesis =>
      obtain ⟨near, moved⟩ := exists_member_call member call
      obtain ⟨far, stands⟩ := inductionHypothesis moved
      exact ⟨far, stands⟩

/-! ## Fields of members -/

/-- A field is looked at in a member as in the bytes of that member, and the family stays. -/
theorem ask_look
    (member : family.members[index]? = some cursor)
    (width : FieldWidth)
    (offset : Nat) :
    family.ask index (width.look offset) =
      some ((cursor.numberAt width.subject width.size offset).map fun number =>
        .word (.ofNat number), family) := by
  rw [ask, member, Option.map_some, FieldWidth.perform_look]
  cases cursor.numberAt width.subject width.size offset <;>
    simp [Except.map, CursorRequest.plain, update_self member]

/-- The field at the position of a member is read as it is looked at. -/
theorem ask_next
    (member : family.members[index]? = some cursor)
    (width : FieldWidth) :
    (family.ask index width.next).map Prod.fst =
      (family.ask index (width.look cursor.position)).map Prod.fst := by
  rw [ask_look member, ask, member, Option.map_some, FieldWidth.perform_next]
  cases cursor.numberAt width.subject width.size cursor.position <;> rfl

/-- An address of the width of a field is read from a member as the field is. -/
theorem ask_address
    (member : family.members[index]? = some cursor)
    (width : FieldWidth) :
    family.ask index (.address width.size) = family.ask index width.next := by
  rw [ask, ask, member, Option.map_some, Option.map_some, FieldWidth.perform_address]

/-- A member that is split off comes last, over bytes that can be looked at in its parent. -/
theorem update_of_ask_splitOff
    {count : Nat}
    {reply : CursorReply}
    (member : family.members[index]? = some cursor)
    (success : family.ask index (.splitOff count) = some (.ok reply, after)) :
    ∃ bytes,
      cursor.bytesAt "sub-range" cursor.position count = .ok bytes ∧
        after =
          family.update index (cursor.advance count) (some (.ofBytes cursor.order bytes)) := by
  obtain ⟨other, found, outcome⟩ := Option.map_eq_some_iff.mp success
  rw [member] at found
  cases found
  split at outcome
  · next effect moved done =>
      obtain ⟨bytes, seen, rfl, rfl⟩ := CursorRequest.bytesAt_of_splitOff done
      cases outcome
      exact ⟨bytes, seen, rfl⟩
  · cases outcome

/-- A field that is seen in a member that was split off is seen further on in its parent. -/
theorem ask_look_of_splitOff
    {parent : Cursor}
    {count : Nat}
    {reply found : CursorReply}
    {grown same : CursorFamily}
    (member : family.members[index]? = some parent)
    (splitOff : family.ask index (.splitOff count) = some (.ok reply, grown))
    (calls : List CursorCall)
    (width : FieldWidth)
    {offset : Nat}
    (look :
      (grown.run calls).ask family.members.length (width.look offset) = some (.ok found, same)) :
    (grown.run calls).ask index (width.look (parent.position + offset)) =
      some (.ok found, same) := by
  obtain ⟨bytes, around, rfl⟩ := update_of_ask_splitOff member splitOff
  have inside := (List.getElem?_eq_some_iff.mp member).1
  -- The calls may have moved both members, but not what they range over.
  obtain ⟨_, child⟩ := exists_member_run calls getElem?_update_length
  obtain ⟨_, moved⟩ :=
    exists_member_run calls ((getElem?_update inside).trans (if_pos rfl))
  rw [ask_look child] at look
  obtain ⟨seen, rfl⟩ := Prod.mk.inj (Option.some.inj look)
  obtain ⟨number, read, rfl⟩ := Reader.map_eq_ok_iff.mp seen
  obtain ⟨field, fieldSeen, rfl⟩ := Reader.map_eq_ok_iff.mp read
  have further :
      parent.numberAt width.subject width.size (parent.position + offset) =
        .ok (parent.order.number field) :=
    congrArg (Except.map parent.order.number) (Cursor.bytesAt_of_bytesAt around fieldSeen)
  rw [ask_look moved]
  show some (Except.map _ (parent.numberAt _ _ _), _) = _
  rw [further]
  rfl

/-! ## The whole run -/

/-- Whatever the members are asked, in whatever order, the family stays orderly. -/
theorem orderly_run
    (order : ByteOrder)
    (data : Bytes)
    (calls : List CursorCall) :
    ((ofBytes order data).run calls).Orderly order data where
  within := by
    apply within_run calls
    intro cursor member
    rw [List.mem_singleton.mp member]
    exact Cursor.within_ofBytes List.infix_rfl
  answered _ _ := isSome_ask_iff
  failed _ _ _ _ := eq_of_ask_error
  succeeded index request reply after success := by
    obtain ⟨cursor, position, made, member, does, rfl⟩ := does_of_ask_ok success
    have inside := (List.getElem?_eq_some_iff.mp member).1
    refine ⟨cursor, position, made, member, does, ?_, ?_, drop_update⟩
    · rw [getElem?_update inside, if_pos rfl]
    · intro other listed elsewhere
      rw [getElem?_update listed, if_neg elsewhere.symm]
  sequential index cursor width member := by
    simp [ask_address member, ask_next member]
  splitOff _ _ _ _ _ member splitOff calls width _ _ _ look :=
    ask_look_of_splitOff member splitOff calls width look

end CursorFamily

end LineAtlas
