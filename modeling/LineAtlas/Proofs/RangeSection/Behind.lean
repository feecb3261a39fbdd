import LineAtlas.Proofs.LineSection.Isolation
import LineAtlas.Proofs.RangeSection.WrittenSet

namespace LineAtlas

/-!
# Range sets behind other bytes

Range sets are read by offset only. So bytes that stand before a section move the
offsets of its sets, and the positions that its last warning names, and change
nothing else.
-/

/-- The cause with `count` more bytes before the data that was too short. -/
def ReadError.behind (count : Nat) : ReadError → ReadError
  | truncated expected actual subject => truncated (count + expected) (count + actual) subject
  | other => other

namespace ReadError

variable (count : Nat)

@[simp] theorem isTruncation_behind (cause : ReadError) :
    (cause.behind count).isTruncation = cause.isTruncation := by
  cases cause <;> rfl

theorem failure_behind (cause : ReadError) :
    (WarningCause.failure cause).behind count = .failure (cause.behind count) := by
  cases cause <;> rfl

end ReadError

/-- The cursor over data with `front` before it, which looks by offset. -/
def Cursor.withFront
    (front : Bytes)
    (cursor : Cursor) :
    Cursor :=
  { cursor with data := front ++ cursor.data }

/-- Moved failures of two looks in a row are the failures of both, moved. -/
theorem lookBind_mapError
    {ε α β : Type}
    (move : ε → ε)
    (first : Except ε α)
    (next : α → Except ε β) :
    (first >>= next).mapError move =
      first.mapError move >>= fun found => (next found).mapError move := by
  cases first <;> rfl

namespace Cursor

variable
  {cursor : Cursor}
  (front : Bytes)

@[simp] theorem size_withFront : (cursor.withFront front).size = front.length + cursor.size :=
  List.length_append

/-- A look behind other bytes finds the same, or fails with numbers that are moved. -/
theorem bytesAt_behind
    {offset count : Nat}
    (room : front.length + offset + count < addressLimit)
    (subject : String) :
    (cursor.withFront front).bytesAt subject (front.length + offset) count =
      (cursor.bytesAt subject offset count).mapError (·.behind front.length) := by
  have near : ¬ addressLimit ≤ offset + count := by omega
  have far : ¬ addressLimit ≤ front.length + (offset + count) := by omega
  simp only [bytesAt, size_withFront, Nat.add_assoc, if_neg near, if_neg far,
    Nat.add_lt_add_iff_left]
  split
  · rfl
  · rw [withFront, ← List.drop_drop, List.drop_left]
    rfl

theorem numberAt_behind
    {offset width : Nat}
    (room : front.length + offset + width < addressLimit)
    (subject : String) :
    (cursor.withFront front).numberAt subject width (front.length + offset) =
      (cursor.numberAt subject width offset).mapError (·.behind front.length) := by
  rw [numberAt, numberAt, bytesAt_behind front room]
  cases cursor.bytesAt subject offset width <;> rfl

theorem uint8At_behind
    {offset : Nat}
    (room : front.length + offset + 1 < addressLimit) :
    (cursor.withFront front).uint8At (front.length + offset) =
      (cursor.uint8At offset).mapError (·.behind front.length) := by
  rw [uint8At, uint8At, numberAt_behind front room]
  cases cursor.numberAt "u8" 1 offset <;> rfl

theorem uint16At_behind
    {offset : Nat}
    (room : front.length + offset + 2 < addressLimit) :
    (cursor.withFront front).uint16At (front.length + offset) =
      (cursor.uint16At offset).mapError (·.behind front.length) := by
  rw [uint16At, uint16At, numberAt_behind front room]
  cases cursor.numberAt "u16" 2 offset <;> rfl

theorem uint32At_behind
    {offset : Nat}
    (room : front.length + offset + 4 < addressLimit) :
    (cursor.withFront front).uint32At (front.length + offset) =
      (cursor.uint32At offset).mapError (·.behind front.length) := by
  rw [uint32At, uint32At, numberAt_behind front room]
  cases cursor.numberAt "u32" 4 offset <;> rfl

end Cursor

/-! ## Sets -/

/-- The set with `count` more bytes before its section. -/
def RangeSet.behind
    (count : Nat)
    (set : RangeSet) :
    RangeSet :=
  { set with offset := count + set.offset }

/-- The warning with `count` more bytes before a section that is read by offset. -/
def Warning.movedBy
    (count : Nat)
    (warning : Warning) :
    Warning :=
  { warning with
    offset := count + warning.offset
    cause := warning.cause.behind count }

namespace RangeSet

variable
  {cursor : Cursor}
  (front : Bytes)
  {offset : Nat}

theorem headerAt_behind
    (room : front.length + offset + RangeHeader.size < addressLimit) :
    RangeHeader.readAt (cursor.withFront front) (front.length + offset) =
      (RangeHeader.readAt cursor offset).mapError (·.behind front.length) := by
  rw [RangeHeader.size] at room
  simp only [RangeHeader.readAt, lookBind_mapError, Nat.add_assoc]
  rw [Cursor.uint32At_behind front (by omega), Cursor.uint16At_behind front (by omega),
    Cursor.uint32At_behind front (by omega), Cursor.uint8At_behind front (by omega),
    Cursor.uint8At_behind front (by omega)]
  rfl

/-- Pairs behind other bytes are the same and stop further on. -/
theorem rangesAt_behind
    (room : front.length + cursor.size + 4 < addressLimit)
    (inside : offset ≤ cursor.size) :
    rangesAt (cursor.withFront front) (front.length + offset) =
      ((rangesAt cursor offset).map fun (ranges, stop) => (ranges, front.length + stop)).mapError
        (·.behind front.length) := by
  fun_induction rangesAt cursor offset with
  | case1 offset cause missing =>
      rw [rangesAt_eq, Cursor.uint16At_behind front (by omega), missing]
      rfl
  | case2 offset address addressRead cause missing =>
      rw [rangesAt_eq, Cursor.uint16At_behind front (by omega), addressRead, Nat.add_assoc,
        Cursor.uint16At_behind front (by omega), missing]
      rfl
  | case3 offset address addressRead length lengthRead zeros =>
      rw [rangesAt_eq, Cursor.uint16At_behind front (by omega), addressRead, Nat.add_assoc,
        Cursor.uint16At_behind front (by omega), lengthRead]
      show ite _ _ _ = _
      rw [if_pos zeros]
      rfl
  | case4 offset address addressRead length lengthRead notMark cause missing inductionHypothesis =>
      have within := Cursor.le_size_of_uint16At lengthRead
      rw [rangesAt_eq, Cursor.uint16At_behind front (by omega), addressRead, Nat.add_assoc,
        Cursor.uint16At_behind front (by omega), lengthRead]
      show ite _ _ _ = _
      rw [if_neg notMark, Nat.add_assoc, inductionHypothesis (by omega), missing]
      rfl
  | case5 offset address addressRead length lengthRead notMark later last rest
      inductionHypothesis =>
      have within := Cursor.le_size_of_uint16At lengthRead
      rw [rangesAt_eq, Cursor.uint16At_behind front (by omega), addressRead, Nat.add_assoc,
        Cursor.uint16At_behind front (by omega), lengthRead]
      show ite _ _ _ = _
      rw [if_neg notMark, Nat.add_assoc, inductionHypothesis (by omega), rest]
      rfl

/--
The next set behind other bytes starts as much further on, unless both sections have ended
before.
-/
theorem stopOfUnread_behind
    (room : front.length + cursor.size + RangeHeader.size ≤ addressLimit)
    (inside : offset < cursor.size)
    (header : RangeHeader) :
    stopOfUnread (front.length + offset) header = front.length + stopOfUnread offset header ∨
      front.length + cursor.size ≤ stopOfUnread (front.length + offset) header ∧
        cursor.size ≤ stopOfUnread offset header := by
  simp only [stopOfUnread, RangeHeader.size] at *
  generalize addressLimit = limit at *
  omega

/-- A set behind other bytes is read as it is alone, and ends the section if it does so alone. -/
theorem readAt_behind
    (room : front.length + cursor.size + RangeHeader.size ≤ addressLimit)
    (inside : offset < cursor.size) :
    match readAt cursor offset with
    | .error cause =>
        readAt (cursor.withFront front) (front.length + offset) =
          .error (cause.behind front.length)
    | .ok (set, stop) =>
        ∃ later,
          readAt (cursor.withFront front) (front.length + offset) =
              .ok (set.behind front.length, later) ∧
            (later = front.length + stop ∨
              front.length + cursor.size ≤ later ∧ cursor.size ≤ stop) := by
  have fits : cursor.size < addressLimit := by
    rw [RangeHeader.size] at room
    omega
  have headerMoved :
      RangeHeader.readAt (cursor.withFront front) (front.length + offset) =
        (RangeHeader.readAt cursor offset).mapError (·.behind front.length) :=
    headerAt_behind front (by omega)
  cases headerRead : RangeHeader.readAt cursor offset with
  | error cause =>
      rw [headerRead] at headerMoved
      simp only [readAt, headerRead, headerMoved, Except.mapError]
  | ok header =>
      rw [headerRead] at headerMoved
      by_cases narrow : hasNarrowAddresses header
      · have held := (headerAt_eq_ok_iff fits).mp headerRead
        have headerInside := held.le_size (List.ne_nil_of_length_pos (by simp [RangeHeader.size]))
        rw [RangeHeader.length_bytes] at headerInside
        have pairsRoom : front.length + cursor.size + 4 < addressLimit := by
          rw [RangeHeader.size] at room
          omega
        have pairsMoved := rangesAt_behind front pairsRoom headerInside
        simp only [readAt, headerRead, headerMoved, Except.mapError, narrow, if_true,
          Nat.add_assoc, pairsMoved]
        cases rangesAt cursor (offset + RangeHeader.size) with
        | error cause =>
            rfl
        | ok found =>
            exact ⟨_, rfl, Or.inl rfl⟩
      · simp only [readAt, headerRead, headerMoved, Except.mapError, narrow]
        exact ⟨_, rfl, stopOfUnread_behind front room inside header⟩

/-- What is warned of a set moves with it. -/
theorem warning?_behind
    (count : Nat)
    (set : RangeSet) :
    (set.behind count).warning? = set.warning?.map (·.movedBy count) := by
  by_cases narrow : hasNarrowAddresses set.header
  · simp [warning?, behind, narrow]
  · simp [warning?, behind, narrow, Warning.movedBy, WarningCause.behind]

end RangeSet

/-! ## Sections -/

namespace RangeSection

/-- What was decoded, with `count` more bytes before the section. -/
def behind
    (count : Nat)
    (decoded : RangeSection) :
    RangeSection where
  sets := decoded.sets.map (·.behind count)
  warnings := decoded.warnings.map (·.movedBy count)

theorem ofOffset_of_size_le
    {cursor : Cursor}
    {offset : Nat}
    (ended : cursor.size ≤ offset) :
    ofOffset cursor offset = { sets := [], warnings := [] } := by
  rw [ofOffset, if_pos ended]

theorem ofOffset_of_error
    {cursor : Cursor}
    {offset : Nat}
    {cause : ReadError}
    (inside : offset < cursor.size)
    (failed : RangeSet.readAt cursor offset = .error cause) :
    ofOffset cursor offset =
      { sets := []
        warnings := [.ofError rangeSectionName offset .malformedHeader cause] } := by
  rw [ofOffset, if_neg (Nat.not_le.mpr inside)]
  split
  · simp_all
  · simp_all

theorem ofOffset_of_set
    {cursor : Cursor}
    {offset stop : Nat}
    {set : RangeSet}
    (inside : offset < cursor.size)
    (read : RangeSet.readAt cursor offset = .ok (set, stop)) :
    ofOffset cursor offset =
      { sets := set :: (ofOffset cursor stop).sets
        warnings := set.warning?.toList ++ (ofOffset cursor stop).warnings } := by
  rw [ofOffset, if_neg (Nat.not_le.mpr inside)]
  split
  · simp_all
  · simp_all

/-- Sets behind other bytes are those of the section alone, moved. -/
theorem ofOffset_behind
    (front : Bytes)
    {cursor : Cursor}
    {offset : Nat}
    (room : front.length + cursor.size + RangeHeader.size ≤ addressLimit) :
    ofOffset (cursor.withFront front) (front.length + offset) =
      (ofOffset cursor offset).behind front.length := by
  fun_induction ofOffset cursor offset with
  | case1 offset ended =>
      have movedEnded : (cursor.withFront front).size ≤ front.length + offset := by
        rw [Cursor.size_withFront]
        omega
      rw [ofOffset_of_size_le movedEnded]
      rfl
  | case2 offset goesOn cause failed =>
      have inside : offset < cursor.size := Nat.not_le.mp goesOn
      have movedInside : front.length + offset < (cursor.withFront front).size := by
        rw [Cursor.size_withFront]
        omega
      have moved := RangeSet.readAt_behind front room inside
      simp only [failed] at moved
      rw [ofOffset_of_error movedInside moved]
      simp [behind, Warning.movedBy, Warning.ofError, Warning.kindOfError,
        ReadError.failure_behind]
  | case3 offset goesOn set stop read later inductionHypothesis =>
      have inside : offset < cursor.size := Nat.not_le.mp goesOn
      have movedInside : front.length + offset < (cursor.withFront front).size := by
        rw [Cursor.size_withFront]
        omega
      have moved := RangeSet.readAt_behind front room inside
      simp only [read] at moved
      obtain ⟨movedStop, movedRead, next⟩ := moved
      have movedLater : ofOffset (cursor.withFront front) movedStop = later.behind front.length := by
        rcases next with rfl | ⟨movedEnded, ended⟩
        · exact inductionHypothesis
        · rw [← Cursor.size_withFront] at movedEnded
          rw [ofOffset_of_size_le movedEnded, show later = _ from ofOffset_of_size_le ended]
          rfl
      rw [ofOffset_of_set movedInside movedRead, movedLater, RangeSet.warning?_behind]
      simp [behind, Option.toList_map]

end RangeSection

end LineAtlas
