import LineAtlas.Proofs.LineSection.PrologueLocality
import LineAtlas.Proofs.LineSection.Shape
import LineAtlas.Proofs.LineSection.Tiling
import Mathlib.Data.List.Forall2

namespace LineAtlas

open Framing

/-!
# Every unit is accounted for

The length fields alone say at which offsets the units of a section start. At each
of them there is a complete unit, all of whose rows are stored, or there is one
warning that names this offset, and the sequences before the failure are stored.
-/

/--
The offsets of the units, the first of which starts at `offset`.

The walk goes from length field to length field. It stops at the end, at a length
field that is cut or announces 64-bit lengths, and at a unit that is cut.
-/
def unitOffsets
    (order : ByteOrder)
    (offset : Nat)
    (bytes : Bytes) :
    List Nat :=
  if bytes = [] then
    []
  else if bytes.length < 4 then
    [offset]
  else
    let length := order.number (bytes.take 4)
    if length = wideMark.toNat ∨ (bytes.drop 4).length < length then
      [offset]
    else
      offset :: unitOffsets order (offset + 4 + length) ((bytes.drop 4).drop length)
termination_by bytes.length
decreasing_by
  simp only [List.length_drop]
  omega

section Walk

variable
  {order : ByteOrder}
  {offset : Nat}
  {field tail body rest : Bytes}

theorem unitOffsets_nil : unitOffsets order offset [] = [] := by
  rw [unitOffsets, if_pos rfl]

theorem unitOffsets_cutField
    {bytes : Bytes}
    (nonempty : bytes ≠ [])
    (short : bytes.length < 4) :
    unitOffsets order offset bytes = [offset] := by
  rw [unitOffsets, if_neg nonempty, if_pos short]

/-- A length field that is complete decides whether the walk goes on. -/
theorem unitOffsets_field
    (size : field.length = 4) :
    unitOffsets order offset (field ++ tail) =
      if order.number field = wideMark.toNat ∨ tail.length < order.number field then
        [offset]
      else
        offset ::
          unitOffsets order (offset + 4 + order.number field)
            (tail.drop (order.number field)) := by
  have long : ¬ (field ++ tail).length < 4 := by
    rw [List.length_append]
    omega
  rw [unitOffsets, if_neg (ne_nil_of_field size), if_neg long, List.take_left' size,
    List.drop_left' size]

theorem unitOffsets_wide
    (size : field.length = 4)
    (marked : order.number field = wideMark.toNat) :
    unitOffsets order offset (field ++ tail) = [offset] := by
  rw [unitOffsets_field size, if_pos (.inl marked)]

theorem unitOffsets_cutUnit
    {claimed : Nat}
    (announced : Announces order field claimed)
    (short : body.length < claimed) :
    unitOffsets order offset (field ++ body) = [offset] := by
  rw [unitOffsets_field announced.size, if_pos (.inr (announced.number ▸ short))]

theorem unitOffsets_unit
    (announced : Announces order field body.length) :
    unitOffsets order offset (field ++ body ++ rest) =
      offset :: unitOffsets order (offset + (field ++ body).length) rest := by
  have goesOn :
      ¬ (order.number field = wideMark.toNat ∨ (body ++ rest).length < order.number field) := by
    rw [announced.number, List.length_append]
    have := announced.narrow
    omega
  rw [List.append_assoc, unitOffsets_field announced.size, if_neg goesOn, announced.number,
    List.drop_left, List.length_append, announced.size, Nat.add_assoc]

/-- The walk only moves forward. -/
theorem unitOffsets_increasing
    {bytes : Bytes}
    (shape : Shape order bytes)
    (offset : Nat) :
    (unitOffsets order offset bytes).Pairwise (· < ·) ∧
      ∀ other ∈ unitOffsets order offset bytes, offset ≤ other := by
  induction shape generalizing offset with
  | finished =>
      simp [unitOffsets_nil]
  | cutField nonempty short =>
      simp [unitOffsets_cutField nonempty short]
  | wide size marked =>
      simp [unitOffsets_wide size marked]
  | cutUnit announced short =>
      simp [unitOffsets_cutUnit announced short]
  | @unit field body rest announced later inductionHypothesis =>
      obtain ⟨increasing, after⟩ := inductionHypothesis (offset + (field ++ body).length)
      have size := announced.size
      rw [List.length_append] at after
      rw [unitOffsets_unit announced, List.pairwise_cons, List.length_append]
      rw [List.length_append] at increasing
      refine ⟨⟨fun other member => ?_, increasing⟩, ?_⟩
      · have := after other member
        omega
      · intro other member
        rcases List.mem_cons.mp member with rfl | laterMember
        · exact Nat.le_refl _
        · have := after other laterMember
          omega

/-- The walk visits offsets inside the section only. -/
theorem drop_ne_nil_of_mem_unitOffsets
    {data bytes : Bytes}
    (shape : Shape order bytes)
    (split : data.drop offset = bytes)
    {other : Nat}
    (member : other ∈ unitOffsets order offset bytes) :
    data.drop other ≠ [] := by
  induction shape generalizing offset with
  | finished =>
      simp [unitOffsets_nil] at member
  | cutField nonempty short =>
      rw [unitOffsets_cutField nonempty short, List.mem_singleton] at member
      rwa [member, split]
  | wide size marked =>
      rw [unitOffsets_wide size marked, List.mem_singleton] at member
      rw [member, split]
      exact ne_nil_of_field size
  | cutUnit announced short =>
      rw [unitOffsets_cutUnit announced short, List.mem_singleton] at member
      rw [member, split]
      exact ne_nil_of_field announced.size
  | @unit field body rest announced later inductionHypothesis =>
      rw [unitOffsets_unit announced] at member
      rcases List.mem_cons.mp member with rfl | laterMember
      · rw [split, List.append_assoc]
        exact ne_nil_of_field announced.size
      · refine inductionHypothesis ?_ laterMember
        rw [← List.drop_drop, split, List.drop_left]

end Walk

namespace LineSection

variable
  (order : ByteOrder)
  (constAddPc : ConstAddPc)

/-- What the unit at an offset of a section gives. -/
def unitAt
    (data : Bytes)
    (offset : Nat) :
    LineSection :=
  let bytes := data.drop offset
  if bytes.length < 4 then
    { tables := [], warnings := [cutFieldWarning offset data.length] }
  else
    let length := order.number (bytes.take 4)
    if length = wideMark.toNat then
      { tables := [], warnings := [wideWarning offset] }
    else
      ofFrame order constAddPc {
        offset := offset
        claimed := UInt32.ofNat length
        body := (bytes.drop 4).take length
      }

variable
  {order constAddPc}
  {data field tail : Bytes}
  {offset : Nat}

theorem unitAt_cutField
    (short : (data.drop offset).length < 4) :
    unitAt order constAddPc data offset =
      { tables := [], warnings := [cutFieldWarning offset data.length] } := by
  rw [unitAt, if_pos short]

theorem unitAt_wide
    (split : data.drop offset = field ++ tail)
    (size : field.length = 4)
    (marked : order.number field = wideMark.toNat) :
    unitAt order constAddPc data offset =
      { tables := [], warnings := [wideWarning offset] } := by
  have long : ¬ (field ++ tail).length < 4 := by
    rw [List.length_append]
    omega
  rw [unitAt, split, if_neg long, List.take_left' size, if_pos marked]

theorem unitAt_frame
    {claimed : Nat}
    (split : data.drop offset = field ++ tail)
    (announced : Announces order field claimed) :
    unitAt order constAddPc data offset =
      ofFrame order constAddPc {
        offset := offset
        claimed := UInt32.ofNat claimed
        body := tail.take claimed
      } := by
  have long : ¬ (field ++ tail).length < 4 := by
    rw [List.length_append, announced.size]
    omega
  rw [unitAt, split, if_neg long, List.take_left' announced.size,
    List.drop_left' announced.size, announced.number, if_neg announced.narrow]

theorem frames_eq_units
    {bytes : Bytes}
    (shape : Shape order bytes)
    {cursor : Cursor}
    (placed : cursor.Placed)
    (room : cursor.size + 4 ≤ addressLimit)
    (sameOrder : cursor.order = order)
    (split : cursor.rest = bytes) :
    (ofCursor cursor).frames.flatMap (fun frame => (ofFrame order constAddPc frame).tables) =
        (unitOffsets order cursor.position bytes).flatMap
          (fun offset => (unitAt order constAddPc cursor.data offset).tables) ∧
      (ofCursor cursor).frames.flatMap (fun frame => (ofFrame order constAddPc frame).warnings)
          ++ (ofCursor cursor).stopped.toList =
        (unitOffsets order cursor.position bytes).flatMap
          (fun offset => (unitAt order constAddPc cursor.data offset).warnings) := by
  induction shape generalizing cursor with
  | finished =>
      rw [ofCursor_finished split, unitOffsets_nil]
      exact ⟨rfl, rfl⟩
  | cutField nonempty short =>
      subst split
      have unit : unitAt order constAddPc cursor.data cursor.position = _ :=
        unitAt_cutField short
      rw [ofCursor_cutField room nonempty short, unitOffsets_cutField nonempty short]
      simp [unit, Cursor.size]
  | wide size marked =>
      have unit : unitAt order constAddPc cursor.data cursor.position = _ :=
        unitAt_wide split size marked
      rw [ofCursor_wide placed split size (sameOrder ▸ marked), unitOffsets_wide size marked]
      simp [unit]
  | cutUnit announced short =>
      have unit : unitAt order constAddPc cursor.data cursor.position = _ :=
        unitAt_frame split announced
      rw [List.take_of_length_le (by omega)] at unit
      rw [ofCursor_cutUnit placed split (sameOrder ▸ announced) short,
        unitOffsets_cutUnit announced short]
      simp [unit]
  | @unit field body rest announced later inductionHypothesis =>
      have unit : unitAt order constAddPc cursor.data cursor.position = _ :=
        unitAt_frame (split.trans (List.append_assoc field body rest)) announced
      rw [List.take_left] at unit
      obtain ⟨laterTables, laterWarnings⟩ :=
        inductionHypothesis (placed.advance split) room sameOrder (Cursor.rest_advance split)
      rw [ofCursor_unit placed split (sameOrder ▸ announced), unitOffsets_unit announced]
      simp only [List.flatMap_cons, unit, List.append_assoc]
      exact ⟨congrArg _ laterTables, congrArg _ laterWarnings⟩

variable (order constAddPc) in
/-- A section is decoded unit by unit, at the offsets that its length fields give. -/
theorem decode_eq_units
    (room : data.length + 4 ≤ addressLimit) :
    (decode order constAddPc data).tables =
        (unitOffsets order 0 data).flatMap
          (fun offset => (unitAt order constAddPc data offset).tables) ∧
      (decode order constAddPc data).warnings =
        (unitOffsets order 0 data).flatMap
          (fun offset => (unitAt order constAddPc data offset).warnings) := by
  have placed : (Cursor.ofBytes order data).Placed :=
    Cursor.placed_ofBytes (by omega)
  simp only [decode, Framing.ofBytes, List.flatMap_map]
  exact frames_eq_units (shape order data) placed room rfl rfl

/-! ## What a unit has to give -/

/--
A unit that is complete: its length field counts its bytes, its prologue can be
read, and from the first opcode on it is tiled by sequences.
-/
structure CompleteUnit
    (order : ByteOrder)
    (constAddPc : ConstAddPc)
    (field body : Bytes)
    (prologue : Prologue)
    (sequences : List (List LineProgram.Row)) :
    Prop where
  announced : Announces order field body.length
  opens : prologue.Opens order (UInt32.ofNat body.length) body
  tiled :
    Sequences.Tiles prologue.header constAddPc order (prologue.programBytes body) sequences

/-- Whether a complete unit stands at the start of some bytes. -/
def StartsComplete
    (order : ByteOrder)
    (constAddPc : ConstAddPc)
    (bytes : Bytes) :
    Prop :=
  ∃ field body rest prologue sequences,
    bytes = field ++ (body ++ rest) ∧
      CompleteUnit order constAddPc field body prologue sequences

/-- The tables that a unit has to give, whose bytes and those after it are `bytes`. -/
inductive UnitTables
    (order : ByteOrder)
    (constAddPc : ConstAddPc)
    (bytes : Bytes) :
    List LineTable → Prop where
  /-- Without a length there is no unit to look into. -/
  | noLength
      (unannounced :
        ∀ field tail length, bytes = field ++ tail → ¬ Announces order field length) :
      UnitTables order constAddPc bytes []
  /-- Without a prologue there is no program. -/
  | noPrologue
      {field tail : Bytes}
      {length : Nat}
      (split : bytes = field ++ tail)
      (announced : Announces order field length)
      (closed :
        ∀ prologue : Prologue,
          ¬ prologue.Opens order (UInt32.ofNat length) (tail.take length)) :
      UnitTables order constAddPc bytes []
  /-- The sequences before the first failure that have rows are stored. -/
  | program
      {field tail left : Bytes}
      {length : Nat}
      {prologue : Prologue}
      {finished : List (List LineProgram.Row)}
      {tables : List LineTable}
      (split : bytes = field ++ tail)
      (announced : Announces order field length)
      (opens : prologue.Opens order (UInt32.ofNat length) (tail.take length))
      (completes :
        Sequences.Completes prologue.header constAddPc order
          (prologue.programBytes (tail.take length)) finished left)
      (stored :
        tables.map LineTable.parts =
          (finished.filter (· ≠ [])).map fun rows =>
            (prologue.directories, prologue.files, rows)) :
      UnitTables order constAddPc bytes tables

/-- Bytes that are cut into complete units, with the sequences of all of them. -/
inductive TiledByUnits
    (order : ByteOrder)
    (constAddPc : ConstAddPc) :
    Bytes → List (List LineProgram.Row) → Prop where
  | nil : TiledByUnits order constAddPc [] []
  | cons
      {field body rest : Bytes}
      {prologue : Prologue}
      {sequences later : List (List LineProgram.Row)}
      (complete : CompleteUnit order constAddPc field body prologue sequences)
      (laterUnits : TiledByUnits order constAddPc rest later) :
      TiledByUnits order constAddPc (field ++ body ++ rest) (sequences ++ later)

/-- What a unit gave is what it has to give, and a warning stands where it is not complete. -/
structure Accounted
    (order : ByteOrder)
    (constAddPc : ConstAddPc)
    (bytes : Bytes)
    (offset : Nat)
    (unit : LineSection) :
    Prop where
  tables : UnitTables order constAddPc bytes unit.tables
  warnings :
    unit.warnings = [] ∧ StartsComplete order constAddPc bytes ∨
      ∃ warning,
        unit.warnings = [warning] ∧
          warning.offset = offset ∧ ¬ StartsComplete order constAddPc bytes

/-! ## Each unit gives it -/

/-- Where no length is announced, a warning is all that a unit gives. -/
theorem accounted_noLength
    {bytes : Bytes}
    (unannounced :
      ∀ field tail length, bytes = field ++ tail → ¬ Announces order field length)
    (warning : Warning)
    (here : warning.offset = offset) :
    Accounted order constAddPc bytes offset { tables := [], warnings := [warning] } where
  tables := .noLength unannounced
  warnings := by
    refine .inr ⟨warning, rfl, here, ?_⟩
    rintro ⟨field, body, rest, prologue, sequences, split, complete⟩
    exact unannounced field (body ++ rest) body.length split complete.announced

/-- A frame is cut exactly where fewer bytes follow its length field than are announced. -/
theorem cutFailure?_eq_none_iff
    {length : Nat}
    (announced : Announces order field length) :
    cutFailure? {
        offset := offset
        claimed := UInt32.ofNat length
        body := tail.take length
      } = none ↔ length ≤ tail.length := by
  simp only [cutFailure?, Frame.isCut, announced.toNat_ofNat, List.length_take]
  simp

variable (constAddPc) in
/-- After an announced length, a complete unit is one that opens and whose program does not fail. -/
theorem startsComplete_iff
    {length : Nat}
    {prologue : Prologue}
    (fits : (field ++ tail).length < addressLimit)
    (announced : Announces order field length)
    (opens : prologue.Opens order (UInt32.ofNat length) (tail.take length)) :
    StartsComplete order constAddPc (field ++ tail) ↔
      (Sequences.run prologue.header constAddPc
          (prologue.programCursor order (tail.take length))).failure = none ∧
        length ≤ tail.length := by
  have bodyFits : (tail.take length).length < addressLimit := by
    rw [List.length_append] at fits
    rw [List.length_take]
    omega
  have placed := opens.placed bodyFits
  constructor
  · rintro ⟨other, body, rest, otherPrologue, sequences, split, complete⟩
    obtain ⟨rfl, rfl, rfl⟩ := announced.unique complete.announced split.symm
    rw [List.take_left] at opens placed bodyFits ⊢
    obtain rfl := opens.unique bodyFits complete.opens
    rw [Sequences.run_of_tiles complete.tiled placed rfl rfl, List.length_append]
    exact ⟨rfl, Nat.le_add_right _ _⟩
  · rintro ⟨noFailure, whole⟩
    have sameLength : (tail.take length).length = length :=
      List.length_take_of_le whole
    obtain ⟨left, ⟨⟨front, split, tiled⟩, -⟩, noFailure_iff⟩ :=
      Sequences.exists_completes placed
    obtain rfl := noFailure_iff.mp noFailure
    rw [List.append_nil] at split
    rw [← split] at tiled
    refine ⟨field, tail.take length, tail.drop length, prologue, _, ?_, ?_, ?_, tiled⟩
    · rw [List.take_append_drop]
    · rwa [sameLength]
    · rwa [sameLength]

/-- A unit whose length is announced is accounted for. -/
theorem accounted_of_announces
    {length : Nat}
    (fits : (field ++ tail).length < addressLimit)
    (announced : Announces order field length) :
    Accounted order constAddPc (field ++ tail) offset
      (ofFrame order constAddPc {
        offset := offset
        claimed := UInt32.ofNat length
        body := tail.take length
      }) := by
  have bodyFits : (tail.take length).length < addressLimit := by
    rw [List.length_append] at fits
    rw [List.length_take]
    omega
  by_cases opened :
      ∃ prologue : Prologue, prologue.Opens order (UInt32.ofNat length) (tail.take length)
  · obtain ⟨prologue, opens⟩ := opened
    have complete_iff := startsComplete_iff constAddPc fits announced opens
    have uncut_iff :
        cutFailure? {
            offset := offset
            claimed := UInt32.ofNat length
            body := tail.take length
          } = none ↔ length ≤ tail.length :=
      cutFailure?_eq_none_iff announced
    obtain ⟨left, completes, -⟩ := Sequences.exists_completes (opens.placed bodyFits)
    rw [ofFrame_opens offset bodyFits opens rfl]
    constructor
    · exact .program rfl announced opens completes (parts_tablesOf prologue _)
    · -- The warning is the first of two failures, so there is none where there is neither.
      rw [← uncut_iff, ← Option.or_eq_none_iff] at complete_iff
      cases failure :
          (Sequences.run prologue.header constAddPc
            (prologue.programCursor order (tail.take length))).failure.or (cutFailure? _) with
      | none =>
          exact .inl ⟨rfl, complete_iff.mpr failure⟩
      | some cause =>
          refine .inr ⟨unitWarning offset cause, rfl, rfl, ?_⟩
          rw [complete_iff, failure]
          simp
  · have closed (prologue : Prologue) :
        ¬ prologue.Opens order (UInt32.ofNat length) (tail.take length) :=
      fun opens => opened ⟨prologue, opens⟩
    obtain ⟨cause, decoded⟩ := ofFrame_closed constAddPc offset bodyFits closed
    rw [decoded]
    constructor
    · exact .noPrologue rfl announced closed
    · refine .inr ⟨unitWarning offset cause, rfl, rfl, ?_⟩
      rintro ⟨other, body, rest, prologue, sequences, split, complete⟩
      obtain ⟨rfl, rfl, rfl⟩ := announced.unique complete.announced split.symm
      rw [List.take_left] at closed
      exact closed prologue complete.opens

/-- The unit at each offset of the section is accounted for. -/
theorem unitAt_accounted
    (fits : data.length < addressLimit)
    (started : data.drop offset ≠ []) :
    Accounted order constAddPc (data.drop offset) offset
      (unitAt order constAddPc data offset) := by
  have restFits : (data.drop offset).length < addressLimit := by
    rw [List.length_drop]
    omega
  generalize split : data.drop offset = bytes at started restFits ⊢
  cases shape order bytes with
  | finished =>
      exact (started rfl).elim
  | cutField nonempty short =>
      rw [unitAt_cutField (by rwa [split])]
      refine accounted_noLength ?_ _ rfl
      rintro field tail length rfl announced
      rw [List.length_append, announced.size] at short
      omega
  | @wide field tail size marked =>
      rw [unitAt_wide split size marked]
      refine accounted_noLength ?_ _ rfl
      intro other otherTail length same announced
      obtain ⟨rfl, -⟩ := List.append_inj same (size.trans announced.size.symm)
      exact announced.narrow (announced.number.symm.trans marked)
  | cutUnit announced short =>
      rw [unitAt_frame split announced]
      exact accounted_of_announces restFits announced
  | unit announced later =>
      rw [List.append_assoc] at split restFits ⊢
      rw [unitAt_frame split announced]
      exact accounted_of_announces restFits announced

/-! ## The whole section -/

/-- Warnings name the offsets of the units that are not complete, in order. -/
theorem warnings_of_accounted
    {offsets : List Nat}
    {unit : Nat → LineSection}
    (accounted :
      ∀ offset ∈ offsets, Accounted order constAddPc (data.drop offset) offset (unit offset)) :
    ((offsets.flatMap fun offset => (unit offset).warnings).map (·.offset)).Sublist offsets ∧
      ∀ offset,
        offset ∈ (offsets.flatMap fun offset => (unit offset).warnings).map (·.offset) ↔
          offset ∈ offsets ∧ ¬ StartsComplete order constAddPc (data.drop offset) := by
  induction offsets with
  | nil =>
      simp
  | cons first later inductionHypothesis =>
      obtain ⟨ordered, named⟩ :=
        inductionHypothesis fun offset member => accounted offset (by simp [member])
      rw [List.flatMap_cons, List.map_append]
      rcases (accounted first (by simp)).warnings with
        ⟨quiet, complete⟩ | ⟨warning, warned, here, incomplete⟩
      · rw [quiet, List.map_nil, List.nil_append]
        refine ⟨ordered.cons first, fun offset => ?_⟩
        rw [named, List.mem_cons]
        constructor
        · rintro ⟨member, incomplete⟩
          exact ⟨.inr member, incomplete⟩
        · rintro ⟨rfl | member, incomplete⟩
          · exact (incomplete complete).elim
          · exact ⟨member, incomplete⟩
      · rw [warned, List.map_singleton, here, List.singleton_append]
        refine ⟨ordered.cons_cons first, fun offset => ?_⟩
        rw [List.mem_cons, named, List.mem_cons]
        constructor
        · rintro (rfl | ⟨member, incompleteToo⟩)
          · exact ⟨.inl rfl, incomplete⟩
          · exact ⟨.inr member, incompleteToo⟩
        · rintro ⟨rfl | member, incompleteToo⟩
          · exact .inl rfl
          · exact .inr ⟨member, incompleteToo⟩

theorem startsComplete_of_quiet
    {bytes : Bytes}
    {unit : LineSection}
    (accounted : Accounted order constAddPc bytes offset unit)
    (quiet : unit.warnings = []) :
    StartsComplete order constAddPc bytes := by
  rcases accounted.warnings with ⟨-, complete⟩ | ⟨warning, warned, -⟩
  · exact complete
  · rw [quiet] at warned
    cases warned

/-- A complete unit gives a table for each of its sequences that has rows. -/
theorem tables_of_complete
    {body rest : Bytes}
    {prologue : Prologue}
    {sequences : List (List LineProgram.Row)}
    (fits : (data.drop offset).length < addressLimit)
    (split : data.drop offset = field ++ (body ++ rest))
    (complete : CompleteUnit order constAddPc field body prologue sequences) :
    (unitAt order constAddPc data offset).tables = tablesOf prologue sequences := by
  have bodyFits : body.length < addressLimit := by
    rw [split, List.length_append, List.length_append] at fits
    omega
  have ran :=
    Sequences.run_of_tiles complete.tiled (complete.opens.placed bodyFits) rfl rfl
  rw [unitAt_frame split complete.announced, List.take_left,
    ofFrame_opens offset bodyFits complete.opens ran]

/-- Units that give no warning tile what is left of the section, and all their rows are stored. -/
theorem tiled_of_quiet
    {bytes : Bytes}
    (shape : Shape order bytes)
    (fits : data.length < addressLimit)
    (split : data.drop offset = bytes)
    (quiet :
      ∀ other ∈ unitOffsets order offset bytes,
        (unitAt order constAddPc data other).warnings = []) :
    ∃ sequences,
      TiledByUnits order constAddPc bytes sequences ∧
        ((unitOffsets order offset bytes).flatMap
            fun other => (unitAt order constAddPc data other).tables).flatMap (·.rows) =
          sequences.flatten := by
  have restFits : bytes.length < addressLimit := by
    rw [← split, List.length_drop]
    omega
  induction shape generalizing offset with
  | finished =>
      exact ⟨[], .nil, by rw [unitOffsets_nil]; rfl⟩
  | cutField nonempty short =>
      simp [unitOffsets_cutField nonempty short, unitAt_cutField (split ▸ short)] at quiet
  | wide size marked =>
      simp [unitOffsets_wide size marked, unitAt_wide split size marked] at quiet
  | @cutUnit field body claimed announced short =>
      have quietHere := quiet offset (by simp [unitOffsets_cutUnit announced short])
      have accounted : Accounted order constAddPc (data.drop offset) offset _ :=
        unitAt_accounted fits (by rw [split]; exact ne_nil_of_field announced.size)
      obtain ⟨other, otherBody, rest, prologue, sequences, same, complete⟩ :=
        startsComplete_of_quiet accounted quietHere
      rw [split] at same
      obtain ⟨-, sameTail, rfl⟩ := announced.unique complete.announced same.symm
      rw [← sameTail, List.length_append] at short
      omega
  | @unit field body rest announced later inductionHypothesis =>
      rw [unitOffsets_unit announced] at quiet ⊢
      have laterSplit : data.drop (offset + (field ++ body).length) = rest := by
        rw [← List.drop_drop, split, List.drop_left]
      rw [List.append_assoc] at split restFits
      have accounted : Accounted order constAddPc (data.drop offset) offset _ :=
        unitAt_accounted fits (by rw [split]; exact ne_nil_of_field announced.size)
      obtain ⟨other, otherBody, otherRest, prologue, sequences, same, complete⟩ :=
        startsComplete_of_quiet accounted (quiet offset (by simp))
      rw [split] at same
      -- The complete unit is the one that the length field cuts out.
      obtain ⟨rfl, sameTail, sameLength⟩ := announced.unique complete.announced same.symm
      obtain ⟨rfl, rfl⟩ := List.append_inj sameTail sameLength
      obtain ⟨laterSequences, tiled, stored⟩ :=
        inductionHypothesis laterSplit
          (fun other member => quiet other (List.mem_cons_of_mem offset member))
          (by
            rw [List.length_append, List.length_append] at restFits
            omega)
      refine ⟨sequences ++ laterSequences, .cons complete tiled, ?_⟩
      rw [List.flatMap_cons, List.flatMap_append, stored,
        tables_of_complete (by rwa [split]) split complete, rows_tablesOf, List.flatten_append]

/--
What decoding a section has to give: at each unit's offset at most one warning,
and none exactly where a complete unit starts; the tables of each unit; and without
warnings, all rows of units that tile the section.
-/
structure AllAccounted
    (order : ByteOrder)
    (constAddPc : ConstAddPc)
    (data : Bytes)
    (decoded : LineSection) :
    Prop where
  increasing : (decoded.warnings.map (·.offset)).Pairwise (· < ·)
  warned_iff :
    ∀ offset,
      offset ∈ decoded.warnings.map (·.offset) ↔
        offset ∈ unitOffsets order 0 data ∧
          ¬ StartsComplete order constAddPc (data.drop offset)
  tables :
    ∃ tables,
      decoded.tables = tables.flatten ∧
        List.Forall₂ (fun offset => UnitTables order constAddPc (data.drop offset))
          (unitOffsets order 0 data) tables
  tiled :
    decoded.warnings = [] →
      ∃ sequences,
        TiledByUnits order constAddPc data sequences ∧
          decoded.tables.flatMap (·.rows) = sequences.flatten

variable (order constAddPc data) in
/-- Nothing of a section that fits into memory is lost silently. -/
theorem decode_allAccounted
    (room : data.length + 4 ≤ addressLimit) :
    AllAccounted order constAddPc data (decode order constAddPc data) := by
  have fits : data.length < addressLimit := by omega
  have accounted (offset : Nat) (member : offset ∈ unitOffsets order 0 data) :
      Accounted order constAddPc (data.drop offset) offset
        (unitAt order constAddPc data offset) :=
    unitAt_accounted fits (drop_ne_nil_of_mem_unitOffsets (shape order data) rfl member)
  obtain ⟨sameTables, sameWarnings⟩ := decode_eq_units order constAddPc room
  obtain ⟨ordered, named⟩ := warnings_of_accounted accounted
  rw [← sameWarnings] at ordered named
  constructor
  · exact (unitOffsets_increasing (shape order data) 0).1.sublist ordered
  · exact named
  · refine ⟨(unitOffsets order 0 data).map fun offset => (unitAt order constAddPc data offset).tables,
      ?_, ?_⟩
    · rw [sameTables, List.flatMap_def]
    · rw [List.forall₂_map_right_iff]
      exact List.forall₂_same.mpr fun offset member => (accounted offset member).tables
  · intro quiet
    rw [sameWarnings, List.flatMap_eq_nil_iff] at quiet
    rw [sameTables]
    exact tiled_of_quiet (shape order data) fits rfl quiet

/-- A complete unit of one sequence, and a unit that the section ends in. -/
def cutSection : Bytes :=
  [17, 0, 0, 0, 2, 0, 7, 0, 0, 0, 1, 1, 0, 1, 1, 0, 0, 1, 0, 1, 1] ++ [9, 0, 0, 0, 2]

theorem decode_allAccounted_cutSection :
    cutSection.length + 4 ≤ addressLimit ∧
      AllAccounted .little .standard cutSection (decode .little .standard cutSection) ∧
      (decode .little .standard cutSection).warnings.map (·.offset) = [21] := by
  have room : cutSection.length + 4 ≤ addressLimit := by
    decide
  refine ⟨room, decode_allAccounted .little .standard cutSection room, ?_⟩
  decide +kernel

end LineSection

end LineAtlas
