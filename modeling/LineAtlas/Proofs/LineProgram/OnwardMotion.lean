import LineAtlas.Proofs.LineProgram.ConstAdvance

namespace LineAtlas.LineProgram

/-!
# Sequences that never move back

Instructions move the address on or set it. A sequence moves onward if no advance
passes the 64-bit limit and if no address that is set once there is a row lies below
the one before. The rows of such a sequence are in the order of their addresses. No
condition is put on addresses that are set before the first row.
-/

namespace Instruction

/-- The address that an instruction sets, if it sets one. -/
def address? : Instruction → Option UInt64
  | setAddress address => some address
  | _ => none

/--
How far an instruction moves the address on. The product of an advance has 64 bits like
the address, so it may already have lost its upper part.
-/
def addressAdvance
    (header : Header)
    (constAddPc : ConstAddPc) :
    Instruction → UInt64
  | advancePc count => count * header.minimumInstructionLength.toUInt64
  | .constAddPc =>
      match constAddPc with
      | .ignore => 0
      | .standard => header.constantAdvance
  | fixedAdvancePc count => count.toUInt64
  | special advance => advance.address
  | copy | advanceLine _ | setFile _ | setColumn _ | negateStatement | setBasicBlock
  | endSequence | setAddress _ | ignored => 0

/--
After the instructions `executed`, which have left the given address, an instruction
does not move it back.
-/
structure Onward
    (header : Header)
    (constAddPc : ConstAddPc)
    (executed : List Instruction)
    (address : UInt64)
    (instruction : Instruction) :
    Prop where
  /-- The advance does not pass the limit. -/
  fits : address.toNat + (instruction.addressAdvance header constAddPc).toNat < UInt64.size
  /-- Once there is a row, an address that is set is not below the one before. -/
  notBelow :
    executed.any (·.appendsRow) = true →
      ∀ set ∈ instruction.address?, address ≤ set

instance
    (header : Header)
    (constAddPc : ConstAddPc)
    (executed : List Instruction)
    (address : UInt64)
    (instruction : Instruction) :
    Decidable (instruction.Onward header constAddPc executed address) :=
  -- `Option.all` keeps the check to the address that is set, of all 64-bit numbers.
  decidable_of_iff
    (address.toNat + (instruction.addressAdvance header constAddPc).toNat < UInt64.size ∧
      (executed.any (·.appendsRow) = true →
        (instruction.address?.all fun set => decide (address ≤ set)) = true))
    (by
      simp only [Option.all_eq_true, decide_eq_true_iff]
      exact ⟨fun ⟨fits, notBelow⟩ => ⟨fits, notBelow⟩, fun ⟨fits, notBelow⟩ => ⟨fits, notBelow⟩⟩)

end Instruction

variable
  {header : Header}
  {constAddPc : ConstAddPc}
  {registers : Registers}

/-- No instruction of a sequence moves the address back, from the given registers on. -/
def MovesOnward
    (header : Header)
    (constAddPc : ConstAddPc)
    (registers : Registers)
    (instructions : List Instruction) :
    Prop :=
  ∀ executed instruction,
    executed ++ [instruction] <+: instructions →
      instruction.Onward header constAddPc executed
        (registers.after header constAddPc executed).address

/-- It is enough to check the last instruction of every front of a sequence. -/
theorem movesOnward_iff_inits
    {instructions : List Instruction} :
    MovesOnward header constAddPc registers instructions ↔
      ∀ front ∈ instructions.inits,
        ∀ instruction ∈ front.getLast?,
          instruction.Onward header constAddPc front.dropLast
            (registers.after header constAddPc front.dropLast).address := by
  constructor
  · intro onward front member instruction isLast
    refine onward front.dropLast instruction ?_
    rw [List.dropLast_append_getLast? instruction isLast]
    exact (List.mem_inits _ _).mp member
  · intro checked executed instruction front
    have last := checked _ ((List.mem_inits _ _).mpr front) instruction (by simp)
    rwa [List.dropLast_concat] at last

instance
    (header : Header)
    (constAddPc : ConstAddPc)
    (registers : Registers)
    (instructions : List Instruction) :
    Decidable (MovesOnward header constAddPc registers instructions) :=
  decidable_of_iff _ movesOnward_iff_inits.symm

theorem movesOnward_concat_iff
    {executed : List Instruction}
    {instruction : Instruction} :
    MovesOnward header constAddPc registers (executed ++ [instruction]) ↔
      MovesOnward header constAddPc registers executed ∧
        instruction.Onward header constAddPc executed
          (registers.after header constAddPc executed).address := by
  constructor
  · intro onward
    refine ⟨?_, onward executed instruction (List.prefix_refl _)⟩
    intro earlier other front
    exact onward earlier other (front.trans (List.prefix_append executed [instruction]))
  · rintro ⟨onward, last⟩ earlier other front
    rcases List.prefix_concat_iff.mp front with whole | inside
    · obtain ⟨rfl, same⟩ := List.append_inj' whole rfl
      cases same
      exact last
    · exact onward earlier other inside

/-! ## One instruction -/

/-- The address after an instruction: the one that it sets, or the one before, and its advance. -/
theorem Registers.address_apply
    (instruction : Instruction) :
    (registers.apply header constAddPc instruction).1.address =
      instruction.address?.getD registers.address
        + instruction.addressAdvance header constAddPc := by
  cases instruction with
  | constAddPc =>
      cases constAddPc <;>
        simp [apply, advanceAddress, Instruction.address?, Instruction.addressAdvance]
  | _ =>
      simp [apply, emit, advanceAddress, advanceLine, Instruction.address?,
        Instruction.addressAdvance]

/-- An advance that stays below the limit does not lead back. -/
theorem le_add_of_fits
    {address advance : UInt64}
    (fits : address.toNat + advance.toNat < UInt64.size) :
    address ≤ address + advance := by
  rw [UInt64.le_iff_toNat_le, UInt64.toNat_add, Nat.mod_eq_of_lt fits]
  exact Nat.le_add_right _ _

/-- Once there is a row, an onward instruction leaves an address that is not below the one before. -/
theorem Registers.address_le_apply
    {executed : List Instruction}
    {instruction : Instruction}
    (onward : instruction.Onward header constAddPc executed registers.address)
    (started : executed.any (·.appendsRow) = true) :
    registers.address ≤ (registers.apply header constAddPc instruction).1.address := by
  cases instruction with
  | setAddress set =>
      exact onward.notBelow started set rfl
  | _ =>
      rw [address_apply]
      exact le_add_of_fits onward.fits

/-! ## Whole sequences -/

/-- The rows are in the order of their addresses, and none of them lies past the address. -/
structure Behind
    (rows : List Row)
    (address : UInt64) :
    Prop where
  ordered : rows.Pairwise fun earlier later => earlier.address ≤ later.address
  notPast : ∀ row ∈ rows, row.address ≤ address

/-- Rows that lie behind an address lie behind every later one. -/
theorem Behind.mono
    {rows : List Row}
    {near far : UInt64}
    (behind : Behind rows near)
    (onward : near ≤ far) :
    Behind rows far where
  ordered := behind.ordered
  notPast row member := UInt64.le_trans (behind.notPast row member) onward

/-- A row at the address itself can come after rows behind it. -/
theorem Behind.concat
    {rows : List Row}
    {row : Row}
    (behind : Behind rows row.address) :
    Behind (rows ++ [row]) row.address where
  ordered := by
    refine List.pairwise_append.mpr ⟨behind.ordered, List.pairwise_singleton _ _, ?_⟩
    intro earlier member last isLast
    rw [List.mem_singleton.mp isLast]
    exact behind.notPast earlier member
  notPast other member := by
    rcases List.mem_append.mp member with earlier | last
    · exact behind.notPast other earlier
    · rw [List.mem_singleton.mp last]
      exact UInt64.le_refl _

/-- The rows of a sequence that moves onward lie behind the address that it has reached. -/
theorem Registers.behind_of_movesOnward
    {instructions : List Instruction}
    (onward : MovesOnward header constAddPc registers instructions) :
    Behind
      (registers.rows header constAddPc instructions)
      (registers.after header constAddPc instructions).address := by
  -- The last instruction is split off, since what it may do depends on those before it.
  induction instructions using List.reverseRecOn with
  | nil =>
      exact ⟨.nil, by simp [rows]⟩
  | append_singleton executed instruction inductionHypothesis =>
      obtain ⟨earlierOnward, lastOnward⟩ := movesOnward_concat_iff.mp onward
      have behind := inductionHypothesis earlierOnward
      have moved :
          Behind
            (registers.rows header constAddPc executed)
            ((registers.after header constAddPc executed).apply
              header constAddPc instruction).1.address := by
        cases started : executed.any (·.appendsRow) with
        | true =>
            exact behind.mono (address_le_apply lastOnward started)
        | false =>
            rw [rows_eq_map_upToRows, upToRows_eq_nil_iff.mpr started]
            exact ⟨.nil, by simp⟩
      rw [after_concat, rows_concat, toList_apply]
      cases instruction.appendsRow with
      | true =>
          exact moved.concat
      | false =>
          simpa using moved

/-- Whenever the instructions of a program can be read, they never move the address back. -/
def RunsOnward
    (header : Header)
    (constAddPc : ConstAddPc)
    (program : Cursor) :
    Prop :=
  ∀ instructions after,
    Instruction.sequence header program = .ok instructions after →
      MovesOnward header constAddPc (.initial header.defaultIsStatement) instructions

/-- The rows of a program that runs onward are in the order of their addresses. -/
theorem pairwise_of_runsOnward
    {program after : Cursor}
    {rows : List Row}
    (ran : runSequence header constAddPc program = .ok rows after)
    (onward : RunsOnward header constAddPc program) :
    rows.Pairwise fun earlier later => earlier.address ≤ later.address := by
  rw [runSequence_eq, ← bind_pure_comp] at ran
  obtain ⟨instructions, between, read, returned⟩ := bind_eq_ok_iff.mp ran
  cases returned
  exact (Registers.behind_of_movesOnward (onward instructions after read)).ordered

end LineAtlas.LineProgram
