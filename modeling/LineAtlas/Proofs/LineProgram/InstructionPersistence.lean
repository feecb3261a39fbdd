import LineAtlas.Proofs.Persistence
import LineAtlas.Proofs.LineProgram.History
import LineAtlas.Proofs.LineProgram.InstructionFailures

namespace LineAtlas.LineProgram

/-!
# Sequences are decided by their own bytes

An instruction with an operand that does not fit into 64 bits fails for it, whatever comes
after it. This holds of the numbers, of the room ahead of an extended instruction, and of
the bytes that are skipped, and so of all instructions up to the end of a sequence.

The main statement is that what comes after a sequence changes neither its rows nor its
failure, and that no front of a sequence is one.
-/

namespace Instruction

theorem persists_requireAhead (count : Nat) : (requireAhead count).Persists := by
  intro cursor more cause stopped placed fits failure notShort
  rw [requireAhead_apply] at failure ⊢
  split at failure
  · next noRoom =>
      cases failure
      exact if_pos noRoom
  · cases failure

theorem persists_readExtendedOperand
    (opcode : ExtendedOpcode)
    (size : Nat) :
    (readExtendedOperand opcode size).Persists := by
  cases opcode with
  | setAddress =>
      simp only [readExtendedOperand]
      split
      · exact (Reader.persists_address size).bind_local (Reader.local_address size) fun _ =>
          Reader.persists_pure _
      · exact Reader.persists_pure _
  | _ =>
      exact Reader.persists_pure _

theorem persists_finish (fetched : Fetched) : (finish fetched).Persists :=
  (Reader.persists_skip fetched.surplus).bind_local (Reader.local_skip fetched.surplus) fun _ =>
    Reader.persists_pure fetched.instruction

theorem persists_readOperand
    (opcode : ExtendedOpcode)
    (size : Nat) :
    (readOperand opcode size).Persists :=
  (persists_requireAhead size).bind (extends_requireAhead size) fun _ =>
    (persists_readExtendedOperand opcode size).bind_local
      (local_readExtendedOperand opcode size) persists_finish

theorem persists_readStandard (opcode : StandardOpcode) : (readStandard opcode).Persists := by
  cases opcode
  case advancePc =>
    exact Reader.persists_unsigned.bind_local Reader.local_unsigned fun _ => Reader.persists_pure _
  case advanceLine =>
    exact Reader.persists_signed.bind_local Reader.local_signed fun _ => Reader.persists_pure _
  case setFile =>
    exact Reader.persists_unsigned.bind_local Reader.local_unsigned fun _ => Reader.persists_pure _
  case setColumn =>
    exact Reader.persists_unsigned.bind_local Reader.local_unsigned fun _ => Reader.persists_pure _
  case fixedAdvancePc =>
    exact Reader.persists_uint16.bind_local Reader.local_uint16 fun _ => Reader.persists_pure _
  all_goals exact Reader.persists_pure _

theorem persists_readExtended_finish : (readExtended >>= finish).Persists := by
  rw [readExtended_finish]
  refine Reader.persists_unsigned.bind_local Reader.local_unsigned fun length => ?_
  split
  · exact persists_finish _
  · exact Reader.persists_uint8.bind_local Reader.local_uint8 fun opcode =>
      persists_readOperand _ _

theorem persists_readWhole
    (header : Header)
    (opcode : UInt8) :
    (readWhole header opcode).Persists := by
  show (read header opcode >>= finish).Persists
  unfold read
  split
  · exact persists_readExtended_finish
  · split
    · rw [bind_assoc]
      exact (persists_readStandard _).bind_local (local_readStandard _) fun _ =>
        persists_finish _
    · exact persists_finish _
    · rw [bind_assoc]
      exact (Reader.persists_unsigned.times Reader.local_unsigned _).bind_local
        (Reader.local_unsigned.times _) fun _ => persists_finish _

/-- An instruction that is refused is refused, whatever comes after it. -/
theorem persists_next (header : Header) : (next header).Persists :=
  Reader.persists_uint8.bind_local Reader.local_uint8 (persists_readWhole header)

theorem persists_sequence (header : Header) : (sequence header).Persists :=
  ((persists_next header).map (local_next header) inside?).collect
    ((local_next header).map inside?)

end Instruction

variable
  (header : Header)
  (constAddPc : ConstAddPc)

/-- A sequence that is refused is refused, whatever comes after it. -/
theorem persists_runSequence : (runSequence header constAddPc).Persists := by
  rw [runSequence_eq]
  exact (Instruction.persists_sequence header).map (Instruction.local_sequence header) _

/--
What comes after a sequence changes neither its rows nor its failure, and a front of a
sequence is too short to be one.
-/
theorem selfContained_runSequence
    (order : ByteOrder)
    (program tail : Bytes)
    (fits : (program ++ tail).length < addressLimit) :
    (runSequence header constAddPc).SelfContained order program tail :=
  Reader.selfContained_of_local
    (local_runSequence header constAddPc)
    (failsWith_runSequence header constAddPc)
    (persists_runSequence header constAddPc)
    order
    fits

/-- A row, and then an address advance of ten groups and more. -/
def overlongProgram : Bytes :=
  [1, 2] ++ List.replicate 10 128 ++ [0]

theorem selfContained_runSequence_overlongProgram :
    (overlongProgram ++ [0xAA]).length < addressLimit ∧
      (runSequence wideHeader .standard (.ofBytes .little (overlongProgram ++ [0xAA])) =
        .error Base128.unsignedOverflow
          ((Cursor.ofBytes .little (overlongProgram ++ [0xAA])).advance 2)) ∧
      (assemble .little wrappingProgram ++ [0xAA]).length < addressLimit ∧
      ∃ rows,
        rows.length = 3 ∧
        runSequence wideHeader .standard
            (.ofBytes .little (assemble .little wrappingProgram ++ [0xAA])) =
          .ok rows
            ((Cursor.ofBytes .little (assemble .little wrappingProgram ++ [0xAA])).advance 42) ∧
        ∃ cause stopped,
          runSequence wideHeader .standard
              (.ofBytes .little ((assemble .little wrappingProgram).take 41)) =
            .error cause stopped ∧
          cause.isTruncation = true := by
  have overlongFits : (overlongProgram ++ [0xAA]).length < addressLimit := by
    decide +kernel
  have wholeFits : (assemble .little wrappingProgram ++ [0xAA]).length < addressLimit := by
    decide +kernel
  have fits : (assemble .little wrappingProgram).length < addressLimit := by
    decide +kernel
  have size : (assemble .little wrappingProgram).length = 42 := by
    decide +kernel
  have unread :
      Instruction.sequence wideHeader (.ofBytes .little overlongProgram) =
        .error Base128.unsignedOverflow ((Cursor.ofBytes .little overlongProgram).advance 2) := by
    refine Reader.collect_eq_error_iff.mpr (.inr ⟨.copy, _, rfl, ?_⟩)
    exact Reader.collect_eq_error_iff.mpr (.inl rfl)
  have failed := runSequence_of_sequence_error .standard unread
  have refused := selfContained_runSequence wideHeader .standard .little _ _ overlongFits
  have finished := selfContained_runSequence wideHeader .standard .little _ _ wholeFits
  have ran := (reads_runSequence_assemble .little .standard wrappingProgram fits).takesAll fits
  have whole := finished.found _ _ ran
  rw [Reader.TakesAll, size] at ran
  rw [size] at whole
  have cut :=
    finished.cut _ _ ((assemble .little wrappingProgram).take 41) ran
      (List.take_prefix_take_left (by decide))
      (by simp [Cursor.ofBytes, Cursor.advance])
  exact ⟨overlongFits, refused.failed _ _ failed rfl, wholeFits, _,
    by decide +kernel, whole, cut⟩

end LineAtlas.LineProgram
