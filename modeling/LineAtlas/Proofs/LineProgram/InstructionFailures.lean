import LineAtlas.Proofs.Failures
import LineAtlas.Proofs.LineProgram.InstructionLocality

namespace LineAtlas.LineProgram

/-!
# What instructions fail with

An instruction cannot be read if there are too few bytes or if an operand does not
fit into 64 bits, whichever of its fields that is. The check of the room ahead of an
extended instruction passes where it passed before when the data goes on, since it
looks at the position and not at the data.
-/

namespace Instruction

theorem requireAhead_apply
    (count : Nat)
    (cursor : Cursor) :
    requireAhead count cursor =
      if addressLimit ≤ cursor.position + count then
        .error (.overflow "extended opcode") cursor
      else
        .ok () cursor := by
  show (if addressLimit ≤ cursor.position + count then _ else _ : Reader Unit) cursor = _
  split
  · rfl
  · rfl

theorem extends_requireAhead (count : Nat) : (requireAhead count).Extends := by
  intro cursor more value after placed fits success
  rw [requireAhead_apply] at success ⊢
  split at success
  · cases success
  · next room =>
      cases success
      exact ⟨placed, rfl, if_neg room⟩

theorem failsWith_requireAhead (count : Nat) :
    (requireAhead count).FailsWith ReadError.OfOperand where
  among cursor cause stopped roomy failure := by
    rw [requireAhead_apply] at failure
    split at failure
    · cases failure
      exact .inr rfl
    · cases failure
  truncates cursor more value after cause stopped placed fits success failure := by
    rw [requireAhead_apply] at success failure
    split at failure
    · next noRoom =>
        rw [if_pos (by simpa using noRoom)] at success
        cases success
    · cases failure

theorem failsWith_readExtendedOperand
    (opcode : ExtendedOpcode)
    (size : Nat) :
    (readExtendedOperand opcode size).FailsWith ReadError.OfOperand := by
  cases opcode with
  | setAddress =>
      simp only [readExtendedOperand]
      split
      · next usual =>
          exact (Reader.failsWith_address (isAddressSize_iff.mp usual)).bind_local
            (Reader.local_address size) fun _ => Reader.failsWith_pure _
      · exact Reader.failsWith_pure _
  | _ =>
      exact Reader.failsWith_pure _

theorem failsWith_finish (fetched : Fetched) :
    (finish fetched).FailsWith ReadError.OfOperand :=
  (Reader.failsWith_skip fetched.surplus).bind_local (Reader.local_skip fetched.surplus) fun _ =>
    Reader.failsWith_pure fetched.instruction

theorem failsWith_readOperand
    (opcode : ExtendedOpcode)
    (size : Nat) :
    (readOperand opcode size).FailsWith ReadError.OfOperand :=
  (failsWith_requireAhead size).bind (extends_requireAhead size) fun _ =>
    (failsWith_readExtendedOperand opcode size).bind_local
      (local_readExtendedOperand opcode size) failsWith_finish

theorem failsWith_count : Reader.unsigned.FailsWith ReadError.OfOperand := by
  refine Reader.failsWith_unsigned.mono ?_
  rintro cause (short | rfl)
  · exact .inl short
  · exact .inr rfl

theorem failsWith_readStandard (opcode : StandardOpcode) :
    (readStandard opcode).FailsWith ReadError.OfOperand := by
  cases opcode
  case advancePc =>
    exact failsWith_count.bind_local Reader.local_unsigned fun _ => Reader.failsWith_pure _
  case advanceLine =>
    exact Reader.failsWith_signed.bind_local Reader.local_signed fun _ => Reader.failsWith_pure _
  case setFile =>
    exact failsWith_count.bind_local Reader.local_unsigned fun _ => Reader.failsWith_pure _
  case setColumn =>
    exact failsWith_count.bind_local Reader.local_unsigned fun _ => Reader.failsWith_pure _
  case fixedAdvancePc =>
    have number : Reader.uint16.FailsWith ReadError.OfOperand :=
      Reader.failsWith_uint16.mono fun _ => .inl
    exact number.bind_local Reader.local_uint16 fun _ => Reader.failsWith_pure _
  all_goals exact Reader.failsWith_pure _

theorem failsWith_opcode : Reader.uint8.FailsWith ReadError.OfOperand :=
  Reader.failsWith_uint8.mono fun _ => .inl

theorem failsWith_readExtended_finish :
    (readExtended >>= finish).FailsWith ReadError.OfOperand := by
  rw [readExtended_finish]
  refine failsWith_count.bind_local Reader.local_unsigned fun length => ?_
  split
  · exact failsWith_finish _
  · exact failsWith_opcode.bind_local Reader.local_uint8 fun opcode =>
      failsWith_readOperand _ _

theorem failsWith_readWhole
    (header : Header)
    (opcode : UInt8) :
    (readWhole header opcode).FailsWith ReadError.OfOperand := by
  show (read header opcode >>= finish).FailsWith _
  unfold read
  split
  · exact failsWith_readExtended_finish
  · split
    · rw [bind_assoc]
      exact (failsWith_readStandard _).bind_local (local_readStandard _) fun _ =>
        failsWith_finish _
    · exact failsWith_finish _
    · rw [bind_assoc]
      exact (failsWith_count.times Reader.local_unsigned _).bind_local
        (Reader.local_unsigned.times _) fun _ => failsWith_finish _

theorem failsWith_next (header : Header) : (next header).FailsWith ReadError.OfOperand :=
  failsWith_opcode.bind_local Reader.local_uint8 (failsWith_readWhole header)

theorem failsWith_sequence (header : Header) :
    (sequence header).FailsWith ReadError.OfOperand :=
  ((failsWith_next header).map (local_next header) inside?).collect
    ((local_next header).map inside?)

end Instruction

/-- A sequence fails with what one of its instructions fails with. -/
theorem failsWith_runSequence
    (header : Header)
    (constAddPc : ConstAddPc) :
    (runSequence header constAddPc).FailsWith ReadError.OfOperand := by
  rw [runSequence_eq]
  exact (Instruction.failsWith_sequence header).map (Instruction.local_sequence header) _

end LineAtlas.LineProgram
