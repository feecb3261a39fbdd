import LineAtlas.Bytes
import Mathlib.Algebra.Group.Nat.Defs

namespace LineAtlas

/-!
# Writing fields of fixed width

A field of `n` bytes holds a number below `256 ^ n`. `ByteOrder.field` writes a
number into a given count of bytes, and reading the field gives back what the
width can hold of it.
-/

/-- A field of `n` bytes holds a number below `256 ^ n`. -/
theorem littleNumber_lt
    (field : Bytes) :
    littleNumber field < 256 ^ field.length := by
  induction field with
  | nil =>
      simp [littleNumber]
  | cons byte rest inductionHypothesis =>
      have byteBound : byte.toNat < 256 := byte.toNat_lt
      simp only [littleNumber, List.length_cons, Nat.pow_succ]
      omega

/-- The order of a field's bytes does not change how large its number can be. -/
theorem ByteOrder.number_lt
    (order : ByteOrder)
    (field : Bytes) :
    order.number field < 256 ^ field.length := by
  cases order with
  | little =>
      exact littleNumber_lt field
  | big =>
      simpa [ByteOrder.number] using littleNumber_lt field.reverse

/-- The `width` low bytes of a number, the least significant one first. -/
def littleField : Nat → Nat → Bytes
  | 0, _ => []
  | width + 1, number => UInt8.ofNat number :: littleField width (number / 256)

/-- The field of `width` bytes that holds a number in the given order. -/
def ByteOrder.field
    (order : ByteOrder)
    (width number : Nat) :
    Bytes :=
  match order with
  | .little => littleField width number
  | .big => (littleField width number).reverse

theorem length_littleField
    (width number : Nat) :
    (littleField width number).length = width := by
  induction width generalizing number with
  | zero =>
      rfl
  | succ width inductionHypothesis =>
      simp [littleField, inductionHypothesis]

@[simp] theorem ByteOrder.length_field
    (order : ByteOrder)
    (width number : Nat) :
    (order.field width number).length = width := by
  cases order <;> simp [ByteOrder.field, length_littleField]

/-- One byte holds the remainder of a number by 256. -/
theorem ByteOrder.field_one
    (order : ByteOrder)
    (number : Nat) :
    order.field 1 number = [UInt8.ofNat number] := by
  cases order <;> rfl

/-- The low bytes of a number hold its remainder by the range of the width. -/
theorem littleNumber_littleField
    (width number : Nat) :
    littleNumber (littleField width number) = number % 256 ^ width := by
  induction width generalizing number with
  | zero =>
      simp [littleField, littleNumber, Nat.mod_one]
  | succ width inductionHypothesis =>
      have lowByte : (UInt8.ofNat number).toNat = number % 256 := by
        simp
      rw [littleField, littleNumber, inductionHypothesis, lowByte,
        Nat.pow_succ, Nat.mul_comm (256 ^ width) 256, Nat.mod_mul]

/-- The low bytes of the number that a field holds are the field. -/
theorem littleField_littleNumber
    (field : Bytes) :
    littleField field.length (littleNumber field) = field := by
  induction field with
  | nil =>
      rfl
  | cons byte rest inductionHypothesis =>
      have byteBound : byte.toNat < 256 := byte.toNat_lt
      have lowByte : UInt8.ofNat (byte.toNat + 256 * littleNumber rest) = byte := by
        apply UInt8.toNat_inj.mp
        rw [UInt8.toNat_ofNat']
        omega
      have highBytes : (byte.toNat + 256 * littleNumber rest) / 256 = littleNumber rest := by
        omega
      rw [littleNumber, List.length_cons, littleField, lowByte, highBytes, inductionHypothesis]

/-- A field is written again from the number that it holds. -/
theorem ByteOrder.field_number
    (order : ByteOrder)
    (field : Bytes) :
    order.field field.length (order.number field) = field := by
  cases order with
  | little =>
      exact littleField_littleNumber field
  | big =>
      have written := littleField_littleNumber field.reverse
      rw [List.length_reverse] at written
      rw [ByteOrder.field, ByteOrder.number, written, List.reverse_reverse]

/-- A number that fits into a field is read back from it. -/
theorem ByteOrder.number_field
    (order : ByteOrder)
    {width number : Nat}
    (small : number < 256 ^ width) :
    order.number (order.field width number) = number := by
  have low := littleNumber_littleField width number
  rw [Nat.mod_eq_of_lt small] at low
  cases order with
  | little =>
      exact low
  | big =>
      simpa [ByteOrder.number, ByteOrder.field] using low

end LineAtlas
