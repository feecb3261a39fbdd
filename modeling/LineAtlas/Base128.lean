import LineAtlas.ReadError

namespace LineAtlas.Base128

/-!
# Base-128 numbers of variable length

A number is cut into groups of seven bits, least significant group first, one
group to a byte. The high bit of a byte says that another byte follows. An
unsigned number has to fit into 64 bits. A signed number is extended from bit 6
of its last byte, takes at most ten bytes, and is reduced to 64 bits.

Both readers return the number with the count of bytes that it took.
-/

/-- How reading the groups of a number can fail. -/
inductive Fault where
  /-- The number has a group beyond the 64 bits. -/
  | tooLarge
  /-- The bytes end before the number does. -/
  | unterminated
  deriving Repr, DecidableEq

/-- The seven payload bits of a byte. -/
def group (byte : UInt8) : Nat :=
  byte.toNat % 128

/-- A byte that ends its number. -/
def isLast (byte : UInt8) : Bool :=
  byte < 128

/--
The unsigned number whose remaining groups start with group `index`, and the
count of bytes of the whole number.

Nine groups hold 63 bits, so group 9 may only be 0 or 1 and there is no
group 10.
-/
def unsignedFrom
    (index : Nat) :
    Bytes → Except Fault (Nat × Nat)
  | [] => .error .unterminated
  | byte :: rest =>
      if 9 < index ∨ (index = 9 ∧ 1 < group byte) then
        .error .tooLarge
      else if isLast byte then
        .ok (group byte, index + 1)
      else
        match unsignedFrom (index + 1) rest with
        | .ok (high, used) => .ok (group byte + 128 * high, used)
        | .error fault => .error fault

/-- The last group of a signed number: bit 6 is its sign. -/
def signedGroup (byte : UInt8) : Int :=
  if group byte < 64 then
    group byte
  else
    (group byte : Int) - 128

/--
The signed number whose remaining groups start with group `index`, and the
count of bytes of the whole number. There is no group 10.
-/
def signedFrom
    (index : Nat) :
    Bytes → Except Fault (Int × Nat)
  | [] => .error .unterminated
  | byte :: rest =>
      if 9 < index then
        .error .tooLarge
      else if isLast byte then
        .ok (signedGroup byte, index + 1)
      else
        match signedFrom (index + 1) rest with
        | .ok (high, used) => .ok (group byte + 128 * high, used)
        | .error fault => .error fault

/-- The cause reported for a fault in the number at the start of `bytes`. -/
def Fault.toReadError
    (name : String)
    (bytes : Bytes) :
    Fault → ReadError
  | tooLarge => .invalidValue (name ++ " overflow")
  | unterminated => .truncated (bytes.length + 1) bytes.length (name ++ " value")

/-- The unsigned number at the start of `bytes` and the count of its bytes. -/
def unsigned (bytes : Bytes) : Except ReadError (UInt64 × Nat) :=
  match unsignedFrom 0 bytes with
  | .ok (value, used) => .ok (UInt64.ofNat value, used)
  | .error fault => .error (fault.toReadError "ULEB128" bytes)

/-- The signed number at the start of `bytes` and the count of its bytes. -/
def signed (bytes : Bytes) : Except ReadError (Int64 × Nat) :=
  match signedFrom 0 bytes with
  | .ok (value, used) => .ok (Int64.ofInt value, used)
  | .error fault => .error (fault.toReadError "SLEB128" bytes)

/-- An unsigned number takes at least one byte beyond those before it. -/
theorem lt_used_of_unsignedFrom
    {index : Nat}
    {bytes : Bytes}
    {value used : Nat}
    (read : unsignedFrom index bytes = .ok (value, used)) :
    index < used := by
  induction bytes generalizing index value with
  | nil =>
      simp [unsignedFrom] at read
  | cons byte rest inductionHypothesis =>
      unfold unsignedFrom at read
      split at read
      · simp at read
      · split at read
        · simp at read
          omega
        · split at read
          · next high later tail =>
              simp only [Except.ok.injEq, Prod.mk.injEq] at read
              have := inductionHypothesis (read.2 ▸ tail)
              omega
          · simp at read

/-- A signed number takes at least one byte beyond those before it. -/
theorem lt_used_of_signedFrom
    {index : Nat}
    {bytes : Bytes}
    {value : Int}
    {used : Nat}
    (read : signedFrom index bytes = .ok (value, used)) :
    index < used := by
  induction bytes generalizing index value with
  | nil =>
      simp [signedFrom] at read
  | cons byte rest inductionHypothesis =>
      unfold signedFrom at read
      split at read
      · simp at read
      · split at read
        · simp at read
          omega
        · split at read
          · next high later tail =>
              simp only [Except.ok.injEq, Prod.mk.injEq] at read
              have := inductionHypothesis (read.2 ▸ tail)
              omega
          · simp at read

/-- A 64-bit unsigned number takes at least one byte, so there is one. -/
theorem used_pos_of_unsigned
    {bytes : Bytes}
    {value : UInt64}
    {used : Nat}
    (read : unsigned bytes = .ok (value, used)) :
    0 < used ∧ bytes ≠ [] := by
  unfold unsigned at read
  split at read
  · next wide taken groups =>
      simp only [Except.ok.injEq, Prod.mk.injEq] at read
      constructor
      · exact read.2 ▸ lt_used_of_unsignedFrom groups
      · rintro rfl
        simp [unsignedFrom] at groups
  · simp at read

/-- A 64-bit signed number takes at least one byte, so there is one. -/
theorem used_pos_of_signed
    {bytes : Bytes}
    {value : Int64}
    {used : Nat}
    (read : signed bytes = .ok (value, used)) :
    0 < used ∧ bytes ≠ [] := by
  unfold signed at read
  split at read
  · next wide taken groups =>
      simp only [Except.ok.injEq, Prod.mk.injEq] at read
      constructor
      · exact read.2 ▸ lt_used_of_signedFrom groups
      · rintro rfl
        simp [signedFrom] at groups
  · simp at read

end LineAtlas.Base128
