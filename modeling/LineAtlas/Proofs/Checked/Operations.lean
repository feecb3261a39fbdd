import LineAtlas.Reader

namespace LineAtlas.Checked

/-!
# Operations that can stop a processor

The arithmetic of the decoder is total, and lists have no item out of range. On a
processor, numbers have a width, quotients need a divisor, and items and parts have to be
there: an operation without a result stops the program in the middle, which is a `Trap`.

The modules of this folder spell out the decoder a second time with these operations,
in the order in which a processor executes them, and show that no input traps. `Agrees`
is what is shown of each step: from every state in range, it does what the step without
traps does, and it ends in range.
-/

/-- Why a processor stops in the middle of an operation. -/
inductive Trap where
  /-- A sum does not fit its width. -/
  | sum
  /-- A product does not fit its width. -/
  | product
  /-- A number is taken away from a smaller one. -/
  | difference
  /-- A divisor is zero. -/
  | division
  /-- A number is shifted by as many bits as it has. -/
  | shift
  /-- There is no item at an index. -/
  | index
  /-- There is no part between two offsets. -/
  | range
  /-- A branch is taken that was meant never to be. -/
  | unreachable
  /-- A loop turns without anything taken. -/
  | endless
  deriving Repr, DecidableEq

/-- How a step ends without a value. -/
inductive Stop where
  | trap (trap : Trap)
  /-- The input is to blame, and the program goes on. -/
  | failure (cause : ReadError)
  deriving Repr, DecidableEq

/-! ## Operations -/

section

variable (left right : Nat)

/-- The sum, which has to be below the limit of its width. -/
def sumBelow (limit : Nat) : Except Stop Nat :=
  if left + right < limit then
    .ok (left + right)
  else
    .error (.trap .sum)

/-- The sum of 64-bit numbers. -/
def sum : Except Stop Nat :=
  sumBelow left right addressLimit

/-- The difference of numbers without a sign. -/
def difference : Except Stop Nat :=
  if right ≤ left then
    .ok (left - right)
  else
    .error (.trap .difference)

/-- The sum of 64-bit numbers, or the greatest one if it does not fit. -/
def boundedSum : Nat :=
  min (left + right) (addressLimit - 1)

end

/-- The product of 64-bit numbers. -/
def product (left right : UInt64) : Except Stop UInt64 :=
  if left.toNat * right.toNat < UInt64.size then
    .ok (left * right)
  else
    .error (.trap .product)

/-- The quotient of two bytes. -/
def quotient (left right : UInt8) : Except Stop UInt8 :=
  if right = 0 then
    .error (.trap .division)
  else
    .ok (left / right)

/-- The remainder of two bytes. -/
def remainder (left right : UInt8) : Except Stop UInt8 :=
  if right = 0 then
    .error (.trap .division)
  else
    .ok (left % right)

/-- The sum of 64-bit numbers with a sign. -/
def signedSum (left right : Int64) : Except Stop Int64 :=
  if Int64.minValue.toInt ≤ left.toInt + right.toInt ∧
      left.toInt + right.toInt ≤ Int64.maxValue.toInt then
    .ok (left + right)
  else
    .error (.trap .sum)

/-- The bits of a 64-bit number, moved up. -/
def shiftedLeft
    (bits : UInt64)
    (count : Nat) :
    Except Stop UInt64 :=
  if count < 64 then
    .ok (bits <<< UInt64.ofNat count)
  else
    .error (.trap .shift)

/-- The byte at an index. -/
def item
    (bytes : Bytes)
    (index : Nat) :
    Except Stop UInt8 :=
  match bytes[index]? with
  | some byte => .ok byte
  | none => .error (.trap .index)

/-- The bytes from one offset up to another one. -/
def part
    (bytes : Bytes)
    (start stop : Nat) :
    Except Stop Bytes :=
  if start ≤ stop ∧ stop ≤ bytes.length then
    .ok ((bytes.drop start).take (stop - start))
  else
    .error (.trap .range)

/-- A result whose failures are meant never to happen. -/
def certain {α : Type} : Except Stop α → Except Stop α
  | .error (.failure _) => .error (.trap .unreachable)
  | other => other

section

variable {left right : Nat}

theorem sumBelow_of_lt
    {limit : Nat}
    (fits : left + right < limit) :
    sumBelow left right limit = .ok (left + right) :=
  if_pos fits

theorem sum_of_lt (fits : left + right < addressLimit) : sum left right = .ok (left + right) :=
  if_pos fits

theorem difference_of_le (smaller : right ≤ left) : difference left right = .ok (left - right) :=
  if_pos smaller

end

theorem product_of_lt
    {left right : UInt64}
    (fits : left.toNat * right.toNat < UInt64.size) :
    product left right = .ok (left * right) :=
  if_pos fits

theorem signedSum_of_le
    {left right : Int64}
    (least : Int64.minValue.toInt ≤ left.toInt + right.toInt)
    (greatest : left.toInt + right.toInt ≤ Int64.maxValue.toInt) :
    signedSum left right = .ok (left + right) :=
  if_pos ⟨least, greatest⟩

theorem quotient_of_ne_zero
    {left right : UInt8}
    (divides : right ≠ 0) :
    quotient left right = .ok (left / right) :=
  if_neg divides

theorem remainder_of_ne_zero
    {left right : UInt8}
    (divides : right ≠ 0) :
    remainder left right = .ok (left % right) :=
  if_neg divides

theorem shiftedLeft_of_lt
    {bits : UInt64}
    {count : Nat}
    (inside : count < 64) :
    shiftedLeft bits count = .ok (bits <<< UInt64.ofNat count) :=
  if_pos inside

theorem item_of_lt
    {bytes : Bytes}
    {index : Nat}
    (inside : index < bytes.length) :
    item bytes index = .ok (bytes.getD index 0) := by
  rw [item, List.getD_eq_getElem?_getD, List.getElem?_eq_getElem inside]
  rfl

theorem part_of_le
    {bytes : Bytes}
    {start stop : Nat}
    (forward : start ≤ stop)
    (inside : stop ≤ bytes.length) :
    part bytes start stop = .ok ((bytes.drop start).take (stop - start)) :=
  if_pos ⟨forward, inside⟩

/-! ## Looks -/

/-- A look that cannot trap. -/
def look {α : Type} : Except ReadError α → Except Stop α :=
  Except.mapError .failure

section

variable {α β : Type}

@[simp] theorem look_ok (value : α) : look (.ok value) = .ok value :=
  rfl

theorem look_ne_trap
    (first : Except ReadError α)
    (trap : Trap) :
    look first ≠ .error (.trap trap) := by
  cases first <;> nofun

theorem look_bind
    (first : Except ReadError α)
    (next : α → Except ReadError β) :
    look (first >>= next) = look first >>= fun found => look (next found) := by
  cases first <;> rfl

theorem look_map
    (change : α → β)
    (first : Except ReadError α) :
    look (first.map change) = (look first).map change := by
  cases first <;> rfl

/-- A result goes on with its value. -/
@[simp] theorem ok_bind
    (value : α)
    (next : α → Except Stop β) :
    (Except.ok value >>= next) = next value :=
  rfl

/-- Looks one after the other agree if each one does. -/
theorem mapM_look
    {item : β → Except Stop α}
    {plainItem : β → Except ReadError α}
    (same : ∀ index, item index = look (plainItem index))
    (indices : List β) :
    indices.mapM item = look (indices.mapM plainItem) := by
  induction indices with
  | nil =>
      rfl
  | cons index rest inductionHypothesis =>
      simp only [List.mapM_cons, same, inductionHypothesis, look_bind]
      rfl

theorem mapM_ok
    {item : β → Except Stop α}
    {plainItem : β → α}
    (same : ∀ index, item index = .ok (plainItem index))
    (indices : List β) :
    indices.mapM item = .ok (indices.map plainItem) := by
  induction indices with
  | nil =>
      rfl
  | cons index rest inductionHypothesis =>
      rw [List.mapM_cons, same, ok_bind, inductionHypothesis]
      rfl

/-- A failure as a result like others; a trap is none. -/
def attempted : Except Stop α → Except Stop (Except ReadError α)
  | .ok value => .ok (.ok value)
  | .error (.failure cause) => .ok (.error cause)
  | .error (.trap trap) => .error (.trap trap)

theorem attempted_look (first : Except ReadError α) : attempted (look first) = .ok first := by
  cases first <;> rfl

/-- A look that finds something is certain. -/
theorem certain_look
    {first : Except ReadError α}
    (finds : ∃ value, first = .ok value) :
    certain (look first) = look first := by
  obtain ⟨value, rfl⟩ := finds
  rfl

end

/-! ## Steps -/

section

variable {σ α β : Type}

/-- An operation as a step that changes nothing. -/
instance : MonadLift (Except Stop) (EStateM Stop σ) where
  monadLift
    | .ok value => pure value
    | .error stop => throw stop

@[simp] theorem lift_ok_bind
    (value : α)
    (next : α → EStateM Stop σ β) :
    (liftM (Except.ok value : Except Stop α) >>= next) = next value :=
  rfl

@[simp] theorem get_bind
    (next : σ → EStateM Stop σ α)
    (state : σ) :
    (get >>= next) state = next state state :=
  rfl

/-- A step after one that succeeds. -/
theorem step_of_ok
    {ε : Type}
    {first : EStateM ε σ α}
    {next : α → EStateM ε σ β}
    {before between : σ}
    {found : α}
    (success : first before = .ok found between) :
    (first >>= next) before = next found between := by
  show EStateM.bind first next before = _
  rw [EStateM.bind, success]

/-- The state decides which step comes first. -/
theorem step_congr
    {ε : Type}
    {first other : EStateM ε σ α}
    {next : α → EStateM ε σ β}
    {before : σ}
    (same : first before = other before) :
    (first >>= next) before = (other >>= next) before := by
  show EStateM.bind first next before = EStateM.bind other next before
  rw [EStateM.bind, EStateM.bind, same]

/-- No step after one that fails. -/
theorem step_of_error
    {ε : Type}
    {first : EStateM ε σ α}
    {next : α → EStateM ε σ β}
    {before stopped : σ}
    {cause : ε}
    (failure : first before = .error cause stopped) :
    (first >>= next) before = .error cause stopped := by
  show EStateM.bind first next before = _
  rw [EStateM.bind, failure]

/-- What a step without traps ends with. -/
def outcome : EStateM.Result ReadError σ α → EStateM.Result Stop σ α
  | .ok value after => .ok value after
  | .error cause stopped => .error (.failure cause) stopped

/-- How a step has ended; a failure is one of the ways, and a trap is not. -/
def ending : EStateM.Result Stop σ α → Except Stop (EStateM.Result ReadError σ α)
  | .ok value after => .ok (.ok value after)
  | .error (.failure cause) stopped => .ok (.error cause stopped)
  | .error (.trap trap) _ => .error (.trap trap)

theorem ending_outcome (result : EStateM.Result ReadError σ α) :
    ending (outcome result) = .ok result := by
  cases result <;> rfl

/-- What a step ends with that is meant never to fail. -/
def certainly : EStateM.Result Stop σ α → Except Stop (α × σ)
  | .ok value after => .ok (value, after)
  | .error (.failure _) _ => .error (.trap .unreachable)
  | .error (.trap trap) _ => .error (.trap trap)

/--
From states in range, a checked step does what the plain one does, and it ends in range.
-/
structure Agrees
    (inRange : σ → Prop)
    (checked : EStateM Stop σ α)
    (plain : EStateM ReadError σ α) :
    Prop where
  same : ∀ before, inRange before → checked before = outcome (plain before)
  keeps :
    ∀ before value after,
      inRange before →
      plain before = .ok value after →
      inRange after

variable {inRange : σ → Prop}

theorem agrees_pure (value : α) : Agrees inRange (pure value) (pure value) where
  same _ _ := rfl
  keeps before found after inside success := by
    cases success
    exact inside

theorem agrees_throw (cause : ReadError) :
    Agrees inRange (throw (.failure cause) : EStateM Stop σ α) (throw cause) where
  same _ _ := rfl
  keeps before found after inside success := by
    cases success

/-- A choice agrees if both of its branches do. -/
theorem agrees_ite
    {condition : Prop}
    [Decidable condition]
    {first second : EStateM Stop σ α}
    {plainFirst plainSecond : EStateM ReadError σ α}
    (whenTrue : condition → Agrees inRange first plainFirst)
    (whenFalse : ¬ condition → Agrees inRange second plainSecond) :
    Agrees inRange
      (if condition then first else second)
      (if condition then plainFirst else plainSecond) := by
  by_cases holds : condition
  · rw [if_pos holds, if_pos holds]
    exact whenTrue holds
  · rw [if_neg holds, if_neg holds]
    exact whenFalse holds

/-- Two steps in a row agree if both of them do. -/
theorem Agrees.bind
    {first : EStateM Stop σ α}
    {plainFirst : EStateM ReadError σ α}
    {next : α → EStateM Stop σ β}
    {plainNext : α → EStateM ReadError σ β}
    (firstAgrees : Agrees inRange first plainFirst)
    (nextAgrees : ∀ found, Agrees inRange (next found) (plainNext found)) :
    Agrees inRange (first >>= next) (plainFirst >>= plainNext) where
  same before inside := by
    show EStateM.bind first next before = outcome (EStateM.bind plainFirst plainNext before)
    unfold EStateM.bind
    rw [firstAgrees.same before inside]
    cases plainStep : plainFirst before with
    | error cause stopped =>
        rfl
    | ok found between =>
        have stillInside := firstAgrees.keeps before found between inside plainStep
        exact (nextAgrees found).same between stillInside
  keeps before value after inside success := by
    obtain ⟨found, between, firstStep, nextStep⟩ := bind_eq_ok_iff.mp success
    have stillInside := firstAgrees.keeps before found between inside firstStep
    exact (nextAgrees found).keeps between value after stillInside nextStep

theorem Agrees.map
    {first : EStateM Stop σ α}
    {plainFirst : EStateM ReadError σ α}
    (firstAgrees : Agrees inRange first plainFirst)
    (change : α → β) :
    Agrees inRange (change <$> first) (change <$> plainFirst) := by
  rw [← bind_pure_comp, ← bind_pure_comp]
  exact firstAgrees.bind fun found => agrees_pure (change found)

end

end LineAtlas.Checked
