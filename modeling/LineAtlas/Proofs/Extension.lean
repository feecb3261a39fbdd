import LineAtlas.Proofs.Locality

namespace LineAtlas

/-!
# Readers on data that goes on

`Cursor.extend` puts more bytes after the data of a cursor. A reader that `Extends`
finds in the longer data what it found in the shorter one, and at the same place.
Every local reader does.
-/

/-- The cursor at the same place when `more` stands after its data. -/
def Cursor.extend
    (cursor : Cursor)
    (more : Bytes) :
    Cursor :=
  { cursor with data := cursor.data ++ more }

namespace Cursor

variable
  {cursor : Cursor}
  {more : Bytes}

@[simp] theorem position_extend : (cursor.extend more).position = cursor.position :=
  rfl

@[simp] theorem order_extend : (cursor.extend more).order = cursor.order :=
  rfl

@[simp] theorem size_extend : (cursor.extend more).size = cursor.size + more.length := by
  simp [extend, size]

theorem Placed.extend
    (placed : cursor.Placed)
    (fits : cursor.size + more.length < addressLimit) :
    (cursor.extend more).Placed where
  position_le := by
    have := placed.position_le
    rw [position_extend, size_extend]
    omega
  size_lt := by
    rwa [size_extend]

theorem rest_extend
    (inside : cursor.position ≤ cursor.size) :
    (cursor.extend more).rest = cursor.rest ++ more := by
  rw [size] at inside
  simp [Cursor.extend, rest, List.drop_append_of_le_length inside]

theorem Placed.rest_extend
    (placed : cursor.Placed) :
    (cursor.extend more).rest = cursor.rest ++ more :=
  Cursor.rest_extend placed.position_le

theorem not_atEnd_extend
    (notEnded : ¬ cursor.atEnd = true) :
    ¬ (cursor.extend more).atEnd = true := by
  rw [atEnd, decide_eq_true_iff] at notEnded ⊢
  rw [size_extend, position_extend]
  omega

/-- Bytes that can be looked at can still be looked at when the data goes on. -/
theorem bytesAt_extend
    {subject : String}
    {offset count : Nat}
    {found : Bytes}
    (look : cursor.bytesAt subject offset count = .ok found) :
    (cursor.extend more).bytesAt subject offset count = .ok found := by
  have inside := le_size_of_bytesAt look
  have start : offset ≤ cursor.data.length :=
    Nat.le_trans (Nat.le_add_right offset count) inside
  have enough : count ≤ (cursor.data.drop offset).length := by
    rw [List.length_drop]
    exact Nat.le_sub_of_add_le' inside
  unfold bytesAt at look ⊢
  split at look
  · cases look
  · next noOverflow =>
      rw [if_neg (Nat.not_lt_of_le inside)] at look
      have longer : ¬ (cursor.extend more).size < offset + count := by
        rw [size_extend]
        omega
      rw [if_neg noOverflow, if_neg longer, extend, List.drop_append_of_le_length start,
        List.take_append_of_le_length enough]
      exact look

/-- Bytes that can be looked at when the data goes on are there, or lie behind its end. -/
theorem exists_bytesAt_of_extend
    {subject : String}
    {offset count : Nat}
    {found : Bytes}
    (look : (cursor.extend more).bytesAt subject offset count = .ok found)
    (inside : offset + count ≤ cursor.size) :
    ∃ shorter, cursor.bytesAt subject offset count = .ok shorter := by
  unfold bytesAt at look ⊢
  split at look
  · cases look
  · next noOverflow =>
      rw [if_neg noOverflow, if_neg (Nat.not_lt_of_le inside)]
      exact ⟨_, rfl⟩

end Cursor

namespace Reader

variable {α : Type}

/-- What the reader finds, it finds at the same place when the data goes on. -/
def Extends (reader : Reader α) : Prop :=
  ∀ cursor more value after,
    cursor.Placed →
    cursor.size + more.length < addressLimit →
    reader cursor = .ok value after →
    after.Placed ∧
      after.size = cursor.size ∧
      reader (cursor.extend more) = .ok value (after.extend more)

theorem Local.extends
    {reader : Reader α}
    (isLocal : reader.Local) :
    reader.Extends := by
  intro cursor more value after placed fits success
  obtain ⟨used, tail, split, rfl, reads⟩ := isLocal cursor value after placed success
  have longer : (cursor.extend more).rest = used ++ (tail ++ more) := by
    rw [placed.rest_extend, split, List.append_assoc]
  exact ⟨placed.advance split, rfl, reads _ (tail ++ more) (placed.extend fits) rfl longer⟩

/-- A field that is read lies inside the data, and is the same when the data goes on. -/
theorem field_extend
    {subject : String}
    {width : Nat}
    {ofNumber : Nat → α}
    {cursor after : Cursor}
    {value : α}
    (more : Bytes)
    (success :
      consuming (fun cursor =>
          ((cursor.numberAt subject width cursor.position).map ofNumber).map (·, width)) cursor =
        .ok value after) :
    after = cursor.advance width ∧
      cursor.position + width ≤ cursor.size ∧
      consuming (fun cursor =>
          ((cursor.numberAt subject width cursor.position).map ofNumber).map (·, width))
          (cursor.extend more) =
        .ok value (after.extend more) := by
  cases look : cursor.bytesAt subject cursor.position width with
  | error cause =>
      simp [consuming, Cursor.numberAt, look, Except.map] at success
  | ok bytes =>
      have longer : (cursor.extend more).bytesAt subject cursor.position width = .ok bytes :=
        Cursor.bytesAt_extend look
      simp only [consuming, Cursor.numberAt, look, Except.map] at success
      cases success
      refine ⟨rfl, Cursor.le_size_of_bytesAt look, ?_⟩
      simp only [consuming, Cursor.numberAt, Cursor.position_extend, longer, Except.map]
      rfl

/-- A field that can be read only when the data goes on ends behind the data. -/
theorem size_lt_of_field
    {subject : String}
    {width : Nat}
    {ofNumber : Nat → α}
    {cursor after stopped : Cursor}
    {more : Bytes}
    {value : α}
    {cause : ReadError}
    (success :
      consuming (fun cursor =>
          ((cursor.numberAt subject width cursor.position).map ofNumber).map (·, width))
          (cursor.extend more) =
        .ok value after)
    (failure :
      consuming (fun cursor =>
          ((cursor.numberAt subject width cursor.position).map ofNumber).map (·, width)) cursor =
        .error cause stopped) :
    cursor.size < cursor.position + width := by
  by_contra enough
  cases look : (cursor.extend more).bytesAt subject cursor.position width with
  | error other =>
      simp [consuming, Cursor.numberAt, look, Except.map] at success
  | ok found =>
      obtain ⟨shorter, seen⟩ := Cursor.exists_bytesAt_of_extend look (Nat.le_of_not_lt enough)
      simp [consuming, Cursor.numberAt, seen, Except.map] at failure

theorem extends_position : position.Extends := by
  intro cursor more value after placed fits success
  cases success
  exact ⟨placed, rfl, rfl⟩

end Reader

end LineAtlas
