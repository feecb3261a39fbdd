import LineAtlas.Proofs.Locality
import Mathlib.Data.List.TakeWhile

namespace LineAtlas.Reader

/-!
# What readers can find

A property that every value of a reader has, whatever the bytes. Readers in a row pass
on what is known of the first value, and a list of items has the property item by item.
-/

variable {α β : Type}

/-- Whatever the reader finds has the property. -/
def Finds
    (reader : Reader α)
    (property : α → Prop) :
    Prop :=
  ∀ before value after,
    reader before = .ok value after → property value

section

variable
  {found : α → Prop}
  {property : β → Prop}

theorem finds_pure
    {value : β}
    (holds : property value) :
    (pure value : Reader β).Finds property := by
  intro before other after success
  cases success
  exact holds

theorem finds_throw (cause : ReadError) : (throw cause : Reader β).Finds property := by
  intro before value after success
  cases success

theorem Finds.bind
    {first : Reader α}
    {next : α → Reader β}
    (firstFinds : first.Finds found)
    (nextFinds : ∀ value, found value → (next value).Finds property) :
    (first >>= next).Finds property := by
  intro before value after success
  obtain ⟨passed, between, firstRead, nextRead⟩ := bind_eq_ok_iff.mp success
  exact nextFinds passed (firstFinds before passed between firstRead) between value after nextRead

/-- Nothing has to be known of a value that the next reader only passes on. -/
theorem finds_bind
    {first : Reader α}
    {next : α → Reader β}
    (nextFinds : ∀ value, (next value).Finds property) :
    (first >>= next).Finds property := by
  have anyValue : first.Finds fun _ => True :=
    fun _ _ _ _ => trivial
  exact anyValue.bind fun value _ => nextFinds value

theorem Finds.map
    {reader : Reader α}
    {change : α → β}
    (finds : reader.Finds found)
    (changes : ∀ value, found value → property (change value)) :
    (change <$> reader).Finds property := by
  rw [← bind_pure_comp]
  exact finds.bind fun value holds => finds_pure (changes value holds)

end

/-- What holds of all items that can be found in some data holds of a list of them. -/
theorem forall_mem_of_collect
    {item : Reader (Option α)}
    {consumes : item.Consuming}
    (property : α → Prop)
    {data : Bytes}
    (itemHolds :
      ∀ before value after,
        before.data = data → item before = .ok (some value) after → property value)
    {before after : Cursor}
    {values : List α}
    (sameData : before.data = data)
    (success : collect item consumes before = .ok values after) :
    after.data = data ∧ ∀ value ∈ values, property value := by
  fun_induction Reader.collect item consumes before generalizing values after with
  | case1 cursor cause stopped failed =>
      cases success
  | case2 cursor last ended =>
      cases success
      exact ⟨(consumes _ _ _ ended).1.trans sameData, by simp⟩
  | case3 cursor first reached found cause stopped laterFails inductionHypothesis =>
      cases success
  | case4 cursor first reached found later last laterRead inductionHypothesis =>
      cases success
      have reachedData := (consumes _ _ _ found).1.trans sameData
      obtain ⟨lastData, laterHold⟩ := inductionHypothesis reachedData laterRead
      exact ⟨lastData, List.forall_mem_cons.mpr ⟨itemHolds _ _ _ sameData found, laterHold⟩⟩

/-- Every item of a list is one that the item reader found. -/
theorem Finds.collect
    {item : Reader (Option α)}
    {consumes : item.Consuming}
    {property : α → Prop}
    (itemFinds : item.Finds (∀ value ∈ ·, property value)) :
    (collect item consumes).Finds (∀ value ∈ ·, property value) := by
  intro before values after success
  refine (forall_mem_of_collect property ?_ rfl success).2
  intro cursor value reached _ found
  exact itemFinds cursor (some value) reached found value rfl

/-- The bytes up to the first NUL have none. -/
theorem finds_terminated : terminated.Finds ((0 : UInt8) ∉ ·) := by
  intro before value after success member
  obtain ⟨used, seen⟩ := look_of_consuming_eq_ok success
  obtain ⟨text, looked, same⟩ := map_eq_ok_iff.mp seen
  cases same
  unfold Cursor.terminatedBytes at looked
  split at looked
  · cases looked
    simpa using List.mem_takeWhile_imp member
  · cases looked

end LineAtlas.Reader
