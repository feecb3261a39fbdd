import LineAtlas.Text.Utf8

namespace LineAtlas.Utf8

/-!
# Writing text

`encode` writes the characters of a text as UTF-8. The lossy reader gives back
exactly the text, so text that is written loses nothing; and only the character
NUL is written with a zero byte.
-/

/-- The UTF-8 bytes of a text. -/
def encode (text : String) : Bytes :=
  text.toList.flatMap String.utf8EncodeChar

theorem ofNat_lt_iff
    {number : Nat}
    (small : number < 256)
    (bound : UInt8) :
    UInt8.ofNat number < bound ↔ number < bound.toNat := by
  rw [UInt8.lt_iff_toNat_lt, UInt8.toNat_ofNat_of_lt' small]

theorem ofNat_le_iff
    {number : Nat}
    (small : number < 256)
    (bound : UInt8) :
    UInt8.ofNat number ≤ bound ↔ number ≤ bound.toNat := by
  rw [UInt8.le_iff_toNat_le, UInt8.toNat_ofNat_of_lt' small]

theorem le_ofNat_iff
    {number : Nat}
    (small : number < 256)
    (bound : UInt8) :
    bound ≤ UInt8.ofNat number ↔ bound.toNat ≤ number := by
  rw [UInt8.le_iff_toNat_le, UInt8.toNat_ofNat_of_lt' small]

theorem ofNat_eq_iff
    {number : Nat}
    (small : number < 256)
    (other : UInt8) :
    UInt8.ofNat number = other ↔ number = other.toNat := by
  rw [← UInt8.toNat_inj, UInt8.toNat_ofNat_of_lt' small]

/-- The first byte of a character, as a number. -/
theorem opening_ofNat
    {number : Nat}
    (small : number < 256) :
    opening (UInt8.ofNat number) =
      if number < 0x80 then
        .whole (Char.ofNat number)
      else if number < 0xC2 then
        .refused
      else if number < 0xE0 then
        .begun (.tail (number % 32) 0)
      else if number = 0xE0 then
        .begun { bits := 0, least := 0xA0, greatest := 0xBF, later := 1 }
      else if number = 0xED then
        .begun { bits := 13, least := 0x80, greatest := 0x9F, later := 1 }
      else if number < 0xF0 then
        .begun (.tail (number % 16) 1)
      else if number = 0xF0 then
        .begun { bits := 0, least := 0x90, greatest := 0xBF, later := 2 }
      else if number < 0xF4 then
        .begun (.tail (number % 8) 2)
      else if number = 0xF4 then
        .begun { bits := 4, least := 0x80, greatest := 0x8F, later := 2 }
      else
        .refused := by
  simp only [opening, ofNat_lt_iff small, ofNat_eq_iff small,
    UInt8.toNat_ofNat_of_lt' small]
  rfl

/-- What follows a first byte with the given payload: `later + 1` bytes, the next one in a range. -/
def Begins
    (first bits second later : Nat) :
    Prop :=
  ∃ least greatest,
    opening (UInt8.ofNat first) =
        .begun { bits := bits, least := least, greatest := greatest, later := later } ∧
      least.toNat ≤ second ∧
      second ≤ greatest.toNat

/-- The first byte of a character of two bytes. -/
theorem begins_two
    {code : Nat}
    (least : 0x80 ≤ code)
    (greatest : code < 0x800) :
    Begins (code / 64 % 32 + 0xC0) (code / 64) (code % 64 + 0x80) 0 := by
  refine ⟨0x80, 0xBF, ?_, by simp, by simp; omega⟩
  rw [opening_ofNat (by omega), if_neg (by omega), if_neg (by omega), if_pos (by omega)]
  have payload : (code / 64 % 32 + 0xC0) % 32 = code / 64 := by omega
  simp [Pending.tail, payload]

/--
The first byte of a character of three bytes.

The range of the second byte is what rules out overlong forms and surrogates.
-/
theorem begins_three
    {code : Nat}
    (least : 0x800 ≤ code)
    (greatest : code < 0x10000)
    (noSurrogate : code < 0xD800 ∨ 0xDFFF < code) :
    Begins (code / 4096 % 16 + 0xE0) (code / 4096) (code / 64 % 64 + 0x80) 1 := by
  have small : code / 4096 % 16 + 0xE0 < 256 := by omega
  rcases Nat.eq_zero_or_pos (code / 4096) with lowest | positive
  · refine ⟨0xA0, 0xBF, ?_, by simp; omega, by simp; omega⟩
    rw [opening_ofNat small, if_neg (by omega), if_neg (by omega), if_neg (by omega),
      if_pos (by omega), lowest]
  · by_cases beforeSurrogates : code / 4096 = 13
    · refine ⟨0x80, 0x9F, ?_, by simp, by simp; omega⟩
      rw [opening_ofNat small, if_neg (by omega), if_neg (by omega), if_neg (by omega),
        if_neg (by omega), if_pos (by omega), beforeSurrogates]
    · refine ⟨0x80, 0xBF, ?_, by simp, by simp; omega⟩
      rw [opening_ofNat small, if_neg (by omega), if_neg (by omega), if_neg (by omega),
        if_neg (by omega), if_neg (by omega), if_pos (by omega)]
      have payload : (code / 4096 % 16 + 0xE0) % 16 = code / 4096 := by omega
      simp [Pending.tail, payload]

/-- The first byte of a character of four bytes. -/
theorem begins_four
    {code : Nat}
    (least : 0x10000 ≤ code)
    (greatest : code < 0x110000) :
    Begins (code / 262144 % 8 + 0xF0) (code / 262144) (code / 4096 % 64 + 0x80) 2 := by
  have small : code / 262144 % 8 + 0xF0 < 256 := by omega
  rcases Nat.eq_zero_or_pos (code / 262144) with lowest | positive
  · refine ⟨0x90, 0xBF, ?_, by simp; omega, by simp; omega⟩
    rw [opening_ofNat small, if_neg (by omega), if_neg (by omega), if_neg (by omega),
      if_neg (by omega), if_neg (by omega), if_neg (by omega), if_pos (by omega), lowest]
  · by_cases highest : code / 262144 = 4
    · refine ⟨0x80, 0x8F, ?_, by simp, by simp; omega⟩
      rw [opening_ofNat small, if_neg (by omega), if_neg (by omega), if_neg (by omega),
        if_neg (by omega), if_neg (by omega), if_neg (by omega), if_neg (by omega),
        if_neg (by omega), if_pos (by omega), highest]
    · refine ⟨0x80, 0xBF, ?_, by simp, by simp; omega⟩
      rw [opening_ofNat small, if_neg (by omega), if_neg (by omega), if_neg (by omega),
        if_neg (by omega), if_neg (by omega), if_neg (by omega), if_neg (by omega),
        if_pos (by omega)]
      have payload : (code / 262144 % 8 + 0xF0) % 8 = code / 262144 := by omega
      simp [Pending.tail, payload]

/-- A byte in range that is not the last one leaves a longer pending character. -/
theorem pieces_of_later
    {pending : Pending}
    {low later : Nat}
    (small : low < 64)
    (least : pending.least.toNat ≤ low + 0x80)
    (greatest : low + 0x80 ≤ pending.greatest.toNat)
    (more : pending.later = later + 1)
    (rest : Bytes) :
    pieces (some pending) (UInt8.ofNat (low + 0x80) :: rest) =
      pieces (some (.tail (pending.bits * 64 + low) later)) rest := by
  have byte : low + 0x80 < 256 := by omega
  have inRange :
      pending.least ≤ UInt8.ofNat (low + 0x80) ∧
        UInt8.ofNat (low + 0x80) ≤ pending.greatest :=
    ⟨(le_ofNat_iff byte _).mpr least, (ofNat_le_iff byte _).mpr greatest⟩
  have payload : pending.extended (UInt8.ofNat (low + 0x80)) = pending.bits * 64 + low := by
    rw [Pending.extended, UInt8.toNat_ofNat_of_lt' byte]
    omega
  rw [pieces, if_pos inRange, more, payload]

/-- A byte in range that is the last one completes its character. -/
theorem pieces_of_last
    {pending : Pending}
    {low : Nat}
    (small : low < 64)
    (least : pending.least.toNat ≤ low + 0x80)
    (greatest : low + 0x80 ≤ pending.greatest.toNat)
    (last : pending.later = 0)
    (rest : Bytes) :
    pieces (some pending) (UInt8.ofNat (low + 0x80) :: rest) =
      some (Char.ofNat (pending.bits * 64 + low)) :: pieces none rest := by
  have byte : low + 0x80 < 256 := by omega
  have inRange :
      pending.least ≤ UInt8.ofNat (low + 0x80) ∧
        UInt8.ofNat (low + 0x80) ≤ pending.greatest :=
    ⟨(le_ofNat_iff byte _).mpr least, (ofNat_le_iff byte _).mpr greatest⟩
  have payload : pending.extended (UInt8.ofNat (low + 0x80)) = pending.bits * 64 + low := by
    rw [Pending.extended, UInt8.toNat_ofNat_of_lt' byte]
    omega
  rw [pieces, if_pos inRange, last, payload]

/-- A first byte leaves the pending character that it begins. -/
theorem pieces_of_opening
    {byte : UInt8}
    {pending : Pending}
    (begun : opening byte = .begun pending)
    (rest : Bytes) :
    pieces none (byte :: rest) = pieces (some pending) rest := by
  rw [pieces, begun]

/-- The bytes of a character are read as that character. -/
theorem pieces_utf8EncodeChar
    (character : Char)
    (rest : Bytes) :
    pieces none (String.utf8EncodeChar character ++ rest) =
      some character :: pieces none rest := by
  have whole : Char.ofNat character.val.toNat = character :=
    Char.ofNat_toNat character
  have valid :
      character.val.toNat < 0xD800 ∨
        (0xDFFF < character.val.toNat ∧ character.val.toNat < 0x110000) :=
    character.valid
  fun_cases String.utf8EncodeChar character with
  | case1 code one =>
      have byte : code < 256 := by omega
      have opened : opening (UInt8.ofNat code) = .whole character := by
        rw [opening_ofNat byte, if_pos (by omega), whole]
      rw [List.cons_append, pieces, opened, List.nil_append]
  | case2 code notOne two =>
      obtain ⟨least, greatest, opened, low, high⟩ :=
        begins_two (show 0x80 ≤ code by omega) (by omega)
      have number : code / 64 * 64 + code % 64 = code := by omega
      simp only [List.cons_append, List.nil_append]
      rw [pieces_of_opening opened, pieces_of_last (by omega) low high rfl]
      simp only [number, code, whole]
  | case3 code notOne notTwo three =>
      obtain ⟨least, greatest, opened, low, high⟩ :=
        begins_three (show 0x800 ≤ code by omega) (by omega) (by omega)
      have number : (code / 4096 * 64 + code / 64 % 64) * 64 + code % 64 = code := by omega
      simp only [List.cons_append, List.nil_append]
      rw [pieces_of_opening opened, pieces_of_later (by omega) low high rfl,
        pieces_of_last (by omega) (by simp [Pending.tail])
          (by simp [Pending.tail]; omega) rfl]
      simp only [Pending.tail, number, code, whole]
  | case4 code notOne notTwo notThree =>
      obtain ⟨least, greatest, opened, low, high⟩ :=
        begins_four (show 0x10000 ≤ code by omega) (by omega)
      have number :
          ((code / 262144 * 64 + code / 4096 % 64) * 64 + code / 64 % 64) * 64
            + code % 64 = code := by omega
      simp only [List.cons_append, List.nil_append]
      rw [pieces_of_opening opened, pieces_of_later (by omega) low high rfl,
        pieces_of_later (by omega) (by simp [Pending.tail])
          (by simp [Pending.tail]; omega) rfl,
        pieces_of_last (by omega) (by simp [Pending.tail])
          (by simp [Pending.tail]; omega) rfl]
      simp only [Pending.tail, number, code, whole]

/-- Written characters are read one by one. -/
theorem pieces_encode (characters : List Char) :
    pieces none (characters.flatMap String.utf8EncodeChar) = characters.map some := by
  induction characters with
  | nil =>
      rfl
  | cons character later inductionHypothesis =>
      rw [List.flatMap_cons, pieces_utf8EncodeChar, inductionHypothesis, List.map_cons]

/-- Text that is written is read back unchanged. -/
@[simp] theorem decodeLossy_encode (text : String) :
    decodeLossy (encode text) = text := by
  rw [decodeLossy, encode, pieces_encode, List.map_map]
  have unchanged : (fun piece : Option Char => piece.getD replacement) ∘ some = id :=
    rfl
  rw [unchanged, List.map_id, String.ofList_toList]

/-- Text that is written has no bad piece. -/
@[simp] theorem decode?_encode (text : String) :
    decode? (encode text) = some text := by
  have whole : (text.toList.map some).mapM id = some text.toList := by
    rw [List.mapM_map]
    exact List.mapM_pure.trans (congrArg some (List.map_id text.toList))
  rw [decode?, encode, pieces_encode, whole, Option.map_some, String.ofList_toList]

/-- Only NUL is written with a zero byte. -/
theorem zero_not_mem_utf8EncodeChar
    {character : Char}
    (notNul : character ≠ '\x00') :
    (0 : UInt8) ∉ String.utf8EncodeChar character := by
  have positive : character.val.toNat ≠ 0 := by
    intro zero
    exact notNul (Char.ext (UInt32.toNat_inj.mp zero))
  have nonzero {number : Nat} (small : number < 256) (isPositive : 0 < number) :
      (0 : UInt8) ≠ UInt8.ofNat number := by
    intro same
    have := (ofNat_eq_iff small 0).mp same.symm
    simp at this
    omega
  fun_cases String.utf8EncodeChar character with
  | case1 code one =>
      simpa using nonzero (show code < 256 by omega) (by omega)
  | case2 code notOne two =>
      simp only [List.mem_cons, List.not_mem_nil, or_false, not_or]
      exact ⟨nonzero (by omega) (by omega), nonzero (by omega) (by omega)⟩
  | case3 code notOne notTwo three =>
      simp only [List.mem_cons, List.not_mem_nil, or_false, not_or]
      exact ⟨nonzero (by omega) (by omega), nonzero (by omega) (by omega),
        nonzero (by omega) (by omega)⟩
  | case4 code notOne notTwo notThree =>
      simp only [List.mem_cons, List.not_mem_nil, or_false, not_or]
      exact ⟨nonzero (by omega) (by omega), nonzero (by omega) (by omega),
        nonzero (by omega) (by omega), nonzero (by omega) (by omega)⟩

/-- Text without a NUL is written without a zero byte. -/
theorem zero_not_mem_encode
    {text : String}
    (noNul : '\x00' ∉ text.toList) :
    (0 : UInt8) ∉ encode text := by
  intro member
  obtain ⟨character, inText, inBytes⟩ := List.mem_flatMap.mp member
  refine zero_not_mem_utf8EncodeChar ?_ inBytes
  rintro rfl
  exact noNul inText

end LineAtlas.Utf8
