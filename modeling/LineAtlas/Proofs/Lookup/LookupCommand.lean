import LineAtlas.Proofs.Lookup.AddressSpelling

namespace LineAtlas.Arguments

/-!
# The argument of the lookup command

A text that is no option is handed to the reader of addresses as it stands, and what the
reader says about it is what the arguments come to. No spelling starts with a hyphen, so
every address that is listed can be looked up.
-/

/-- The argument does not start with the hyphen of an option. -/
def IsNoOption (argument : String) : Prop :=
  argument.toList.head? ≠ some '-'

/-- The argument is taken for the path of an image. -/
structure IsImagePath (path : String) : Prop where
  ne_empty : path ≠ ""
  isNoOption : IsNoOption path
  isNoCommand : isCommand path = false

/-- A level at which an operand has been taken, and not yet checked. -/
def withOperand (text : String) : State :=
  { State.fresh with pending := .operand text, hasOperand := true }

/-- The arguments ask for what an address resolves to, with no options. -/
def lookupIn
    (path : String)
    (address : UInt64) :
    Invocation where
  imagePath := path
  command := .lookup address
  options := { constAddPc := .ignore, attribution := .firstFile }

variable {path text : String}

/-- The first argument of a level with a place for an operand takes it, if it is no option. -/
theorem takeArgument_fresh
    (level : Level)
    (takes : takesOperand level = true)
    (isNoOption : IsNoOption text) :
    takeArgument level .fresh text = .ok (withOperand text) := by
  have operand : takeOperand level .fresh text = .ok (withOperand text) := by
    rw [takeOperand, if_pos ⟨takes, rfl⟩]
    rfl
  rw [takeArgument]
  split
  · next onlyHyphens => simp [IsNoOption, onlyHyphens] at isNoOption
  · next isLong => simp [IsNoOption, isLong] at isNoOption
  · next isShort => simp [IsNoOption, isShort] at isNoOption
  · next pending _ _ _ => cases pending
  · exact operand

/-- The operand of `lookup` is checked by the reader of addresses. -/
theorem scanCommand_lookup (isNoOption : IsNoOption text) :
    scanCommand .lookup .fresh [text] =
      match AddressText.parse text with
      | .ok address => .ok { State.fresh.given with address := some address }
      | .error fault => reject (.noAddress text fault) := by
  have scanned :
      scanCommand .lookup .fresh [text] =
        takeArgument .lookup .fresh text >>= finish .lookup :=
    rfl
  have checked :
      giveOperand .lookup State.fresh.given text =
        match AddressText.parse text with
        | .ok address => .ok { State.fresh.given with address := some address }
        | .error fault => reject (.noAddress text fault) :=
    if_pos rfl
  rw [scanned, takeArgument_fresh .lookup rfl isNoOption]
  change finish .lookup (withOperand text) = _
  simp only [finish, settle, withOperand, checked]
  cases AddressText.parse text <;> rfl

/-- After the path of an image, the name of the command hands the rest to its level. -/
theorem scanProgram_lookup
    (isPath : IsImagePath path)
    (rest : List String) :
    scanProgram .fresh (path :: "lookup" :: rest) = do
      let command ← scanCommand .lookup .fresh rest
      return {
        program := { State.fresh.given with imagePath := some path }
        command := some (.lookup, command)
      } := by
  have finished :
      finish .program (withOperand path) =
        .ok { State.fresh.given with imagePath := some path } := by
    have given :
        giveOperand .program State.fresh.given path =
          .ok { State.fresh.given with imagePath := some path } := by
      simp [giveOperand, isPath.ne_empty]
    simp only [finish, settle, withOperand, given]
    rfl
  obtain ⟨notHelp, notCommand⟩ : path ≠ helpName ∧ command? path = none := by
    simpa [isCommand] using isPath.isNoCommand
  have named :
      (command? "lookup").filter (fun _ => mayBeCommand .program (withOperand path)) =
        some .lookup :=
    rfl
  -- The path is taken, and checked only when the command has read its own arguments.
  rw [scanProgram, if_neg fun help => notHelp help.2, notCommand]
  change
    (takeArgument .program .fresh path >>= fun next => scanProgram next ("lookup" :: rest)) = _
  rw [takeArgument_fresh .program rfl isPath.isNoOption]
  change scanProgram (withOperand path) ("lookup" :: rest) = _
  have notHelpAgain : "lookup" ≠ helpName := by
    decide
  rw [scanProgram, if_neg fun help => notHelpAgain help.2, named]
  simp only [finished]
  rfl

/-- The arguments are usable exactly if the address is read, and else the fault is reported. -/
theorem parse_lookup
    (isPath : IsImagePath path)
    (isNoOption : IsNoOption text) :
    parse [path, "lookup", text] =
      match AddressText.parse text with
      | .ok address => .ok (lookupIn path address)
      | .error fault => .error (.usage (.noAddress text fault)) := by
  rw [parse, scanProgram_lookup isPath, scanCommand_lookup isNoOption]
  cases AddressText.parse text <;> rfl

/-- No spelling of an address is taken for an option. -/
theorem isNoOption_text (spelling : AddressText.Spelling) : IsNoOption spelling.text := by
  obtain ⟨mark, isSigned, ⟨digits, nonempty, areDigits⟩⟩ := spelling
  obtain ⟨first, rest, rfl⟩ := List.exists_cons_of_ne_nil nonempty
  have noHyphen : first ≠ '-' := by
    rintro rfl
    exact absurd (areDigits '-' List.mem_cons_self) (by decide)
  cases mark <;> cases isSigned <;>
    simp [IsNoOption, AddressText.Spelling.text, AddressText.Mark.characters,
      AddressText.signCharacters, noHyphen]

/-- Every line that `addresses` prints can be given to `lookup`, and stands for its address. -/
theorem parse_lookup_of_mem_addresses
    (isPath : IsImagePath path)
    (file : ObjectFile)
    (atlas : Atlas)
    {line : String}
    (listed : line ∈ Report.ofCommand file atlas .addresses) :
    ∃ address ∈ atlas.known.store.rowAddresses,
      parse [path, "lookup", line] = .ok (lookupIn path address) := by
  obtain ⟨address, isRow, rfl⟩ := List.mem_map.mp listed
  refine ⟨address, isRow, ?_⟩
  rw [AddressText.render_eq_text, parse_lookup isPath (isNoOption_text _),
    AddressText.parse_printedSpelling]

end LineAtlas.Arguments
