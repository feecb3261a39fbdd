import LineAtlas.CommandLine.AddressText
import LineAtlas.Options
import LineAtlas.Text.ControlSequence
import LineAtlas.Text.Similarity

namespace LineAtlas

/-!
# Arguments

The arguments name an image, at most one command, and options. Some options
may stand before and after the command.

Arguments are taken in one pass. A value that has been given is checked when
the next option or operand starts, or when the arguments of its level end. An
argument that has no place at all is reported at once, before such a value.
-/

/-- What to show about an image. -/
inductive Command where
  | summary
  | sections
  | lines (withRows : Bool)
  | lookup (address : UInt64)
  | addresses
  | files
  | ranges
  deriving Repr, DecidableEq

/-- What the arguments ask for. -/
structure Invocation where
  imagePath : String
  command : Command
  options : Options
  deriving Repr, DecidableEq

/-- Why arguments cannot be used. -/
inductive UsageError where
  | unexpectedArgument (argument : String)
  | unknownCommand (name : String)
  | unexpectedValue (value label : String)
  | missingValue (label : String)
  | repeated (label : String)
  | unknownConstAddPc (value label : String)
  | noAddress (text : String) (fault : AddressFault)
  | missingOperand
  deriving Repr, DecidableEq

/-- An argument in quotes, as messages show it. -/
def quoted (argument : String) : String :=
  "'" ++ ControlSequence.strip argument ++ "'"

/-- The wording of a usage error. -/
def UsageError.message : UsageError → String
  | unexpectedArgument argument => "unexpected argument " ++ quoted argument ++ " found"
  | unknownCommand name => "unrecognized subcommand " ++ quoted name
  | unexpectedValue value label =>
      "unexpected value " ++ quoted value ++ " for " ++ quoted label
        ++ " found; no more were expected"
  | missingValue label =>
      "a value is required for " ++ quoted label ++ " but none was supplied"
  | repeated label => "the argument " ++ quoted label ++ " cannot be used multiple times"
  | unknownConstAddPc value label => "invalid value " ++ quoted value ++ " for " ++ quoted label
  | noAddress text fault =>
      "invalid value " ++ quoted text ++ " for " ++ quoted "<ADDRESS>" ++ ": " ++ fault.message
  | missingOperand => "the following required arguments were not provided:"

/-- What ends the reading of arguments early. -/
inductive EarlyStop where
  | usage (error : UsageError)
  | version
  | help
  deriving Repr, DecidableEq

namespace Arguments

/-- The level that an argument belongs to: the program, or one of its commands. -/
inductive Level where
  | program
  | sections
  | lines
  | lookup
  | addresses
  | files
  | ranges
  deriving Repr, DecidableEq

/-- The names of the commands. -/
def commandNames : List (String × Level) :=
  [("sections", .sections), ("lines", .lines), ("lookup", .lookup),
    ("addresses", .addresses), ("files", .files), ("aranges", .ranges)]

/-- The name of the command that explains the others. -/
def helpName : String :=
  "help"

/-- The command that a name stands for. -/
def command? (name : String) : Option Level :=
  commandNames.lookup name

/-- Whether a word is the name of a command, the one that explains included. -/
def isCommand (word : String) : Bool :=
  word = helpName ∨ (command? word).isSome

/-- Whether a word is close enough to a command's name to be a slip. -/
def isNearCommand (word : String) : Bool :=
  (helpName :: commandNames.map (·.1)).any fun name =>
    Similarity.between word.toList name.toList > 0.7

/-- The options. -/
inductive Switch where
  | constAddPc
  | perEntryFiles
  | verbose
  | entries
  | version
  | help
  deriving Repr, DecidableEq

/-- How messages name an option. -/
def Switch.label : Switch → String
  | constAddPc => "--const-add-pc <CONST_ADD_PC>"
  | perEntryFiles => "--per-entry-files"
  | verbose => "--verbose..."
  | entries => "--entries"
  | version => "--version"
  | help => "--help"

/-- Whether an option can be given at a level. -/
def Switch.isKnownAt
    (level : Level) :
    Switch → Bool
  | entries => level = .lines
  | version => level = .program
  | _ => true

/-- The option with a long name. -/
def longSwitch?
    (level : Level)
    (name : String) :
    Option Switch :=
  let named : Option Switch :=
    match name with
    | "const-add-pc" => some .constAddPc
    | "per-entry-files" => some .perEntryFiles
    | "verbose" => some .verbose
    | "entries" => some .entries
    | "version" => some .version
    | "help" => some .help
    | _ => none
  named.filter (·.isKnownAt level)

/-- The option with a short name. -/
def shortSwitch?
    (level : Level)
    (name : Char) :
    Option Switch :=
  let named : Option Switch :=
    match name with
    | 'v' => some .verbose
    | 'e' => some .entries
    | 'V' => some .version
    | 'h' => some .help
    | _ => none
  named.filter (·.isKnownAt level)

/-- What has been given at one level, and checked. -/
structure Given where
  constAddPc : Option ConstAddPc
  perEntryFiles : Bool
  entries : Bool
  imagePath : Option String
  address : Option UInt64
  deriving Repr, DecidableEq

/-- A value that has not been checked. -/
inductive Pending where
  | nothing
  /-- The option's value, or none while it is still to come. -/
  | constAddPc (value : Option String)
  | operand (text : String)
  deriving Repr, DecidableEq

/-- How far one level has been read. -/
structure State where
  given : Given
  pending : Pending
  /-- Whether the place for an operand is taken. -/
  hasOperand : Bool
  /-- Whether the mark `--` has been met, after which there are no options. -/
  onlyOperands : Bool
  deriving Repr, DecidableEq

/-- A step that may end the reading. -/
abbrev Step :=
  Except EarlyStop

/-- Ends the reading with an error. -/
def reject
    {α : Type}
    (error : UsageError) :
    Step α :=
  .error (.usage error)

/-- A level at which nothing has been read. -/
def State.fresh : State where
  given := {
    constAddPc := none
    perEntryFiles := false
    entries := false
    imagePath := none
    address := none
  }
  pending := .nothing
  hasOperand := false
  onlyOperands := false

/-- The label of an image's path. -/
def imageLabel : String :=
  "<BINARY>"

/-- Whether a level has a place for an operand. -/
def takesOperand (level : Level) : Bool :=
  level = .program ∨ level = .lookup

/-- Checks the value of `--const-add-pc`. -/
def giveConstAddPc
    (given : Given)
    (value : Option String) :
    Step Given :=
  match value with
  | none => reject (.missingValue Switch.constAddPc.label)
  | some text =>
      if given.constAddPc.isSome then
        reject (.repeated Switch.constAddPc.label)
      else
        match text with
        | "ignore" => .ok { given with constAddPc := some .ignore }
        | "standard" => .ok { given with constAddPc := some .standard }
        | "" => reject (.missingValue Switch.constAddPc.label)
        | other => reject (.unknownConstAddPc other Switch.constAddPc.label)

/-- Checks an operand. -/
def giveOperand
    (level : Level)
    (given : Given)
    (text : String) :
    Step Given :=
  if level = .lookup then
    match AddressText.parse text with
    | .ok address => .ok { given with address := some address }
    | .error fault => reject (.noAddress text fault)
  else if text.isEmpty then
    reject (.missingValue imageLabel)
  else
    .ok { given with imagePath := some text }

/-- Checks the value that is pending, if there is one. -/
def settle
    (level : Level)
    (state : State) :
    Step State := do
  let given ←
    match state.pending with
    | .nothing => pure state.given
    | .constAddPc value => giveConstAddPc state.given value
    | .operand text => giveOperand level state.given text
  return { state with given := given, pending := .nothing }

/-- Gives an option that has no value. -/
def giveFlag
    (level : Level)
    (state : State)
    (switch : Switch) :
    Step State := do
  let settled ← settle level state
  match switch with
  | .constAddPc => return { settled with pending := .constAddPc none }
  | .verbose => return settled
  | .version => throw .version
  | .help => throw .help
  | .perEntryFiles =>
      if settled.given.perEntryFiles then
        reject (.repeated Switch.perEntryFiles.label)
      else
        return { settled with given := { settled.given with perEntryFiles := true } }
  | .entries =>
      if settled.given.entries then
        reject (.repeated Switch.entries.label)
      else
        return { settled with given := { settled.given with entries := true } }

/-- Gives an option together with a value. -/
def giveValue
    (level : Level)
    (state : State)
    (switch : Switch)
    (value : String) :
    Step State :=
  if switch = .constAddPc then do
    let settled ← settle level state
    let given ← giveConstAddPc settled.given (some value)
    return { settled with given := given }
  else
    reject (.unexpectedValue value switch.label)

/-- Takes an argument that starts with two hyphens, which are left out here. -/
def takeLong
    (level : Level)
    (state : State)
    (body : List Char) :
    Step State :=
  let name := String.ofList (body.takeWhile (· ≠ '='))
  match longSwitch? level name with
  | none => reject (.unexpectedArgument ("--" ++ name))
  | some switch =>
      match body.dropWhile (· ≠ '=') with
      | [] => giveFlag level state switch
      | _ :: value => giveValue level state switch (String.ofList value)

/-- Takes an argument that starts with one hyphen: each character after it is an option. -/
def takeShort
    (level : Level)
    (state : State)
    (body : List Char) :
    Step State :=
  body.foldlM
    (fun state name =>
      match shortSwitch? level name with
      | some switch => giveFlag level state switch
      | none => reject (.unexpectedArgument ("-" ++ name.toString)))
    state

/-- Takes an argument that is no option. -/
def takeOperand
    (level : Level)
    (state : State)
    (text : String) :
    Step State :=
  if takesOperand level ∧ state.hasOperand = false then do
    let settled ← settle level state
    return { settled with pending := .operand text, hasOperand := true }
  else if level = .program ∧ isCommand text = false ∧ isNearCommand text then
    reject (.unknownCommand text)
  else
    reject (.unexpectedArgument text)

/-- Takes an argument that is neither a command nor follows the mark `--`. -/
def takeArgument
    (level : Level)
    (state : State)
    (argument : String) :
    Step State :=
  match argument.toList, state.pending with
  | ['-', '-'], _ => .ok { state with onlyOperands := true }
  | '-' :: '-' :: body, _ => takeLong level state body
  | '-' :: first :: body, _ => takeShort level state (first :: body)
  | _, .constAddPc none => .ok { state with pending := .constAddPc (some argument) }
  | _, _ => takeOperand level state argument

/-- Ends a level: the pending value is checked, then whether the operand is there. -/
def finish
    (level : Level)
    (state : State) :
    Step Given := do
  let settled ← settle level state
  if takesOperand level ∧ settled.hasOperand = false then
    reject .missingOperand
  return settled.given

/-- What explaining commands leads to: only names of commands can be explained. -/
def explain : List String → EarlyStop
  | [] => .help
  | name :: rest =>
      if isCommand name then
        match rest with
        | [] => .help
        | next :: _ => .usage (.unknownCommand next)
      else
        .usage (.unknownCommand name)

/-- Whether the next argument may be the name of a command. -/
def mayBeCommand
    (level : Level)
    (state : State) :
    Bool :=
  level = .program ∧ state.onlyOperands = false ∧ state.pending ≠ .constAddPc none

/-- What has been given to the program, and to its command if there is one. -/
structure Parsed where
  program : Given
  command : Option (Level × Given)
  deriving Repr, DecidableEq

/-- Reads the arguments of a command. -/
def scanCommand
    (level : Level)
    (state : State) :
    List String → Step Given
  | [] => finish level state
  | argument :: rest => do
      let next ←
        if state.onlyOperands then
          takeOperand level state argument
        else
          takeArgument level state argument
      scanCommand level next rest

/-- Reads the arguments of the program, which end where a command starts. -/
def scanProgram
    (state : State) :
    List String → Step Parsed
  | [] => do
      let program ← finish .program state
      return { program := program, command := none }
  | argument :: rest =>
      if mayBeCommand .program state ∧ argument = helpName then
        .error (explain rest)
      else
        match (command? argument).filter fun _ => mayBeCommand .program state with
        | some level => do
            let command ← scanCommand level .fresh rest
            let program ← finish .program state
            return { program := program, command := some (level, command) }
        | none => do
            let next ←
              if state.onlyOperands then
                takeOperand .program state argument
              else
                takeArgument .program state argument
            scanProgram next rest

/-- The command that a level and what was given to it stand for. -/
def commandOf : Option (Level × Given) → Command
  | some (.sections, _) => .sections
  | some (.lines, given) => .lines given.entries
  | some (.lookup, given) => .lookup (given.address.getD 0)
  | some (.addresses, _) => .addresses
  | some (.files, _) => .files
  | some (.ranges, _) => .ranges
  | some (.program, _) => .summary
  | none => .summary

/-- The options of a program and its command; the command's own choice wins. -/
def optionsOf (parsed : Parsed) : Options :=
  let perEntryFiles :=
    parsed.program.perEntryFiles || (parsed.command.any fun command => command.2.perEntryFiles)
  let constAddPc :=
    (parsed.command.bind fun command => command.2.constAddPc).or parsed.program.constAddPc
  { constAddPc := constAddPc.getD .ignore
    attribution := if perEntryFiles then .perRow else .firstFile }

/-- Reads all arguments. -/
def parse (arguments : List String) : Step Invocation := do
  let parsed ← scanProgram .fresh arguments
  return {
    imagePath := parsed.program.imagePath.getD ""
    command := commandOf parsed.command
    options := optionsOf parsed
  }

end Arguments

end LineAtlas
