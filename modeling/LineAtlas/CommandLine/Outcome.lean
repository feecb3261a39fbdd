import LineAtlas.CommandLine.Report

namespace LineAtlas

/-!
# Outcomes of the program

What the program writes and how it exits, as a function of its arguments and
the bytes of the image. Unusable arguments exit with 2, and are reported before
the image is looked at. An image that cannot be read exits with 1.
-/

/-- What a run of the program leaves behind. -/
structure Outcome where
  exitCode : UInt32
  output : String
  errorOutput : String
  deriving Repr, DecidableEq

namespace Outcome

/-- A run that ends well. -/
def success (output : String) : Outcome where
  exitCode := 0
  output := output
  errorOutput := ""

/-- A run that fails for a reason, which may have a cause of its own. -/
def failure
    (reason : String)
    (cause : Option String) :
    Outcome where
  exitCode := 1
  output := ""
  errorOutput :=
    match cause with
    | none => "Error: " ++ reason ++ "\n"
    | some detail => "Error: " ++ reason ++ "\n\nCaused by:\n    " ++ detail ++ "\n"

/-- A run with arguments that cannot be used. -/
def misuse (error : UsageError) : Outcome where
  exitCode := 2
  output := ""
  errorOutput :=
    "error: " ++ error.message ++ "\n\nFor more information, try '--help'.\n"

/-- The program's name and version. -/
def versionText : String :=
  "dwarfline 0.1.0\n"

/-- How the program is called. -/
def helpText : String :=
  "Map machine addresses to source lines using DWARF line tables\n\n"
    ++ "Usage: dwarfline [OPTIONS] <BINARY> [COMMAND]\n"

/-- The outcome of arguments that ask for no image. -/
def ofEarlyStop : EarlyStop → Outcome
  | .usage error => misuse error
  | .version => success versionText
  | .help => success helpText

/-- The outcome of a request about an image. -/
def ofInvocation
    (invocation : Invocation)
    (image : Bytes) :
    Outcome :=
  if ObjectFile.isObjectFile image then
    match ObjectFile.read image with
    | .error cause => failure "Failed to parse ELF file" (some cause.message)
    | .ok file =>
        let atlas := (Atlas.ofSource invocation.options (.ofObjectFile file)).load
        success (Columns.paragraph (Report.ofCommand file atlas invocation.command))
  else
    failure "Unknown binary format. Supported formats: ELF" none

/-- The outcome of a run with the given arguments, where the image has the given bytes. -/
def ofArguments
    (arguments : List String)
    (image : Bytes) :
    Outcome :=
  match Arguments.parse arguments with
  | .error stop => ofEarlyStop stop
  | .ok invocation => ofInvocation invocation image

end Outcome

end LineAtlas
