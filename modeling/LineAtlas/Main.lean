import LineAtlas.CommandLine.Outcome

/-!
# The program

Reads the image that the arguments name, and writes what `Outcome` gives.
-/

open LineAtlas

/-- Writes an outcome and gives its exit code. -/
def writeOutcome (outcome : Outcome) : IO UInt32 := do
  (← IO.getStdout).putStr outcome.output
  (← IO.getStderr).putStr outcome.errorOutput
  return outcome.exitCode

/-- Runs the program on a file. -/
def runInvocation (invocation : Invocation) : IO UInt32 := do
  match ← (IO.FS.readBinFile invocation.imagePath).toBaseIO with
  | .ok image =>
      writeOutcome (Outcome.ofInvocation invocation image.toList)
  | .error cause =>
      writeOutcome
        (Outcome.failure
          ("Failed to read binary: " ++ invocation.imagePath)
          (some (toString cause)))

/-- The entry point of the program. -/
def main (arguments : List String) : IO UInt32 :=
  match Arguments.parse arguments with
  | .error stop => writeOutcome (Outcome.ofEarlyStop stop)
  | .ok invocation => runInvocation invocation
